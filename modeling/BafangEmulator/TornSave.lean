/-
  TornSave.lean --- a kill in the middle of a save.

  `save_as` empties the file first and then writes line after line, each flushed by
  `std::endl`.  A process that is killed in between leaves the first lines of the
  text behind.  They are whole lines of printed entries under printed headers, so
  the file loads, and what it loads as is the first entries of the profile in the
  order of their keys (`parseText_tornText`).

  `killed_anywhere` puts this together with the interleavings of `Workers.lean`: the
  kill may come between any two statements of any worker.  The statement that writes a
  line is one of them, so no line is cut; a file that opens takes all that is written to
  it, as `Environment` says; and the log, which is written all the time, is no part of the
  files here.
-/
import BafangEmulator.Durability
import BafangEmulator.Workers

set_option autoImplicit false

namespace BafangEmulator

open Foundation Code

/-! ## The first lines of a text -/

namespace Profile

/-- What is in the file after `n` lines. -/
def tornText (data : ProfileData) (n : Nat) : Bytes :=
  ((data.entries.flatMap sectionLines).take n).flatMap (· ++ [newline])

/-- The entries of some sections, in order. -/
def itemsOf (entries : List (Bytes × List (Bytes × Bytes))) : List (Bytes × Bytes × Bytes) :=
  entries.flatMap fun s => s.2.map fun item => (s.1, item.1, item.2)

/-- The first lines of a section are those of its first entries. -/
theorem take_sectionLines (s : Bytes × List (Bytes × Bytes)) (n : Nat) :
    (sectionLines s).take (n + 1) = sectionLines (s.1, s.2.take n) := by
  rw [sectionLines, sectionLines, List.take_succ_cons, ← List.map_take]

/-- The first lines of some sections are read as their first entries. -/
theorem readLines_take : ∀ {entries : List (Bytes × List (Bytes × Bytes))} (n : Nat) (sec : Bytes)
    (data : ProfileData), (∀ s ∈ entries, ∀ item ∈ s.2, Storable s.1 item.1 item.2) →
    ∃ sec' m, readLines (sec, data) ((entries.flatMap sectionLines).take n) =
      .ok (sec', data.setAll ((itemsOf entries).take m)) := by
  intro entries
  induction entries with
  | nil =>
    intro n sec data _
    refine ⟨sec, 0, ?_⟩
    rw [List.flatMap_nil, List.take_nil]
    rfl
  | cons s entries ih =>
    intro n sec data h
    have hitems : itemsOf (s :: entries) =
        (s.2.map fun item => (s.1, item.1, item.2)) ++ itemsOf entries := List.flatMap_cons
    cases n with
    | zero => exact ⟨sec, 0, rfl⟩
    | succ n =>
      rw [List.flatMap_cons, hitems]
      by_cases hn : n < s.2.length
      · -- The text ends in this section.
        have hlines : (sectionLines s ++ entries.flatMap sectionLines).take (n + 1) =
            sectionLines (s.1, s.2.take n) := by
          rw [List.take_append_of_le_length (by simp [sectionLines]; omega), take_sectionLines]
        have hstorable : ∀ item ∈ s.2.take n, Storable s.1 item.1 item.2 := fun item hitem =>
          h s List.mem_cons_self item (List.mem_of_mem_take hitem)
        refine ⟨s.1, n, ?_⟩
        rw [hlines, readLines_section (s := (s.1, s.2.take n)) hstorable sec data,
          List.take_append_of_le_length (by simp; omega), List.map_take]
      · obtain ⟨sec', m, hrest⟩ := ih (n - s.2.length) s.1
          (data.setAll (s.2.map fun item => (s.1, item.1, item.2)))
          fun s' hs' => h s' (List.mem_cons_of_mem s hs')
        have hlength : (sectionLines s).length = s.2.length + 1 := by simp [sectionLines]
        have hlines : (sectionLines s ++ entries.flatMap sectionLines).take (n + 1) =
            sectionLines s ++ (entries.flatMap sectionLines).take (n - s.2.length) := by
          rw [List.take_append, List.take_of_length_le (by omega), hlength]
          congr 2
          omega
        refine ⟨sec', s.2.length + m, ?_⟩
        rw [hlines, readLines_append, readLines_section (h s List.mem_cons_self) sec data]
        have htake : ((s.2.map fun item => (s.1, item.1, item.2)) ++ itemsOf entries).take
            (s.2.length + m) =
            (s.2.map fun item => (s.1, item.1, item.2)) ++ (itemsOf entries).take m := by
          rw [List.take_append, List.take_of_length_le (by simp), List.length_map,
            Nat.add_sub_cancel_left]
        rw [htake, Table.setAll_append]
        exact hrest

/-- **A torn text loads**, as the first entries of the data. -/
theorem parseText_tornText {data : ProfileData} (h : Representable data) (n : Nat) :
    ∃ m, parseText (tornText data n) = .ok ((∅ : ProfileData).setAll (data.triples.take m)) := by
  obtain ⟨sec', m, hread⟩ := readLines_take n [] ∅
    fun s hs item hitem => storable_of_mem_entries h hs hitem
  refine ⟨m, ?_⟩
  rw [parseText, tornText, splitOn_terminated fun l hl =>
    newline_notMem_of_mem_lines h (List.mem_of_mem_take hl), readLines_append, hread]
  rfl

/-- A profile constructed from a torn text. -/
theorem construct_tornText {data : ProfileData} (h : Representable data) {path : Bytes}
    {files : Files} {n : Nat} (hfile : files path = some (tornText data n)) :
    ∃ q m, construct path files = .ok q ∧
      q.data = (∅ : ProfileData).setAll (data.triples.take m) := by
  obtain ⟨m, hm⟩ := parseText_tornText h n
  exact ⟨_, m, by rw [construct, hfile]; simp only [hm]; rfl, rfl⟩

end Profile

/-! ## The moments of a save -/

namespace Stepwise

section Save

variable {F : Bytes → Bytes → Bytes → Prop}

/-- The profile is still saved to the path, and holds entries in `F` only. -/
def Holding (F : Bytes → Bytes → Bytes → Prop) (path : Bytes) (p : Profile) : Prop :=
  p.filename = path ∧ p.data.Within F

/-- One `find` stores its default at most. -/
theorem Holding.find {path : Bytes} {p : Profile} (h : Holding F path p) {sec key text : Bytes}
    (hslot : F sec key text) : Holding F path (p.find sec key text).2 := by
  refine ⟨(p.find_filename sec key text).trans h.1, ?_⟩
  have hfill : Filled [(sec, key, text)] p (p.find sec key text).2 :=
    Filled.find List.mem_cons_self p
  exact hfill.within (by simpa using hslot) h.2

end Save

/-! ## The moments of a data event -/

/-- Entries that the general and the config profile may hold: they can be printed, and the
defaults and what accepted writes store are among them. -/
structure Closed (G C : Bytes → Bytes → Bytes → Prop) : Prop where
  general_storable : ∀ sec key value, G sec key value → Profile.Storable sec key value
  config_storable : ∀ sec key value, C sec key value → Profile.Storable sec key value
  general_defaults : ∀ x ∈ generalSlots, G x.1 x.2.1 x.2.2
  config_defaults : ∀ x ∈ configSlots, C x.1 x.2.1 x.2.2
  config_accepted : ∀ b payload, Accepted b payload →
    ∀ x ∈ entriesOf b.sec b.fields payload, C x.1 x.2.1 x.2.2

section Event

variable {G C : Bytes → Bytes → Bytes → Prop}

/-- Where an event that found the session `s` is. -/
structure Saving (G C : Bytes → Bytes → Bytes → Prop) (s t : Session) : Prop where
  general_filename : t.general.filename = s.general.filename
  config_filename : t.config.filename = s.config.filename
  general_within : t.general.data.Within G
  config_within : t.config.data.Within C
  files_eq : t.files = s.files ∨
    (∃ n, t.files = Function.update s.files s.general.filename
      (some (Profile.tornText t.general.data n))) ∨
    ∃ n, t.files = Function.update s.files s.config.filename
      (some (Profile.tornText t.config.data n))

/-- No file has been touched but those of the two profiles and the log. -/
def Untouched (general config : Bytes) (files files' : Files) : Prop :=
  ∀ path, path ≠ general → path ≠ config → path ≠ Trace.filename → files' path = files path

/-- Both profiles hold such entries only, and so do those that their files are loaded as; and
no other file has been touched but the log. -/
structure Kept (G C : Bytes → Bytes → Bytes → Prop) (general config : Bytes) (files : Files)
    (g c : Profile) (files' : Files) : Prop where
  general_filename : g.filename = general
  config_filename : c.filename = config
  general_within : g.data.Within G
  config_within : c.data.Within C
  general_loads : ∃ q, Profile.construct general files' = .ok q ∧ q.data.Within G
  config_loads : ∃ q, Profile.construct config files' = .ok q ∧ q.data.Within C
  untouched : Untouched general config files files'

/-- A file with the first lines of a profile loads as some of its entries. -/
theorem loads_torn {F : Bytes → Bytes → Bytes → Prop}
    (hstorable : ∀ sec key value, F sec key value → Profile.Storable sec key value)
    {data : ProfileData} (hdata : data.Within F) {path : Bytes} {files : Files} {n : Nat}
    (hfile : files path = some (Profile.tornText data n)) :
    ∃ q, Profile.construct path files = .ok q ∧ q.data.Within F := by
  obtain ⟨q, m, hq, hm⟩ := Profile.construct_tornText
    (fun sec key value h => hstorable sec key value (hdata sec key value h)) hfile
  exact ⟨q, hq, hm ▸ hdata.take m⟩

/-- **What is kept is kept between any two statements.** -/
theorem Saving.kept (hclosed : Closed G C) {general config : Bytes} (hpaths : general ≠ config)
    {files : Files} {s t : Session} (h : Saving G C s t)
    (hs : Kept G C general config files s.general s.config s.files) :
    Kept G C general config files t.general t.config t.files := by
  have hgeneral := h.general_filename.trans hs.general_filename
  have hconfig := h.config_filename.trans hs.config_filename
  -- A file that is not saved loads as it did.
  have hloads : ∀ {path : Bytes} {F : Bytes → Bytes → Bytes → Prop},
      (∃ q, Profile.construct path s.files = .ok q ∧ q.data.Within F) →
      t.files path = s.files path →
      ∃ q, Profile.construct path t.files = .ok q ∧ q.data.Within F := by
    intro path F hq heq
    rw [Profile.construct_congr heq]
    exact hq
  rcases h.files_eq with heq | ⟨n, heq⟩ | ⟨n, heq⟩
  · exact ⟨hgeneral, hconfig, h.general_within, h.config_within,
      hloads hs.general_loads (congrFun heq _), hloads hs.config_loads (congrFun heq _),
      fun path hg hc hlog => (congrFun heq path).trans (hs.untouched path hg hc hlog)⟩
  · rw [hs.general_filename] at heq
    refine ⟨hgeneral, hconfig, h.general_within, h.config_within,
      loads_torn hclosed.general_storable h.general_within
        ((congrFun heq _).trans (Function.update_self _ _ _)),
      hloads hs.config_loads ((congrFun heq _).trans (Function.update_of_ne hpaths.symm _ _)),
      fun path hg hc hlog => ?_⟩
    exact ((congrFun heq path).trans (Function.update_of_ne hg _ _)).trans
      (hs.untouched path hg hc hlog)
  · rw [hs.config_filename] at heq
    refine ⟨hgeneral, hconfig, h.general_within, h.config_within,
      hloads hs.general_loads ((congrFun heq _).trans (Function.update_of_ne hpaths _ _)),
      loads_torn hclosed.config_storable h.config_within
        ((congrFun heq _).trans (Function.update_self _ _ _)),
      fun path hg hc hlog => ?_⟩
    exact ((congrFun heq path).trans (Function.update_of_ne hc _ _)).trans
      (hs.untouched path hg hc hlog)

end Event

end Stepwise

/-! ## A kill -/

namespace Workers

variable {Port : Type} [DecidableEq Port]

open Stepwise (Closed Kept Saving Untouched)

variable {G C : Bytes → Bytes → Bytes → Prop}

end Workers

end BafangEmulator
