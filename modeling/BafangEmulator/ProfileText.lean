/-
  ProfileText.lean --- the file format of a profile: what survives a save and a
  load.

  `save_as` escapes nothing and the constructor decides line by line, a header
  before an entry.  An entry is `Storable` when its own two lines are read as
  what they were printed from.  Everything the constructor accepts is storable
  (`representable_of_parseText`), and storable data is read back as it was
  (`parseText_render`).  Together they make `Representable` the exact domain of
  the round trip.
-/
import BafangEmulator.Profile

set_option autoImplicit false

namespace BafangEmulator.Profile

open Foundation

/-- An entry that can be printed and read back. -/
@[mk_iff]
structure Storable (sec key value : Bytes) : Prop where
  sec_ne_nil : sec ≠ []
  newline_notMem_sec : newline ∉ sec
  key_ne_nil : key ≠ []
  equalSign_notMem_key : equalSign ∉ key
  newline_notMem_key : newline ∉ key
  value_ne_nil : value ≠ []
  newline_notMem_value : newline ∉ value
  /-- The printed entry is not taken for a header. -/
  not_header : ¬ (key.head? = some openBracket ∧ value.getLast? = some closeBracket)

instance (sec key value : Bytes) : Decidable (Storable sec key value) :=
  decidable_of_iff' _ (storable_iff sec key value)

/-- Data all of whose entries are storable. -/
def Representable (data : ProfileData) : Prop :=
  ∀ sec key value, data.get? sec key = some value → Storable sec key value

theorem representable_empty : Representable ∅ := Table.within_empty Storable

theorem Representable.set {data : ProfileData} (h : Representable data) {sec key value : Bytes}
    (he : Storable sec key value) : Representable (data.set sec key value) :=
  Table.Within.set h he

theorem Representable.setAll {l : List (Bytes × Bytes × Bytes)} {data : ProfileData}
    (h : Representable data) (hl : ∀ x ∈ l, Storable x.1 x.2.1 x.2.2) :
    Representable (data.setAll l) :=
  Table.Within.setAll h hl

/-- A number can be stored wherever another number can. -/
theorem Storable.decimal {sec key : Bytes} {z : Int} (h : Storable sec key (decimal z)) (z' : Int) :
    Storable sec key (Foundation.decimal z') where
  sec_ne_nil := h.sec_ne_nil
  newline_notMem_sec := h.newline_notMem_sec
  key_ne_nil := h.key_ne_nil
  equalSign_notMem_key := h.equalSign_notMem_key
  newline_notMem_key := h.newline_notMem_key
  value_ne_nil := decimal_ne_nil z'
  newline_notMem_value := fun hmem => by
    rcases mem_decimal hmem with hdigit | hsign
    · exact absurd hdigit (by decide)
    · exact absurd hsign (by decide)
  not_header := by
    rintro ⟨-, hlast⟩
    rcases mem_decimal (List.mem_of_mem_getLast? hlast) with hdigit | hsign
    · exact absurd hdigit (by decide)
    · exact absurd hsign (by decide)

/-! ## What the constructor accepts -/

theorem newline_notMem_of_mem_splitOn {text line : Bytes} (h : line ∈ text.splitOn newline) :
    newline ∉ line := by
  induction text generalizing line with
  | nil => simp_all
  | cons c text ih =>
    rw [List.splitOn_cons_eq_if_modifyHead] at h
    split at h
    · rcases List.mem_cons.mp h with rfl | h
      · simp
      · exact ih h
    · rename_i hc
      cases hsplit : text.splitOn newline with
      | nil => simp [hsplit] at h
      | cons l ls =>
        rw [hsplit] at ih
        rw [hsplit, List.modifyHead_cons, List.mem_cons] at h
        rcases h with rfl | h
        · have hl := ih List.mem_cons_self
          simp only [beq_iff_eq] at hc
          simp [hl, Ne.symm hc]
        · exact ih (List.mem_cons_of_mem l h)

/-- The line of an entry starts as its key does. -/
theorem head?_item {key : Bytes} (h : key ≠ []) (value : Bytes) :
    (key ++ equalSign :: value).head? = key.head? := by
  cases key with
  | nil => exact absurd rfl h
  | cons c key => rfl

/-- The line of an entry ends as its value does. -/
theorem getLast?_item {value : Bytes} (h : value ≠ []) (key : Bytes) :
    (key ++ equalSign :: value).getLast? = value.getLast? := by
  cases value with
  | nil => exact absurd rfl h
  | cons c value => simp [List.getLast?_cons, List.getLast?_append]

/-- A line splits at its first equal sign. -/
theorem eq_item_of_findIdx? {l : Bytes} {equal : Nat}
    (h : l.findIdx? (· == equalSign) = some equal) :
    l = l.take equal ++ equalSign :: l.drop (equal + 1) ∧ equalSign ∉ l.take equal := by
  rw [List.findIdx?_eq_some_iff_getElem] at h
  obtain ⟨hlt, hsign, hbefore⟩ := h
  constructor
  · have hget : l[equal] = equalSign := by simpa using hsign
    rw [← hget, ← List.drop_eq_getElem_cons hlt, List.take_append_drop]
  · intro hmem
    obtain ⟨i, hi, hget⟩ := List.mem_take_iff_getElem.mp hmem
    have hne := hbefore i (by omega)
    simp [hget] at hne

/-- What `readLine` does with a line in the section `sec`: it skips a blank line, opens
the section of a header, stores an entry, or fails. -/
theorem readLine_cases (sec line : Bytes) (data : ProfileData) :
    (line = [] ∧ readLine (sec, data) line = .ok (sec, data)) ∨
    (isHeader line = true ∧
      readLine (sec, data) line = .ok ((line.drop 1).take (line.length - 2), data)) ∨
    (∃ equal, isHeader line = false ∧ line.findIdx? (· == equalSign) = some equal ∧
      (sec ≠ [] ∧ line.take equal ≠ [] ∧ line.drop (equal + 1) ≠ []) ∧
      readLine (sec, data) line =
        .ok (sec, data.set sec (line.take equal) (line.drop (equal + 1)))) ∨
    (line ≠ [] ∧ isHeader line = false ∧
      (∀ equal, line.findIdx? (· == equalSign) = some equal →
        ¬ (sec ≠ [] ∧ line.take equal ≠ [] ∧ line.drop (equal + 1) ≠ [])) ∧
      readLine (sec, data) line = .error (parseFailure line)) := by
  by_cases hline : line = []
  · subst hline
    exact Or.inl ⟨rfl, rfl⟩
  · cases hheader : isHeader line with
    | true =>
      refine Or.inr (Or.inl ⟨rfl, ?_⟩)
      simp [readLine, hline, hheader]
    | false =>
      refine Or.inr (Or.inr ?_)
      cases hfind : line.findIdx? (· == equalSign) with
      | none =>
        refine Or.inr ⟨hline, rfl, by simp, ?_⟩
        simp [readLine, hline, hheader, hfind]
      | some equal =>
        by_cases hvalid : sec ≠ [] ∧ line.take equal ≠ [] ∧ line.drop (equal + 1) ≠ []
        · refine Or.inl ⟨equal, rfl, rfl, hvalid, ?_⟩
          simp only [readLine, List.isEmpty_iff, hline, hheader, hfind, if_pos hvalid, if_false,
            Bool.false_eq_true]
        · refine Or.inr ⟨hline, rfl, fun equal' h => ?_, ?_⟩
          · rw [← Option.some.inj h]
            exact hvalid
          · simp only [readLine, List.isEmpty_iff, hline, hheader, hfind, if_neg hvalid, if_false,
              Bool.false_eq_true]

/-- One line keeps the section free of newlines and the data representable. -/
theorem readLine_representable {sec sec' line : Bytes} {data data' : ProfileData}
    (hline : newline ∉ line) (hsec : newline ∉ sec) (hdata : Representable data)
    (h : readLine (sec, data) line = .ok (sec', data')) :
    newline ∉ sec' ∧ Representable data' := by
  rcases readLine_cases sec line data with ⟨-, hread⟩ | ⟨-, hread⟩ |
    ⟨equal, hheader, hequal, ⟨hsec_ne, hkey, hval⟩, hread⟩ | ⟨-, -, -, hread⟩
  · -- an empty line
    obtain ⟨rfl, rfl⟩ := Prod.mk.inj (Except.ok.inj (h.symm.trans hread))
    exact ⟨hsec, hdata⟩
  · -- a header
    obtain ⟨rfl, rfl⟩ := Prod.mk.inj (Except.ok.inj (h.symm.trans hread))
    exact ⟨fun hmem => hline (List.mem_of_mem_drop (List.mem_of_mem_take hmem)), hdata⟩
  · -- an entry
    obtain ⟨rfl, rfl⟩ := Prod.mk.inj (Except.ok.inj (h.symm.trans hread))
    obtain ⟨hitem, hkey_eq⟩ := eq_item_of_findIdx? hequal
    refine ⟨hsec, hdata.set ⟨hsec_ne, hsec, hkey, hkey_eq,
      fun hmem => hline (List.mem_of_mem_take hmem), hval,
      fun hmem => hline (List.mem_of_mem_drop hmem), ?_⟩⟩
    rintro ⟨hfirst, hlast⟩
    apply Bool.eq_false_iff.mp hheader
    rw [isHeader, hitem, head?_item hkey, getLast?_item hval, hfirst, hlast]
    decide
  · rw [hread] at h
    cases h

theorem readLines_representable {lines : List Bytes} :
    ∀ {sec sec' : Bytes} {data data' : ProfileData}, (∀ line ∈ lines, newline ∉ line) →
      newline ∉ sec → Representable data → readLines (sec, data) lines = .ok (sec', data') →
      Representable data' := by
  induction lines with
  | nil =>
    intro sec sec' data data' _ _ hdata h
    obtain ⟨rfl, rfl⟩ := Prod.mk.inj (Except.ok.inj h)
    exact hdata
  | cons line lines ih =>
    intro sec sec' data data' hlines hsec hdata h
    rw [readLines, List.foldlM_cons] at h
    cases hread : readLine (sec, data) line with
    | error e => simp [hread, bind, Except.bind] at h
    | ok next =>
      obtain ⟨sec₁, data₁⟩ := next
      obtain ⟨hsec₁, hdata₁⟩ :=
        readLine_representable (hlines line List.mem_cons_self) hsec hdata hread
      rw [hread] at h
      exact ih (fun l hl => hlines l (List.mem_cons_of_mem line hl)) hsec₁ hdata₁ h

/-- The constructor accepts representable data only. -/
theorem representable_of_parseText {text : Bytes} {data : ProfileData}
    (h : parseText text = .ok data) : Representable data := by
  unfold parseText at h
  cases hread : readLines ([], ∅) (text.splitOn newline) with
  | error e => simp [hread, Except.map] at h
  | ok next =>
    obtain ⟨sec', data'⟩ := next
    obtain rfl : data' = data := by simpa [hread, Except.map] using h
    exact readLines_representable (fun line hl => newline_notMem_of_mem_splitOn hl) (by simp)
      representable_empty hread

/-! ## Reading what was printed -/

/-- The lines of one section, without their newlines. -/
def sectionLines (s : Bytes × List (Bytes × Bytes)) : List Bytes :=
  (openBracket :: s.1 ++ [closeBracket]) :: s.2.map fun item => item.1 ++ equalSign :: item.2

theorem render_eq_lines (data : ProfileData) :
    render data = (data.entries.flatMap sectionLines).flatMap (· ++ [newline]) := by
  have hsection : ∀ s : Bytes × List (Bytes × Bytes),
      renderSection s = (sectionLines s).flatMap (· ++ [newline]) := by
    rintro ⟨sec, items⟩
    have hitem : renderItem = fun item => item.1 ++ equalSign :: item.2 ++ [newline] := rfl
    simp [renderSection, sectionLines, List.flatMap_map, hitem]
  rw [render, List.flatMap_assoc]
  exact congrArg (List.flatMap · data.entries) (funext hsection)

/-- Terminated lines are read back as they are, with an empty piece at the end of
the file. -/
theorem splitOn_terminated {lines : List Bytes} (h : ∀ line ∈ lines, newline ∉ line) :
    (lines.flatMap (· ++ [newline])).splitOn newline = lines ++ [[]] := by
  induction lines with
  | nil => rfl
  | cons line lines ih =>
    rw [List.flatMap_cons, List.append_assoc, List.singleton_append,
      List.splitOn_append_cons_self_of_not_mem (h line List.mem_cons_self),
      ih fun l hl => h l (List.mem_cons_of_mem line hl), List.cons_append]

/-- A printed header opens its section. -/
theorem readLine_header (sec sec' : Bytes) (data : ProfileData) :
    readLine (sec, data) (openBracket :: sec' ++ [closeBracket]) = .ok (sec', data) := by
  have hheader : isHeader (openBracket :: sec' ++ [closeBracket]) = true := by
    rw [isHeader, List.getLast?_append]
    simp
  simp only [readLine, hheader, if_true]
  simp

/-- A printed entry is stored. -/
theorem readLine_item {sec key value : Bytes} (data : ProfileData)
    (h : Storable sec key value) :
    readLine (sec, data) (key ++ equalSign :: value) = .ok (sec, data.set sec key value) := by
  have hempty : (key ++ equalSign :: value).isEmpty = false := by simp
  have hheader : isHeader (key ++ equalSign :: value) = false := by
    rw [isHeader, head?_item h.key_ne_nil, getLast?_item h.value_ne_nil,
      Bool.and_eq_false_iff, beq_eq_false_iff_ne, beq_eq_false_iff_ne]
    exact Decidable.not_and_iff_not_or_not.mp h.not_header
  have hfind : (key ++ equalSign :: value).findIdx? (· == equalSign) = some key.length := by
    rw [List.findIdx?_eq_some_iff_getElem]
    refine ⟨by simp, by simp, fun j hj => ?_⟩
    rw [List.getElem_append_left hj]
    have hne : key[j] ≠ equalSign := fun heq =>
      h.equalSign_notMem_key (heq ▸ List.getElem_mem hj)
    simpa using hne
  simp [readLine, hempty, hheader, hfind, h.sec_ne_nil, h.key_ne_nil, h.value_ne_nil]

/-- The printed entries of a section are stored one after the other. -/
theorem readLines_items {sec : Bytes} :
    ∀ {items : List (Bytes × Bytes)} {data : ProfileData},
      (∀ item ∈ items, Storable sec item.1 item.2) →
      readLines (sec, data) (items.map fun item => item.1 ++ equalSign :: item.2) =
        .ok (sec, data.setAll (items.map fun item => (sec, item.1, item.2))) := by
  intro items
  induction items with
  | nil => intro data _; rfl
  | cons item items ih =>
    intro data h
    rw [List.map_cons, readLines, List.foldlM_cons,
      readLine_item data (h item List.mem_cons_self)]
    exact ih fun i hi => h i (List.mem_cons_of_mem item hi)

/-- A printed section is stored, whatever section was open before. -/
theorem readLines_section {s : Bytes × List (Bytes × Bytes)}
    (h : ∀ item ∈ s.2, Storable s.1 item.1 item.2) (sec : Bytes) (data : ProfileData) :
    readLines (sec, data) (sectionLines s) =
      .ok (s.1, data.setAll (s.2.map fun item => (s.1, item.1, item.2))) := by
  rw [sectionLines, readLines, List.foldlM_cons, readLine_header]
  exact readLines_items h

theorem readLines_append (state : Bytes × ProfileData) (lines lines' : List Bytes) :
    readLines state (lines ++ lines') =
      (readLines state lines).bind fun state' => readLines state' lines' :=
  List.foldlM_append

/-- Printed sections are stored one after the other. -/
theorem readLines_sections :
    ∀ {entries : List (Bytes × List (Bytes × Bytes))} (sec : Bytes) (data : ProfileData),
      (∀ s ∈ entries, ∀ item ∈ s.2, Storable s.1 item.1 item.2) →
      ∃ sec', readLines (sec, data) (entries.flatMap sectionLines) =
        .ok (sec', data.setAll
          (entries.flatMap fun s => s.2.map fun item => (s.1, item.1, item.2))) := by
  intro entries
  induction entries with
  | nil => intro sec data _; exact ⟨sec, rfl⟩
  | cons s entries ih =>
    intro sec data h
    obtain ⟨sec', hrest⟩ := ih s.1 (data.setAll (s.2.map fun item => (s.1, item.1, item.2)))
      fun s' hs' => h s' (List.mem_cons_of_mem s hs')
    refine ⟨sec', ?_⟩
    rw [List.flatMap_cons, readLines_append, readLines_section (h s List.mem_cons_self),
      List.flatMap_cons, Table.setAll_append]
    exact hrest

theorem storable_of_mem_entries {data : ProfileData} (h : Representable data)
    {s : Bytes × List (Bytes × Bytes)} (hs : s ∈ data.entries) {item : Bytes × Bytes}
    (hitem : item ∈ s.2) : Storable s.1 item.1 item.2 := by
  refine h s.1 item.1 item.2 (Table.mem_triples_iff.mp ?_)
  exact List.mem_flatMap.mpr ⟨s, hs, List.mem_map.mpr ⟨item, hitem, rfl⟩⟩

theorem newline_notMem_of_mem_lines {data : ProfileData} (h : Representable data) {l : Bytes}
    (hl : l ∈ data.entries.flatMap sectionLines) : newline ∉ l := by
  obtain ⟨s, hs, hl⟩ := List.mem_flatMap.mp hl
  rcases List.mem_cons.mp hl with rfl | hl
  · -- The header: the section has an entry, whose storability covers its name.
    obtain ⟨item, hitem⟩ := List.exists_mem_of_ne_nil _ (Table.items_ne_nil hs)
    have hsec := (storable_of_mem_entries h hs hitem).newline_notMem_sec
    have hopen : newline ≠ openBracket := by decide
    have hclose : newline ≠ closeBracket := by decide
    simp [hsec, hopen, hclose]
  · obtain ⟨item, hitem, rfl⟩ := List.mem_map.mp hl
    have hst := storable_of_mem_entries h hs hitem
    have hne : newline ≠ equalSign := by decide
    simp [hst.newline_notMem_key, hst.newline_notMem_value, hne]

/-- Representable data is read back from its own text. -/
theorem parseText_render {data : ProfileData} (h : Representable data) :
    parseText (render data) = .ok data := by
  obtain ⟨sec', hread⟩ := readLines_sections [] ∅
    fun s hs item hitem => storable_of_mem_entries h hs hitem
  have htriples : (data.entries.flatMap fun s => s.2.map fun item => (s.1, item.1, item.2)) =
      data.triples := rfl
  rw [htriples, Table.setAll_triples] at hread
  rw [parseText, render_eq_lines, splitOn_terminated fun l hl => newline_notMem_of_mem_lines h hl,
    readLines_append, hread]
  rfl

/-! ## Saving and loading -/

/-- A profile that was constructed is empty or was read from its file. -/
theorem construct_cases {path : Bytes} {files : Files} {p : Profile}
    (h : construct path files = .ok p) :
    (files path = none ∧ p = { exists_ := false, filename := path, data := ∅ }) ∨
    ∃ text data, files path = some text ∧ parseText text = .ok data ∧
      p = { exists_ := true, filename := path, data := data } := by
  unfold construct at h
  cases hfile : files path with
  | none =>
    simp only [hfile] at h
    exact Or.inl ⟨rfl, (Except.ok.inj h).symm⟩
  | some text =>
    simp only [hfile] at h
    cases hparse : parseText text with
    | error e =>
      rw [hparse] at h
      cases h
    | ok data =>
      rw [hparse] at h
      exact Or.inr ⟨text, data, rfl, hparse, (Except.ok.inj h).symm⟩

theorem construct_saved (path : Bytes) (s : Store) :
    construct path (saved path s).files =
      (parseText (render s.profile.data)).map fun data =>
        { exists_ := true, filename := path, data := data } := by
  simp only [construct, saved, Function.update_self]
  cases parseText (render s.profile.data) <;> rfl

/-- Saved representable data is loaded again. -/
theorem construct_saved_of_representable {s : Store} (h : Representable s.profile.data)
    (path : Bytes) :
    construct path (saved path s).files =
      .ok { exists_ := true, filename := path, data := s.profile.data } := by
  rw [construct_saved, parseText_render h]
  rfl

theorem representable_of_construct {path : Bytes} {files : Files} {p : Profile}
    (h : construct path files = .ok p) : Representable p.data := by
  rcases construct_cases h with ⟨-, rfl⟩ | ⟨text, data, -, hparse, rfl⟩
  · exact representable_empty
  · exact representable_of_parseText hparse

/-- **The domain of the file format.**  A profile that is saved and loaded again
compares equal exactly when its data is representable.  What the constructor has
accepted is, so loading, saving and loading gives an equal profile, and a second
save writes the same text. -/
theorem saveAs_then_construct :
    (∀ (p : Profile) (path : Bytes) (files : Files),
      (∃ (s : Store) (q : Profile), saveAs .working path ⟨p, files⟩ = .returned () s ∧
        construct path s.files = .ok q ∧ q.compare p = true) ↔ Representable p.data) ∧
    (∀ (source path path' : Bytes) (files : Files) (p : Profile),
      construct source files = .ok p →
      ∃ (s s' : Store) (q : Profile), saveAs .working path ⟨p, files⟩ = .returned () s ∧
        construct path s.files = .ok q ∧ q.compare p = true ∧
        saveAs .working path' ⟨q, s.files⟩ = .returned () s' ∧
        s'.files path' = s.files path) := by
  constructor
  · intro p path files
    constructor
    · rintro ⟨s, q, -, hload, hequal⟩
      rw [← (compare_iff q p).mp hequal]
      exact representable_of_construct hload
    · intro h
      exact ⟨_, _, rfl, construct_saved_of_representable h path, (compare_iff _ _).mpr rfl⟩
  · intro source path path' files p hp
    have h := representable_of_construct hp
    refine ⟨_, _, _, rfl, construct_saved_of_representable (s := ⟨p, files⟩) h path,
      (compare_iff _ _).mpr rfl, rfl, ?_⟩
    simp [saved]

/-- A text with a reopened section and without a final newline: it is loaded, and
survives saving and loading. -/
theorem saveAs_then_construct_reopened :
    ∃ (p : Profile) (s s' : Store) (q : Profile),
      construct (bytes "in.el") (fun _ => some (bytes "[B]\nk=1\n\n[A]\nk=2\n[B]\nk=3")) =
        .ok p ∧
      saveAs .working (bytes "copy.el")
        ⟨p, fun _ => some (bytes "[B]\nk=1\n\n[A]\nk=2\n[B]\nk=3")⟩ = .returned () s ∧
      construct (bytes "copy.el") s.files = .ok q ∧ q.compare p = true ∧
      saveAs .working (bytes "again.el") ⟨q, s.files⟩ = .returned () s' ∧
      s'.files (bytes "again.el") = s.files (bytes "copy.el") := by
  have hload : construct (bytes "in.el")
      (fun _ => some (bytes "[B]\nk=1\n\n[A]\nk=2\n[B]\nk=3")) =
        .ok ⟨true, bytes "in.el", (∅ : ProfileData).setAll
          [(bytes "B", bytes "k", bytes "1"), (bytes "A", bytes "k", bytes "2"),
            (bytes "B", bytes "k", bytes "3")]⟩ := rfl
  obtain ⟨s, s', q, h⟩ :=
    saveAs_then_construct.2 _ (bytes "copy.el") (bytes "again.el") _ _ hload
  exact ⟨_, s, s', q, hload, h⟩

end BafangEmulator.Profile
