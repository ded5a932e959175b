/-
  Restart.lean --- what is on disk is what is in memory.

  Memory and disk are updated at different moments: defaults are filled in memory
  only, the general profile is saved by a read, the config profile by an accepted
  write.  What they have in common at every moment is that a profile is the one its
  file would be loaded as, with some defaults filled in (`Mirrored`).  Filling in
  defaults does not change what is served, so a restart is not noticed
  (`restart_transparent`).
-/
import BafangEmulator.Emulator
import BafangEmulator.Reception

set_option autoImplicit false

namespace BafangEmulator

open Foundation

/-! ## Files and their profiles -/

namespace Profile

/-- Only the file at the path matters to the constructor. -/
theorem construct_congr {path : Bytes} {files files' : Files} (h : files' path = files path) :
    construct path files' = construct path files := by
  rw [construct, construct, h]

theorem filename_of_construct {path : Bytes} {files : Files} {p : Profile}
    (h : construct path files = .ok p) : p.filename = path := by
  rcases construct_cases h with ⟨-, rfl⟩ | ⟨text, data, -, -, rfl⟩
  · rfl
  · rfl

end Profile

/-! ## Storable slots -/

theorem storable_configSlots : ∀ x ∈ configSlots, Profile.Storable x.1 x.2.1 x.2.2 := by
  decide +kernel

theorem storable_generalSlots : ∀ x ∈ generalSlots, Profile.Storable x.1 x.2.1 x.2.2 := by
  decide +kernel

/-- What `parse` stores can be printed and read back. -/
theorem storable_entriesOf (b : Block) (payload : Bytes) :
    ∀ x ∈ entriesOf b.sec b.fields payload, Profile.Storable x.1 x.2.1 x.2.2 := by
  intro x hx
  obtain ⟨⟨f, v⟩, hfield, hx⟩ := List.mem_flatMap.mp hx
  obtain ⟨⟨slot, z⟩, hslot, rfl⟩ := List.mem_map.mp hx
  have hmem : (b.sec, slot.1, decimal slot.2) ∈ configSlots :=
    fieldSlots_subset_configSlots b
      (mem_fieldSlots (List.of_mem_zip hfield).1 (List.of_mem_zip hslot).1)
  exact (storable_configSlots _ hmem).decimal z

/-- Filling in defaults that are in `F` leads to entries in `F` only. -/
theorem Filled.within {F : Bytes → Bytes → Bytes → Prop} {slots : List Slot} {p p' : Profile}
    (h : Filled slots p p') (hslots : ∀ x ∈ slots, F x.1 x.2.1 x.2.2) (hp : p.data.Within F) :
    p'.data.Within F := by
  intro sec key value hvalue
  rcases h.get?_eq sec key with heq | ⟨-, -, text, hmem, hsome⟩
  · exact hp sec key value (heq ▸ hvalue)
  · obtain rfl := Option.some.inj (hsome.symm.trans hvalue)
    exact hslots _ hmem

/-- Filling in storable defaults keeps the data representable. -/
theorem Filled.representable {slots : List Slot} {p p' : Profile} (h : Filled slots p p')
    (hslots : ∀ x ∈ slots, Profile.Storable x.1 x.2.1 x.2.2)
    (hp : Profile.Representable p.data) : Profile.Representable p'.data :=
  h.within hslots hp

/-! ## Mirrored profiles -/

/-- The profile is what its file would be loaded as, with some defaults of `slots`
filled in. -/
def Mirrored (slots : List Slot) (files : Files) (p : Profile) : Prop :=
  ∃ q, Profile.construct p.filename files = .ok q ∧ Filled slots q p

namespace Mirrored

variable {slots : List Slot} {files files' : Files} {p p' : Profile}

/-- A profile just loaded is mirrored. -/
theorem of_construct {path : Bytes} (h : Profile.construct path files = .ok p) :
    Mirrored slots files p :=
  ⟨p, by rw [Profile.filename_of_construct h, h], Filled.refl slots p⟩

/-- Filling in defaults is not noticed. -/
theorem fill (h : Mirrored slots files p) (hfill : Filled slots p p') :
    Mirrored slots files p' := by
  obtain ⟨q, hload, hq⟩ := h
  exact ⟨q, by rw [hfill.filename_eq, hload], hq.trans hfill⟩

/-- The other files do not matter. -/
theorem of_file_eq (h : Mirrored slots files p) (heq : files' p.filename = files p.filename) :
    Mirrored slots files' p := by
  obtain ⟨q, hload, hq⟩ := h
  exact ⟨q, by rw [Profile.construct_congr heq, hload], hq⟩

theorem representable (h : Mirrored slots files p)
    (hslots : ∀ x ∈ slots, Profile.Storable x.1 x.2.1 x.2.2) : Profile.Representable p.data := by
  obtain ⟨q, hload, hq⟩ := h
  exact hq.representable hslots (Profile.representable_of_construct hload)

/-- A save mirrors representable data. -/
theorem saved {s : Store} (h : Profile.Representable s.profile.data) (path : Bytes) :
    Mirrored slots (Profile.saved path s).files (Profile.saved path s).profile :=
  of_construct (Profile.construct_saved_of_representable h path)

end Mirrored

/-! ## Runs -/

/-- Both profiles are mirrored in their files. -/
structure Persistent (general config : Bytes) (g c : Profile) (files : Files) : Prop where
  general_filename : g.filename = general
  config_filename : c.filename = config
  general_mirrored : Mirrored generalSlots files g
  config_mirrored : Mirrored configSlots files c

namespace Persistent

variable {general config : Bytes} {g c : Profile} {files : Files}

/-- Filling in and saving the general profile. -/
theorem saveGeneral (h : Persistent general config g c files) (hpaths : general ≠ config)
    {t : Store} (hfill : Filled generalSlots g t.profile) (hfiles : t.files = files) :
    Persistent general config (Profile.saved g.filename t).profile c
      (Profile.saved g.filename t).files where
  general_filename := h.general_filename
  config_filename := h.config_filename
  general_mirrored := Mirrored.saved
    (hfill.representable storable_generalSlots (h.general_mirrored.representable
      storable_generalSlots)) g.filename
  config_mirrored := h.config_mirrored.of_file_eq (by
    have hne : c.filename ≠ g.filename := by
      rw [h.config_filename, h.general_filename]
      exact hpaths.symm
    simp only [Profile.saved, Function.update_of_ne hne, hfiles])

/-- Committing a payload and saving the config profile. -/
theorem saveConfig (h : Persistent general config g c files) (hpaths : general ≠ config)
    (b : Block) (payload : Bytes) :
    Persistent general config g
      (Profile.saved c.filename ⟨committed c b payload, files⟩).profile
      (Profile.saved c.filename ⟨committed c b payload, files⟩).files where
  general_filename := h.general_filename
  config_filename := h.config_filename
  general_mirrored := h.general_mirrored.of_file_eq (by
    have hne : g.filename ≠ c.filename := by
      rw [h.config_filename, h.general_filename]
      exact hpaths
    simp only [Profile.saved, Function.update_of_ne hne])
  config_mirrored := Mirrored.saved
    (Profile.Representable.setAll (h.config_mirrored.representable storable_configSlots)
      (storable_entriesOf b payload)) c.filename

/-- Serving a request keeps both profiles mirrored, when every save opens its file. -/
theorem serves (hpaths : general ≠ config) {env : Environment}
    (hopens : ∀ path, env.opens path = true) {s s' : Session} {r : Request}
    (h : Persistent general config s.general s.config s.files) (hserves : Serves env s r s') :
    Persistent general config s'.general s'.config s'.files := by
  cases hserves with
  | generalOnDisk hserved hexists => exact h
  | generalSaved hserved hexists hopens' hfill hfiles => exact h.saveGeneral hpaths hfill hfiles
  | generalUnsaved hserved hexists hclosed hfill => simp [hopens] at hclosed
  | block hserved hfill =>
    exact ⟨h.general_filename, hfill.filename_eq.trans h.config_filename, h.general_mirrored,
      h.config_mirrored.fill hfill⟩
  | rejected hreject => exact h
  | accepted haccept hopens' => exact h.saveConfig hpaths _ _
  | unsaved haccept hclosed => simp [hopens] at hclosed

/-- So does any data event. -/
theorem handles (hpaths : general ≠ config) {env : Environment}
    (hopens : ∀ path, env.opens path = true) {s s' : Session} {verdict : Verdict}
    (h : Persistent general config s.general s.config s.files) (hhandles : Handles env s verdict s') :
    Persistent general config s'.general s'.config s'.files := by
  cases hhandles with
  | wait => exact h
  | corrupt => exact h
  | unsupported => exact h
  | request hserves => exact serves hpaths hopens (s := { s with buffer := [] }) h hserves

end Persistent

namespace Emulator

variable {Port : Type}

/-- Both profiles of the emulator are mirrored in their files. -/
def Mirrors (general config : Bytes) (em : Emulator Port) : Prop :=
  Persistent general config em.general em.config em.files

/-- The profiles are mirrored when they have just been loaded. -/
theorem mirrors_of_launch {general config : Bytes} {files : Files} {em : Emulator Port}
    (h : launch general config files = .ok em) : em.Mirrors general config := by
  unfold launch at h
  split at h
  · simp at h
  · simp at h
  · rename_i g c hgeneral hconfig
    rw [← Except.ok.inj h]
    exact ⟨Profile.filename_of_construct hgeneral, Profile.filename_of_construct hconfig,
      .of_construct hgeneral, .of_construct hconfig⟩

variable [DecidableEq Port]

/-- The profiles are mirrored in every reachable state, when every save opens its
file. -/
theorem mirrors_run {general config : Bytes} (hpaths : general ≠ config)
    {em em' : Emulator Port} {es : List (Event Port)} {os : List (Observation Port)}
    (h : em.Mirrors general config) (hopens : ∀ e ∈ es, ∀ path, e.env.opens path = true)
    (hrun : machine.run em es = some (em', os)) : em'.Mirrors general config := by
  refine Machine.run_invariant ?_ h (Machine.along_of_forall hopens) hrun
  intro em em' e o hem hopens hstep
  obtain ⟨s', hhandles, rfl, -⟩ := handles_of_step hstep
  have hsession : Persistent general config (em.arrived e).general (em.arrived e).config
      (em.arrived e).files := hem
  exact hsession.handles hpaths hopens hhandles

/-- What `build` sends for the general block when its save opens the file. -/
theorem value?_buildGeneral (s : Store) :
    (PacketBuilder.buildGeneral .working s).value? = servedGeneral s.profile := by
  rcases PacketBuilder.buildGeneral_run .working s with
    ⟨hnone, hrun⟩ | ⟨payload, p', hsome, -, hrun⟩
  · rw [hrun, hnone]
    rfl
  · rw [hrun, hsome]
    cases s.profile.exists_ <;> rfl

/-- **A restart is not noticed.**  In every state that a run can reach from the start,
with any number of ports and saves that open their files, both files load, fresh
profiles serve what the profiles in memory serve, and a config profile that exists
on disk is loaded as it is. -/
theorem restart_transparent {general config : Bytes} (hpaths : general ≠ config) {files : Files}
    {em em' : Emulator Port} {es : List (Event Port)} {os : List (Observation Port)}
    (hlaunch : launch general config files = .ok em)
    (hopens : ∀ e ∈ es, ∀ path, e.env.opens path = true)
    (hrun : machine.run em es = some (em', os)) :
    ∃ g c, Profile.construct general em'.files = .ok g ∧
      Profile.construct config em'.files = .ok c ∧
      (PacketBuilder.buildGeneral .working ⟨g, em'.files⟩).value? =
        (PacketBuilder.buildGeneral .working ⟨em'.general, em'.files⟩).value? ∧
      (∀ b, (PacketBuilder.build b c).value? = (PacketBuilder.build b em'.config).value?) ∧
      (em'.config.exists_ = true → c.compare em'.config = true) := by
  have hmirrors := mirrors_run hpaths (mirrors_of_launch hlaunch) hopens hrun
  obtain ⟨g, hgeneral, hfillGeneral⟩ := hmirrors.general_mirrored
  obtain ⟨c, hconfig, hfillConfig⟩ := hmirrors.config_mirrored
  rw [hmirrors.general_filename] at hgeneral
  rw [hmirrors.config_filename] at hconfig
  refine ⟨g, c, hgeneral, hconfig, ?_, fun b => ?_, fun hexists => ?_⟩
  · rw [value?_buildGeneral, value?_buildGeneral]
    exact hfillGeneral.servedGeneral_eq.symm
  · rw [PacketBuilder.value?_build, PacketBuilder.value?_build]
    exact (hfillConfig.served_eq b).symm
  · rw [hfillConfig.exists_eq] at hexists
    rw [Profile.compare_iff, hfillConfig.eq_of_exists hexists]

/-- A restart after a throttle write into files that did not exist. -/
theorem restart_transparent_bare :
    ∃ (em : Emulator Unit) (g c : Profile) (os : List (Observation Unit)),
      machine.run bare [arrival () ValidRequest.sampleWrite.wire] = some (em, os) ∧
      Profile.construct (bytes "general.el") em.files = .ok g ∧
      Profile.construct (bytes "config.el") em.files = .ok c ∧
      (PacketBuilder.buildGeneral .working ⟨g, em.files⟩).value? =
        (PacketBuilder.buildGeneral .working ⟨em.general, em.files⟩).value? ∧
      (∀ b, (PacketBuilder.build b c).value? = (PacketBuilder.build b em.config).value?) ∧
      (em.config.exists_ = true → c.compare em.config = true) := by
  have hdefined : (machine.run (bare : Emulator Unit)
      [arrival () ValidRequest.sampleWrite.wire]).isSome = true := by decide +kernel
  obtain ⟨em, os, hrun⟩ := Machine.exists_run_of_isSome hdefined
  have hlaunch : launch (bytes "general.el") (bytes "config.el") (fun _ => none) =
      .ok (bare : Emulator Unit) := rfl
  obtain ⟨g, c, h⟩ := restart_transparent (by decide) hlaunch (by simp [arrival, Environment.working])
    hrun
  exact ⟨em, g, c, os, hrun, h⟩

end Emulator

end BafangEmulator
