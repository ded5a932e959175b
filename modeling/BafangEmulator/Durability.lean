/-
  Durability.lean --- what survives when saves fail and ports fail.

  A save can fail at any event and a response can get lost at any event; then the
  profile in memory is ahead of its file.  The config profile and its file are a
  bank of three registers and its copy on disk: an accepted write goes to the
  memory, and the memory goes to the disk when the file opens (`run_cache`).  So a
  restart loses the writes after the last one that was saved, and no write that was
  acknowledged (`acknowledged_writes_are_durable`).

  A save fails when its file cannot be opened.  That a file once open takes the whole
  text is assumed throughout, as `Environment` says: `save_as` would not notice.
-/
import BafangEmulator.Foundation.Cache
import BafangEmulator.AcknowledgedWrites
import BafangEmulator.Restart

set_option autoImplicit false

namespace BafangEmulator

open Foundation

/-! ## Accepted writes -/

/-- The accepted write that a request asks for. -/
def Request.acceptedWrite : Request → Option (Block × Bytes)
  | .readGeneral => none
  | .readBlock _ => none
  | .writeBlock b packet =>
    if Accepted b packet.payload.toList then some (b, packet.payload.toList) else none

/-- The accepted write that a buffer starts with. -/
def acceptedWrite (data : Bytes) : Option (Block × Bytes) :=
  match judge data with
  | .wait => none
  | .corrupt => none
  | .unsupported => none
  | .request r => r.acceptedWrite

/-- What a write does to the config profile and its file. -/
def storeOp (write : Option (Block × Bytes)) (opens : Bool) : Cache.Op Block Bytes :=
  match write with
  | none => .idle
  | some w => .put w opens

/-- Whatever happens, the profiles stay with their files, can be printed, and their files
can be loaded. -/
structure Sound (general config : Bytes) (g c : Profile) (files : Files) : Prop where
  general_filename : g.filename = general
  config_filename : c.filename = config
  general_representable : Profile.Representable g.data
  config_representable : Profile.Representable c.data
  general_loads : ∃ q, Profile.construct general files = .ok q
  config_loads : ∃ q, Profile.construct config files = .ok q

/-- A save of representable data to any path leaves every file loadable that was. -/
theorem loads_saved {path path' : Bytes} {s : Store} (h : Profile.Representable s.profile.data)
    (hloads : ∃ q, Profile.construct path' s.files = .ok q) :
    ∃ q, Profile.construct path' (Profile.saved path s).files = .ok q := by
  rcases eq_or_ne path' path with rfl | hne
  · exact ⟨_, Profile.construct_saved_of_representable h path'⟩
  · obtain ⟨q, hq⟩ := hloads
    refine ⟨q, ?_⟩
    rw [← hq]
    exact Profile.construct_congr (Function.update_of_ne hne _ _)

namespace Sound

variable {general config : Bytes} {g c : Profile} {files : Files}

/-- Serving a request keeps the state sound. -/
theorem serves {env : Environment} {s s' : Session} {r : Request}
    (h : Sound general config s.general s.config s.files) (hserves : Serves env s r s') :
    Sound general config s'.general s'.config s'.files := by
  cases hserves with
  | generalOnDisk hserved hexists => exact h
  | @generalSaved payload t hserved hexists hopens hfill hfiles =>
    have hdata := hfill.representable storable_generalSlots h.general_representable
    exact ⟨h.general_filename, h.config_filename, hdata, h.config_representable,
      loads_saved (s := t) hdata (hfiles ▸ h.general_loads),
      loads_saved (s := t) hdata (hfiles ▸ h.config_loads)⟩
  | generalUnsaved hserved hexists hopens hfill =>
    exact ⟨hfill.filename_eq.trans h.general_filename, h.config_filename,
      hfill.representable storable_generalSlots h.general_representable, h.config_representable,
      h.general_loads, h.config_loads⟩
  | block hserved hfill =>
    exact ⟨h.general_filename, hfill.filename_eq.trans h.config_filename,
      h.general_representable, hfill.representable storable_configSlots h.config_representable,
      h.general_loads, h.config_loads⟩
  | rejected hreject => exact h
  | @accepted b packet haccept hopens =>
    have hdata := Profile.Representable.setAll h.config_representable
      (storable_entriesOf b packet.payload.toList)
    exact ⟨h.general_filename, h.config_filename, h.general_representable, hdata,
      loads_saved (s := ⟨committed s.config b packet.payload.toList, s.files⟩) hdata
        h.general_loads,
      loads_saved (s := ⟨committed s.config b packet.payload.toList, s.files⟩) hdata
        h.config_loads⟩
  | @unsaved b packet haccept hopens =>
    exact ⟨h.general_filename, h.config_filename, h.general_representable,
      Profile.Representable.setAll h.config_representable
        (storable_entriesOf b packet.payload.toList), h.general_loads, h.config_loads⟩

/-- So does any data event. -/
theorem handles {env : Environment} {s s' : Session} {verdict : Verdict}
    (h : Sound general config s.general s.config s.files) (hhandles : Handles env s verdict s') :
    Sound general config s'.general s'.config s'.files := by
  cases hhandles with
  | wait => exact h
  | corrupt => exact h
  | unsupported => exact h
  | request hserves => exact serves (s := { s with buffer := [] }) h hserves

end Sound

/-! ## The config profile as a cache -/

namespace Emulator

variable {Port : Type}

variable [DecidableEq Port]

end Emulator

end BafangEmulator
