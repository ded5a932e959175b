/-
  Serial.lean --- serial.cpp: serial ports and the handles of the system.

  A `serial` object holds a handle while it is connected.  Any number of objects share
  the system, and any of their member functions is called at any time, with whatever
  answers the system may give.  A callback is the last thing its member function does, so
  what it calls in turn are the calls that come next.  But the callback for a lost
  connection may also run inside the destructor, where no call can come next; it is
  assumed to make none there, as the one of `serial_handler` does.

  With a handle that is not open there is nothing to do but to fail, so closing one twice
  or reading from one that is closed is undefined here.  It never happens, and no handle is
  left behind (`handles_are_held`).

  The objects of the source that have been moved from are left out: no object is moved.
-/
import BafangEmulator.Foundation.Bytes
import BafangEmulator.Foundation.Effect
import BafangEmulator.Foundation.Machine

set_option autoImplicit false

namespace BafangEmulator

open Foundation

/-- `HANDLE`, other than `INVALID_HANDLE_VALUE`. -/
abbrev Handle : Type := Nat

/-- The open handles, and what they were opened for. -/
structure Os where
  opened : List (Handle × Bytes)
  deriving DecidableEq

namespace Os

def handles (os : Os) : List Handle := os.opened.map Prod.fst

def paths (os : Os) : List Bytes := os.opened.map Prod.snd

/-- The others are left when a handle is closed. -/
def close (h : Handle) (os : Os) : Os := ⟨os.opened.filter fun x => x.1 ≠ h⟩

/-- The system once the handle of an object, if it has one, is closed. -/
def without (handle : Option Handle) (os : Os) : Os :=
  match handle with
  | none => os
  | some h => os.close h

/-- The system once a path has been opened, if it could be. -/
def opening (created : Option Handle) (path : Bytes) (os : Os) : Os :=
  match created with
  | none => os
  | some h => ⟨(h, path) :: os.opened⟩

end Os

/-- `serial::impl`.  What is bound to an event is a `κ`, and the handle is `none` when it is
`INVALID_HANDLE_VALUE`. -/
structure Serial (κ : Type) where
  handle : Option Handle
  connected : Option κ
  disconnected : Option κ
  dataAvailable : Option κ
  buffer : Bytes
  port : Bytes

namespace Serial

variable {κ : Type}

/-- `serial::events`. -/
inductive Events where
  | connected
  | disconnected
  | dataAvailable

/-- What the member functions throw. -/
inductive Fault where
  /-- `std::system_error`. -/
  | systemError (what : Bytes)
  /-- `std::out_of_range`. -/
  | outOfRange
  deriving DecidableEq

/-- An object at a call, with the callbacks run and the data sent in it. -/
structure Device (κ : Type) where
  serial : Serial κ
  os : Os
  invoked : List κ
  sent : List Bytes

/-! ## The system -/

/-- `CloseHandle`. -/
def closeHandle (h : Handle) : Exec Fault (Device κ) Unit := fun d =>
  if h ∈ d.os.handles then .returned () { d with os := d.os.close h } else .undefined

/-- A call of the system on the handle of the object, and its answer.  It fails on
`INVALID_HANDLE_VALUE`. -/
def onHandle {α : Type} (answer : Option α) : Exec Fault (Device κ) (Option α) := fun d =>
  match d.serial.handle with
  | none => .returned none d
  | some h => if h ∈ d.os.handles then .returned answer d else .undefined

/-- A callback. -/
def invoke (func : Option κ) : Exec Fault (Device κ) Unit :=
  Exec.modify fun d => { d with invoked := d.invoked ++ func.toList }

/-! ## serial::impl -/

/-- The object as its constructor leaves it. -/
def initial : Serial κ where
  handle := none
  connected := none
  disconnected := none
  dataAvailable := none
  buffer := []
  port := []

/-- `event`. -/
def event (ev : Events) (func : κ) : Exec Fault (Device κ) Unit :=
  match ev with
  | .connected => Exec.modify fun d => { d with serial.connected := some func }
  | .disconnected => Exec.modify fun d => { d with serial.disconnected := some func }
  | .dataAvailable => Exec.modify fun d => { d with serial.dataAvailable := some func }

/-- `connect`. -/
def connect (port : Bytes) (created : Option Handle) : Exec Fault (Device κ) Unit := do
  let d ← Exec.get
  match d.serial.handle with
  | some h => closeHandle h
  | none => pure ()
  Exec.modify fun d => { d with
    serial.port := port
    serial.handle := created
    os := d.os.opening created port }
  match created with
  | none => Exec.throw (.systemError (bytes "open port failure"))
  | some _ => invoke d.serial.connected

/-- `disconnect`. -/
def disconnect : Exec Fault (Device κ) Unit := do
  let d ← Exec.get
  match d.serial.handle with
  | some h =>
    Exec.modify fun d => { d with serial.handle := none }
    closeHandle h
    invoke d.serial.disconnected
  | none => pure ()

/-- The size of the array that `poll` has `ReadFile` fill. -/
def readSize : Nat := 8092

/-- `poll`; `read` is what `ReadFile` gives, which is `readSize` bytes at most. -/
def poll (read : Option Bytes) : Exec Fault (Device κ) Unit := do
  let d ← Exec.get
  match d.serial.handle with
  | some _ =>
    match ← onHandle read with
    | some chunk =>
      Exec.modify fun d => { d with serial.buffer := d.serial.buffer ++ chunk }
      invoke d.serial.dataAvailable
    | none => pure ()
  | none => pure ()

/-- `param`: whether the system could read the settings and set them and the timeouts. -/
def param (built set timed : Bool) : Exec Fault (Device κ) Unit := do
  if !built then Exec.throw (.systemError (bytes "set param failure from string"))
  match ← onHandle (if set then some () else none) with
  | none => Exec.throw (.systemError (bytes "set param failure"))
  | some _ => pure ()
  match ← onHandle (if timed then some () else none) with
  | none => Exec.throw (.systemError (bytes "set comms timeout failure"))
  | some _ => pure ()

/-- `flush`. -/
def flush (size : Nat) : Exec Fault (Device κ) Unit :=
  Exec.modify fun d => { d with serial.buffer := d.serial.buffer.drop size }

/-- `read`.  The second `substr` throws when there is less to read. -/
def read (size : Nat) : Exec Fault (Device κ) Bytes := do
  let d ← Exec.get
  if d.serial.buffer.length < size then Exec.throw .outOfRange
  Exec.modify fun d => { d with serial.buffer := d.serial.buffer.drop size }
  pure (d.serial.buffer.take size)

/-- `flush_all`. -/
def flushAll : Exec Fault (Device κ) Unit :=
  Exec.modify fun d => { d with serial.buffer := [] }

/-- `read_all`. -/
def readAll : Exec Fault (Device κ) Bytes := do
  let d ← Exec.get
  flushAll
  pure d.serial.buffer

/-- `write`; `written` is whether `WriteFile` succeeds. -/
def write (data : Bytes) (written : Bool) : Exec Fault (Device κ) Unit := do
  match ← onHandle (if written then some () else none) with
  | none => Exec.throw (.systemError (bytes "comms write failure"))
  | some _ => Exec.modify fun d => { d with sent := d.sent ++ [data] }

/-- A call of a member function, with the answers of the system. -/
inductive Call (κ : Type) where
  | event (ev : Events) (func : κ)
  | connect (port : Bytes) (created : Option Handle)
  | disconnect
  | poll (read : Option Bytes)
  | param (built set timed : Bool)
  | flush (size : Nat)
  | read (size : Nat)
  | flushAll
  | readAll
  | write (data : Bytes) (written : Bool)

/-- The member function called.  A function without a result returns nothing. -/
def perform : Call κ → Exec Fault (Device κ) Bytes
  | .event ev func => do event ev func; pure []
  | .connect port created => do connect port created; pure []
  | .disconnect => do disconnect; pure []
  | .poll chunk => do poll chunk; pure []
  | .param built set timed => do param built set timed; pure []
  | .flush size => do flush size; pure []
  | .read size => read size
  | .flushAll => do flushAll; pure []
  | .readAll => readAll
  | .write data written => do write data written; pure []

/-! ## The handles of the others -/

/-- What the object has opened. -/
def own (s : Serial κ) : List (Handle × Bytes) := (s.handle.map fun h => (h, s.port)).toList

/-- The system has open what the object has opened and the `rest`, and all of it once. -/
structure Frame (rest : List (Handle × Bytes)) (d : Device κ) : Prop where
  perm : d.os.opened.Perm (own d.serial ++ rest)
  handles_nodup : d.os.handles.Nodup
  paths_nodup : d.os.paths.Nodup

/-- The handle asked for in a call, and the path. -/
def Call.created? : Call κ → Option (Handle × Bytes)
  | .connect port created => created.map fun h => (h, port)
  | _ => none

/-- The answers of the system are those it gives: no handle that is open, and none for a path
that is open, which is not shared. -/
def Possible (d : Device κ) (c : Call κ) : Prop :=
  ∀ x ∈ c.created?, x.1 ∉ (d.os.without d.serial.handle).handles ∧
    x.2 ∉ (d.os.without d.serial.handle).paths

instance (d : Device κ) (c : Call κ) : Decidable (Possible d c) :=
  inferInstanceAs (Decidable (∀ x ∈ c.created?, _))

namespace Frame

variable {rest : List (Handle × Bytes)} {d d' : Device κ}

/-- Only the handle and the path of the object and the system matter. -/
theorem congr (h : Frame rest d) (hhandle : d'.serial.handle = d.serial.handle)
    (hport : d'.serial.port = d.serial.port) (hos : d'.os = d.os) : Frame rest d' where
  perm := by
    rw [hos, own, hhandle, hport]
    exact h.perm
  handles_nodup := by rw [hos]; exact h.handles_nodup
  paths_nodup := by rw [hos]; exact h.paths_nodup

/-- The handle of the object is open. -/
theorem mem_handles (h : Frame rest d) {handle : Handle} (hhandle : d.serial.handle = some handle) :
    handle ∈ d.os.handles := by
  have hmem : (handle, d.serial.port) ∈ d.os.opened := by
    rw [h.perm.mem_iff, own, hhandle]
    simp
  exact List.mem_map_of_mem hmem

theorem handle_notMem_rest (h : Frame rest d) {handle : Handle}
    (hhandle : d.serial.handle = some handle) : ∀ x ∈ rest, x.1 ≠ handle := by
  have hnodup := (h.perm.map Prod.fst).nodup_iff.mp h.handles_nodup
  rw [own, hhandle] at hnodup
  simp only [Option.map_some, Option.toList_some, List.cons_append, List.nil_append, List.map_cons,
    List.nodup_cons, List.mem_map, not_exists, not_and] at hnodup
  exact hnodup.1

/-- The rest is what is left without the handle of the object. -/
theorem without_perm (h : Frame rest d) : (d.os.without d.serial.handle).opened.Perm rest := by
  cases hhandle : d.serial.handle with
  | none =>
    have hperm := h.perm
    rw [own, hhandle] at hperm
    exact hperm
  | some handle =>
    have hperm := h.perm.filter fun x => x.1 ≠ handle
    have hrest : rest.filter (fun x => x.1 ≠ handle) = rest := by
      rw [List.filter_eq_self]
      intro x hx
      simpa using h.handle_notMem_rest hhandle x hx
    rw [List.filter_append, hrest, own, hhandle] at hperm
    simpa [Os.without, Os.close] using hperm

theorem without_nodup (h : Frame rest d) :
    (d.os.without d.serial.handle).handles.Nodup ∧ (d.os.without d.serial.handle).paths.Nodup := by
  cases d.serial.handle with
  | none => exact ⟨h.handles_nodup, h.paths_nodup⟩
  | some handle =>
    exact ⟨h.handles_nodup.sublist (List.filter_sublist.map Prod.fst),
      h.paths_nodup.sublist (List.filter_sublist.map Prod.snd)⟩

/-- **The rest stays** when the object closes its handle and opens another one, if it
can. -/
theorem replace (h : Frame rest d)
    (hos : d'.os = (d.os.without d.serial.handle).opening d'.serial.handle d'.serial.port)
    (hfresh : ∀ handle, d'.serial.handle = some handle →
      handle ∉ (d.os.without d.serial.handle).handles ∧
        d'.serial.port ∉ (d.os.without d.serial.handle).paths) : Frame rest d' := by
  cases hhandle : d'.serial.handle with
  | none =>
    rw [hhandle] at hos
    refine ⟨?_, ?_, ?_⟩
    · rw [hos, own, hhandle]
      exact h.without_perm
    · rw [hos]
      exact h.without_nodup.1
    · rw [hos]
      exact h.without_nodup.2
  | some handle =>
    rw [hhandle] at hos
    obtain ⟨hhandles, hpaths⟩ := hfresh handle hhandle
    refine ⟨?_, ?_, ?_⟩
    · rw [hos, own, hhandle]
      exact h.without_perm.cons _
    · rw [hos]
      exact List.nodup_cons.mpr ⟨hhandles, h.without_nodup.1⟩
    · rw [hos]
      exact List.nodup_cons.mpr ⟨hpaths, h.without_nodup.2⟩

end Frame

/-! ## One call -/

section Calls

variable {rest : List (Handle × Bytes)} {d : Device κ}

theorem closeHandle_run (h : Frame rest d) {handle : Handle}
    (hhandle : d.serial.handle = some handle) :
    closeHandle handle d = .returned () { d with os := d.os.close handle } := by
  rw [closeHandle, if_pos (h.mem_handles hhandle)]

/-- The handle of an object can be used. -/
theorem onHandle_run {α : Type} (h : Frame rest d) (answer : Option α) :
    onHandle answer d = .returned (d.serial.handle.bind fun _ => answer) d := by
  rw [onHandle]
  cases hhandle : d.serial.handle with
  | none => rfl
  | some handle => simp only [if_pos (h.mem_handles hhandle), Option.bind_some]

/-- The object with a port that was opened, or could not be. -/
def Device.opening (d : Device κ) (port : Bytes) (created : Option Handle) : Device κ :=
  { d with
    serial.port := port
    serial.handle := created
    os := (d.os.without d.serial.handle).opening created port }

theorem connect_run (h : Frame rest d) (port : Bytes) (created : Option Handle) :
    connect port created d =
      match created with
      | none => .threw (.systemError (bytes "open port failure")) (d.opening port created)
      | some _ => .returned () { d.opening port created with
          invoked := d.invoked ++ d.serial.connected.toList } := by
  rw [connect, Exec.bind_of_returned (Exec.get_run d)]
  cases hhandle : d.serial.handle with
  | none =>
    have hopening : d.opening port created =
        { d with
          serial.port := port
          serial.handle := created
          os := d.os.opening created port } := by
      rw [Device.opening, hhandle]
      rfl
    cases created <;> rw [hopening] <;> rfl
  | some handle =>
    have hopening : d.opening port created =
        { d with
          serial.port := port
          serial.handle := created
          os := (d.os.close handle).opening created port } := by
      rw [Device.opening, hhandle]
      rfl
    simp only
    rw [Exec.bind_of_returned (closeHandle_run h hhandle)]
    cases created <;> rw [hopening] <;> rfl

/-- The object without a connection. -/
def Device.closed (d : Device κ) : Device κ :=
  match d.serial.handle with
  | none => d
  | some h => { d with
      serial.handle := none
      os := d.os.close h
      invoked := d.invoked ++ d.serial.disconnected.toList }

theorem disconnect_run (h : Frame rest d) : disconnect d = .returned () d.closed := by
  rw [disconnect, Exec.bind_of_returned (Exec.get_run d), Device.closed]
  cases hhandle : d.serial.handle with
  | none => rfl
  | some handle =>
    have hclose : closeHandle handle { d with serial.handle := none } =
        .returned () { d with serial.handle := none, os := d.os.close handle } := by
      rw [closeHandle, if_pos (h.mem_handles hhandle)]
    simp only
    rw [Exec.bind_of_returned (Exec.modify_run _ d), Exec.bind_of_returned hclose]
    rfl

theorem poll_run (h : Frame rest d) (chunk : Option Bytes) :
    poll chunk d =
      match d.serial.handle.bind fun _ => chunk with
      | some chunk => .returned () { d with
          serial.buffer := d.serial.buffer ++ chunk
          invoked := d.invoked ++ d.serial.dataAvailable.toList }
      | none => .returned () d := by
  rw [poll, Exec.bind_of_returned (Exec.get_run d)]
  cases hhandle : d.serial.handle with
  | none => rfl
  | some handle =>
    have hread : onHandle chunk d = .returned chunk d := by
      rw [onHandle_run h, hhandle, Option.bind_some]
    simp only [Option.bind_some]
    rw [Exec.bind_of_returned hread]
    cases chunk <;> rfl

/-- `param` does nothing to the object, whether it throws or not. -/
theorem param_cases (h : Frame rest d) (built set timed : Bool) :
    param built set timed d = .returned () d ∨ ∃ f, param built set timed d = .threw f d := by
  cases built with
  | false => exact Or.inr ⟨_, rfl⟩
  | true =>
    have hbuilt : param true set timed d =
        (do
          match ← onHandle (if set then some () else none) with
          | none => Exec.throw (.systemError (bytes "set param failure"))
          | some _ => pure ()
          match ← onHandle (if timed then some () else none) with
          | none => Exec.throw (.systemError (bytes "set comms timeout failure"))
          | some _ => pure () : Exec Fault (Device κ) Unit) d := rfl
    rw [hbuilt, Exec.bind_of_returned (onHandle_run h _)]
    cases (d.serial.handle.bind fun _ => if set then some () else none) with
    | none => exact Or.inr ⟨_, rfl⟩
    | some _ =>
      simp only
      rw [Exec.bind_of_returned (onHandle_run h _)]
      cases (d.serial.handle.bind fun _ => if timed then some () else none) with
      | none => exact Or.inr ⟨_, rfl⟩
      | some _ => exact Or.inl rfl

/-- `param` returns when the system does everything. -/
theorem param_returned (h : Frame rest d) (hhandle : d.serial.handle ≠ none) :
    param true true true d = .returned () d := by
  obtain ⟨handle, hhandle⟩ := Option.ne_none_iff_exists'.mp hhandle
  have hdone : onHandle (some ()) d = .returned (some ()) d := by
    rw [onHandle_run h, hhandle, Option.bind_some]
  have hbuilt : param true true true d =
      (do
        match ← onHandle (some ()) with
        | none => Exec.throw (.systemError (bytes "set param failure"))
        | some _ => pure ()
        match ← onHandle (some ()) with
        | none => Exec.throw (.systemError (bytes "set comms timeout failure"))
        | some _ => pure () : Exec Fault (Device κ) Unit) d := rfl
  rw [hbuilt, Exec.bind_of_returned hdone]
  simp only
  rw [Exec.bind_of_returned hdone]
  rfl

theorem write_run (h : Frame rest d) (data : Bytes) (written : Bool) :
    write data written d =
      match d.serial.handle.bind fun _ => if written then some () else none with
      | none => .threw (.systemError (bytes "comms write failure")) d
      | some _ => .returned () { d with sent := d.sent ++ [data] } := by
  rw [write, Exec.bind_of_returned (onHandle_run h _)]
  cases (d.serial.handle.bind fun _ => if written then some () else none) <;> rfl

/-! ### The frame -/

theorem frame_opening (h : Frame rest d) {port : Bytes} {created : Option Handle}
    (hpossible : Possible d (.connect port created)) : Frame rest (d.opening port created) := by
  refine h.replace rfl ?_
  rintro handle hhandle
  obtain rfl : created = some handle := hhandle
  exact hpossible (handle, port) rfl

theorem frame_closed (h : Frame rest d) : Frame rest d.closed := by
  rw [Device.closed]
  cases hhandle : d.serial.handle with
  | none => exact h
  | some handle =>
    refine h.replace ?_ ?_
    · rw [hhandle]
      rfl
    · rintro handle' hhandle'
      simp at hhandle'

/-- Nothing is done after a function without a result. -/
theorem state?_void (m : Exec Fault (Device κ) Unit) :
    ((do m; pure [] : Exec Fault (Device κ) Bytes) d).state? = (m d).state? := by
  rw [Exec.bind_run]
  cases m d <;> rfl

/-- **What the others have opened stays** at a call, and the call is defined. -/
theorem perform_frame (h : Frame rest d) (c : Call κ) (hpossible : Possible d c) :
    ∃ d', (perform c d).state? = some d' ∧ Frame rest d' := by
  cases c with
  | event ev func => cases ev <;> exact ⟨_, rfl, h.congr rfl rfl rfl⟩
  | connect port created =>
    have hframe := frame_opening h hpossible
    rw [perform, state?_void, connect_run h]
    cases created with
    | none => exact ⟨_, rfl, hframe⟩
    | some handle => exact ⟨_, rfl, hframe.congr rfl rfl rfl⟩
  | disconnect =>
    rw [perform, state?_void, disconnect_run h]
    exact ⟨_, rfl, frame_closed h⟩
  | poll chunk =>
    rw [perform, state?_void, poll_run h]
    cases (d.serial.handle.bind fun _ => chunk) with
    | none => exact ⟨_, rfl, h⟩
    | some chunk => exact ⟨_, rfl, h.congr rfl rfl rfl⟩
  | param built set timed =>
    rw [perform, state?_void]
    rcases param_cases h built set timed with hrun | ⟨f, hrun⟩
    · exact ⟨d, by rw [hrun]; rfl, h⟩
    · exact ⟨d, by rw [hrun]; rfl, h⟩
  | flush size => exact ⟨_, rfl, h.congr rfl rfl rfl⟩
  | read size =>
    rw [perform, read, Exec.bind_of_returned (Exec.get_run d)]
    by_cases hsize : d.serial.buffer.length < size
    · rw [if_pos hsize]
      exact ⟨_, rfl, h⟩
    · rw [if_neg hsize]
      exact ⟨_, rfl, h.congr rfl rfl rfl⟩
  | flushAll => exact ⟨_, rfl, h.congr rfl rfl rfl⟩
  | readAll => exact ⟨_, rfl, h.congr rfl rfl rfl⟩
  | write data written =>
    rw [perform, state?_void, write_run h]
    cases (d.serial.handle.bind fun _ => if written then some () else none) with
    | none => exact ⟨_, rfl, h⟩
    | some _ => exact ⟨_, rfl, h.congr rfl rfl rfl⟩

end Calls

/-! ## Any number of objects -/

/-- The objects there are, and the system. -/
structure World (ι κ : Type) where
  objects : ι → Option (Serial κ)
  os : Os

/-- What happens to an object. -/
inductive Action (ι κ : Type) where
  | construct (i : ι)
  | call (i : ι) (c : Call κ)
  | destroy (i : ι)

namespace World

variable {ι : Type}

/-- No object, and nothing open. -/
def empty : World ι κ where
  objects _ := none
  os := ⟨[]⟩

/-- An object at the start of a call. -/
def device (w : World ι κ) (s : Serial κ) : Device κ where
  serial := s
  os := w.os
  invoked := []
  sent := []

/-- What an object has opened, if there is one. -/
def owned : Option (Serial κ) → List (Handle × Bytes)
  | none => []
  | some s => own s

/-- Everything open is held by one object, and every handle held is open. -/
structure Held (w : World ι κ) : Prop where
  handles_nodup : w.os.handles.Nodup
  paths_nodup : w.os.paths.Nodup
  mem_iff : ∀ x, x ∈ w.os.opened ↔ ∃ i, x ∈ owned (w.objects i)
  unique : ∀ {i j : ι} {x y : Handle × Bytes}, x ∈ owned (w.objects i) →
    y ∈ owned (w.objects j) → x.1 = y.1 → i = j

variable [DecidableEq ι]

/-- The world after an object has changed. -/
def put (w : World ι κ) (i : ι) (object : Option (Serial κ)) (os : Os) : World ι κ where
  objects := Function.update w.objects i object
  os := os

/-- The objects as a machine, which shows the callbacks run and the data sent. -/
def machine : Machine (World ι κ) (Action ι κ) (List κ × List Bytes) where
  step w
    | .construct i =>
      match w.objects i with
      | none => some (w.put i (some initial) w.os, [], [])
      | some _ => none
    | .call i c =>
      match w.objects i with
      | none => none
      | some s =>
        if Possible (w.device s) c then
          (perform c (w.device s)).state?.map fun d =>
            (w.put i (some d.serial) d.os, d.invoked, d.sent)
        else none
    | .destroy i =>
      match w.objects i with
      | none => none
      | some s =>
        (disconnect (w.device s)).state?.map fun d => (w.put i none d.os, d.invoked, d.sent)

/-! ### What is held -/

section Held

variable {w : World ι κ} {i : ι} {rest : List (Handle × Bytes)}

omit [DecidableEq ι] in
theorem owned_nodup (object : Option (Serial κ)) : (owned object).Nodup := by
  cases object with
  | none => exact List.nodup_nil
  | some s => cases h : s.handle <;> simp [owned, own, h]

omit [DecidableEq ι] in
theorem mem_owned_iff {object : Option (Serial κ)} {x : Handle × Bytes} :
    x ∈ owned object ↔ ∃ s, object = some s ∧ s.handle = some x.1 ∧ s.port = x.2 := by
  cases object with
  | none => simp [owned]
  | some s =>
    cases h : s.handle <;> simp [owned, own, h, Prod.ext_iff, eq_comm]

omit [DecidableEq ι] in
theorem held_empty : Held (empty : World ι κ) where
  handles_nodup := List.nodup_nil
  paths_nodup := List.nodup_nil
  mem_iff x := by simp [empty, owned]
  unique := by
    intro i j x y hx
    simp [empty, owned] at hx

omit [DecidableEq ι] in
/-- What an object holds, and the rest. -/
theorem Held.exists_rest (h : Held w) (i : ι) :
    ∃ rest, w.os.opened.Perm (owned (w.objects i) ++ rest) := by
  have hnodup : w.os.opened.Nodup := h.handles_nodup.of_map _
  have hown : (w.os.opened.filter (· ∈ owned (w.objects i))).Perm (owned (w.objects i)) := by
    rw [List.perm_ext_iff_of_nodup (hnodup.filter _) (owned_nodup _)]
    intro x
    rw [List.mem_filter, decide_eq_true_eq, and_iff_right_iff_imp]
    exact fun hx => (h.mem_iff x).mpr ⟨i, hx⟩
  exact ⟨_, (List.filter_append_perm _ _).symm.trans (hown.append_right _)⟩

omit [DecidableEq ι] in
theorem Held.frame (h : Held w) {s : Serial κ} (hs : w.objects i = some s)
    (hrest : w.os.opened.Perm (owned (w.objects i) ++ rest)) : Frame rest (w.device s) where
  perm := by
    rw [hs] at hrest
    exact hrest
  handles_nodup := h.handles_nodup
  paths_nodup := h.paths_nodup

omit [DecidableEq ι] in
/-- The rest is what the other objects hold. -/
theorem Held.mem_rest_iff (h : Held w) (hrest : w.os.opened.Perm (owned (w.objects i) ++ rest))
    (x : Handle × Bytes) : x ∈ rest ↔ ∃ j, j ≠ i ∧ x ∈ owned (w.objects j) := by
  constructor
  · intro hx
    obtain ⟨j, hj⟩ := (h.mem_iff x).mp (hrest.mem_iff.mpr (List.mem_append_right _ hx))
    refine ⟨j, ?_, hj⟩
    rintro rfl
    have hnodup := hrest.nodup_iff.mp (h.handles_nodup.of_map _)
    exact (List.nodup_append.mp hnodup).2.2 x hj x hx rfl
  · rintro ⟨j, hne, hj⟩
    rcases List.mem_append.mp (hrest.mem_iff.mp ((h.mem_iff x).mpr ⟨j, hj⟩)) with hi | hx
    · exact absurd (h.unique hj hi rfl) hne
    · exact hx

/-- **An object changes what it holds**, and the rest stays. -/
theorem Held.put (h : Held w) (hrest : w.os.opened.Perm (owned (w.objects i) ++ rest))
    {object : Option (Serial κ)} {os : Os} (hopened : os.opened.Perm (owned object ++ rest))
    (hhandles : os.handles.Nodup) (hpaths : os.paths.Nodup) : Held (w.put i object os) := by
  have hother : ∀ {j : ι}, j ≠ i → (w.put i object os).objects j = w.objects j :=
    fun hne => Function.update_of_ne hne _ _
  have hself : (w.put i object os).objects i = object := Function.update_self _ _ _
  -- What the changed object holds is not among the rest.
  have hapart : ∀ {x y : Handle × Bytes}, x ∈ owned object → y ∈ rest → x.1 ≠ y.1 := by
    intro x y hx hy heq
    have hnodup := (hopened.map Prod.fst).nodup_iff.mp hhandles
    rw [List.map_append] at hnodup
    exact (List.nodup_append.mp hnodup).2.2 x.1 (List.mem_map_of_mem hx) y.1
      (List.mem_map_of_mem hy) heq
  refine ⟨hhandles, hpaths, fun x => ?_, ?_⟩
  · rw [show (w.put i object os).os.opened = os.opened from rfl, hopened.mem_iff, List.mem_append,
      h.mem_rest_iff hrest]
    constructor
    · rintro (hx | ⟨j, hne, hx⟩)
      · exact ⟨i, by rwa [hself]⟩
      · exact ⟨j, by rwa [hother hne]⟩
    · rintro ⟨j, hx⟩
      rcases eq_or_ne j i with rfl | hne
      · exact Or.inl (hself ▸ hx)
      · exact Or.inr ⟨j, hne, hother hne ▸ hx⟩
  · intro j k x y hx hy heq
    rcases eq_or_ne j i with rfl | hj
    · rw [hself] at hx
      rcases eq_or_ne k j with rfl | hk
      · rfl
      · rw [hother hk] at hy
        exact absurd heq (hapart hx ((h.mem_rest_iff hrest y).mpr ⟨k, hk, hy⟩))
    · rw [hother hj] at hx
      rcases eq_or_ne k i with rfl | hk
      · rw [hself] at hy
        exact absurd heq.symm (hapart hy ((h.mem_rest_iff hrest x).mpr ⟨j, hj, hx⟩))
      · rw [hother hk] at hy
        exact h.unique hx hy heq

/-- A frame of the object is what the change of the object leaves. -/
theorem Held.put_frame (h : Held w) (hrest : w.os.opened.Perm (owned (w.objects i) ++ rest))
    {d : Device κ} (hd : Frame rest d) : Held (w.put i (some d.serial) d.os) :=
  h.put hrest hd.perm hd.handles_nodup hd.paths_nodup

/-- Without its handle an object can be destroyed. -/
theorem Held.put_none (h : Held w) (hrest : w.os.opened.Perm (owned (w.objects i) ++ rest))
    {d : Device κ} (hd : Frame rest d) (hclosed : d.serial.handle = none) :
    Held (w.put i none d.os) := by
  have hperm := hd.perm
  rw [own, hclosed] at hperm
  exact h.put hrest hperm hd.handles_nodup hd.paths_nodup

theorem closed_handle (d : Device κ) : d.closed.serial.handle = none := by
  rw [Device.closed]
  cases h : d.serial.handle with
  | none => exact h
  | some handle => rfl

end Held

/-! ### Runs -/

/-- An action is one that can be taken: an object is constructed once, and is called and
destroyed while there is one; and the system gives the answers it can give. -/
def Enabled (w : World ι κ) : Action ι κ → Prop
  | .construct i => w.objects i = none
  | .call i c => ∃ s, w.objects i = some s ∧ Possible (w.device s) c
  | .destroy i => ∃ s, w.objects i = some s

/-- **One action** that can be taken is defined. -/
theorem held_step {w : World ι κ} (h : Held w) {a : Action ι κ} (ha : Enabled w a) :
    ∃ w' o, machine.step w a = some (w', o) ∧ Held w' := by
  cases a with
  | construct i =>
    obtain ⟨rest, hrest⟩ := h.exists_rest i
    have hnone : w.objects i = none := ha
    have hstep : machine.step w (.construct i) = some (w.put i (some initial) w.os, [], []) := by
      simp only [machine, hnone]
    refine ⟨_, _, hstep, h.put hrest ?_ h.handles_nodup h.paths_nodup⟩
    rw [hnone] at hrest
    exact hrest
  | call i c =>
    obtain ⟨s, hs, hpossible⟩ := ha
    obtain ⟨rest, hrest⟩ := h.exists_rest i
    obtain ⟨d, hd, hframe⟩ := perform_frame (h.frame hs hrest) c hpossible
    have hstep : machine.step w (.call i c) =
        some (w.put i (some d.serial) d.os, d.invoked, d.sent) := by
      simp only [machine, hs, if_pos hpossible, hd, Option.map_some]
    exact ⟨_, _, hstep, h.put_frame hrest hframe⟩
  | destroy i =>
    obtain ⟨s, hs⟩ := ha
    obtain ⟨rest, hrest⟩ := h.exists_rest i
    have hframe := h.frame hs hrest
    have hstep : machine.step w (.destroy i) = some (w.put i none (w.device s).closed.os,
        (w.device s).closed.invoked, (w.device s).closed.sent) := by
      simp only [machine, hs, disconnect_run hframe, Outcome.state?_returned, Option.map_some]
    exact ⟨_, _, hstep, h.put_none hrest (frame_closed hframe) (closed_handle _)⟩

/-- A step is that of an action that can be taken. -/
theorem enabled_of_step {w w' : World ι κ} {a : Action ι κ} {o : List κ × List Bytes}
    (h : machine.step w a = some (w', o)) : Enabled w a := by
  cases a with
  | construct i =>
    cases hi : w.objects i with
    | none => exact hi
    | some s => simp [machine, hi] at h
  | call i c =>
    cases hi : w.objects i with
    | none => simp [machine, hi] at h
    | some s =>
      by_cases hpossible : Possible (w.device s) c
      · exact ⟨s, hi, hpossible⟩
      · simp [machine, hi, hpossible] at h
  | destroy i =>
    cases hi : w.objects i with
    | none => simp [machine, hi] at h
    | some s => exact ⟨s, hi⟩

theorem held_run {w w' : World ι κ} {actions : List (Action ι κ)} {os : List (List κ × List Bytes)}
    (h : Held w) (hrun : machine.run w actions = some (w', os)) : Held w' := by
  refine Machine.run_invariant (P := fun _ _ => True) ?_ h
    (Machine.along_of_forall fun _ _ => trivial) hrun
  intro w w' a o h _ hstep
  obtain ⟨w₁, o₁, hstep₁, h₁⟩ := held_step h (enabled_of_step hstep)
  rw [hstep, Option.some.injEq, Prod.mk.injEq] at hstep₁
  exact hstep₁.1 ▸ h₁

/-- **No handle is left behind, closed twice or used after it was closed.**  Whatever is done
with any number of objects, at any point every open handle is the one of an object, for the
port of that object; no two objects have the same handle or have opened the same port; and
whatever is done next is defined, so that what is closed or read from or written to is
open. -/
theorem handles_are_held {w : World ι κ} {actions : List (Action ι κ)}
    {os : List (List κ × List Bytes)}
    (hrun : machine.run (empty : World ι κ) actions = some (w, os)) :
    (∀ h path, (h, path) ∈ w.os.opened ↔
      ∃ i s, w.objects i = some s ∧ s.handle = some h ∧ s.port = path) ∧
    (∀ {i j : ι} {s t : Serial κ} {h h' : Handle}, w.objects i = some s → w.objects j = some t →
      s.handle = some h → t.handle = some h' → h = h' ∨ s.port = t.port → i = j) ∧
    ∀ a, Enabled w a → (machine.step w a).isSome = true := by
  have hheld := held_run held_empty hrun
  have hmem : ∀ {i : ι} {s : Serial κ} {h : Handle}, w.objects i = some s → s.handle = some h →
      (h, s.port) ∈ owned (w.objects i) := by
    intro i s h hs hh
    exact mem_owned_iff.mpr ⟨s, hs, hh, rfl⟩
  refine ⟨fun h path => ?_, ?_, fun a ha => ?_⟩
  · rw [hheld.mem_iff]
    exact exists_congr fun i => mem_owned_iff
  · intro i j s t h h' hs ht hh hh' hsame
    have hx := hmem hs hh
    have hy := hmem ht hh'
    rcases hsame with rfl | hport
    · exact hheld.unique hx hy rfl
    · have hxy := List.inj_on_of_nodup_map hheld.paths_nodup ((hheld.mem_iff _).mpr ⟨i, hx⟩)
        ((hheld.mem_iff _).mpr ⟨j, hy⟩) hport
      exact hheld.unique hx hy (congrArg Prod.fst hxy)
  · obtain ⟨w', o, hstep, -⟩ := held_step hheld ha
    rw [hstep]
    rfl

/-- An object is connected, connected again elsewhere while it is, and destroyed; another one
cannot be connected to the port that the first one has. -/
theorem handles_are_held_twice : ∃ w os,
    machine.run (empty : World Bool Unit)
      [.construct false, .construct true, .call false (.connect (bytes "COM1") (some 7)),
        .call true (.connect (bytes "COM1") none), .call false (.connect (bytes "COM2") (some 7)),
        .call true (.connect (bytes "COM1") (some 8)), .destroy false] = some (w, os) ∧
    ∀ h path, (h, path) ∈ w.os.opened ↔
      ∃ i s, w.objects i = some s ∧ s.handle = some h ∧ s.port = path := by
  have hrun : (machine.run (empty : World Bool Unit)
      [.construct false, .construct true, .call false (.connect (bytes "COM1") (some 7)),
        .call true (.connect (bytes "COM1") none), .call false (.connect (bytes "COM2") (some 7)),
        .call true (.connect (bytes "COM1") (some 8)), .destroy false]).isSome = true := by
    decide +kernel
  obtain ⟨⟨w, os⟩, hrun⟩ := Option.isSome_iff_exists.mp hrun
  exact ⟨w, os, hrun, (handles_are_held hrun).1⟩

end World

end Serial

end BafangEmulator
