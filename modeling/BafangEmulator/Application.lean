/-
  Application.lean --- Source.cpp and serial_handler.cpp: the workers from their start.

  `main` starts a worker for each port.  A worker constructs a `serial_handler`, which
  opens the port, and then polls it as long as it is connected.  What it throws is caught,
  and that is the end of the worker; its `serial_handler` is destroyed.

  `Emulator.lean` has every port open from the beginning.  It is what the application
  comes to all the same, whichever ports can be opened and whenever (`run_emulator`).

  A turn of a worker is one step here; `Workers.lean` is about what goes on in it.
-/
import BafangEmulator.Emulator
import BafangEmulator.Serial

set_option autoImplicit false

namespace BafangEmulator

open Foundation
open Serial (Device Fault Frame World)

/-- What `serial_handler` binds to the events of its port. -/
inductive Member where
  | onConnected
  | onDisconnected
  | onDataAvailable
  deriving DecidableEq

/-- The worker of a port. -/
inductive Worker where
  /-- It has not begun. -/
  | ready
  /-- It polls its port. -/
  | running (serial : Serial Member)
  /-- It has ended. -/
  | ended

namespace Worker

/-- The port of the handler, while there is one. -/
def serial? : Worker → Option (Serial Member)
  | ready => none
  | running s => some s
  | ended => none

/-- What has been received and not handled. -/
def buffer : Worker → Bytes
  | ready => []
  | running s => s.buffer
  | ended => []

end Worker

/-- The workers, and what they share. -/
structure Application (Port : Type) where
  workers : Port → Worker
  os : Os
  general : Profile
  config : Profile
  files : Files

namespace Application

variable {Port : Type}

/-- How the system answers while a port is opened. -/
structure Opening where
  created : Option Handle
  built : Bool
  set : Bool
  timed : Bool

/-- What a worker does next. -/
inductive Action (Port : Type) where
  /-- It constructs its handler. -/
  | start (port : Port) (opening : Opening)
  /-- It takes a turn of its loop; `read` is what `ReadFile` gives. -/
  | turn (port : Port) (read : Option Bytes) (env : Environment)

/-- What `ReadFile` gives fits into the array of `poll`. -/
def Action.Fits : Action Port → Prop
  | .start _ _ => True
  | .turn _ read _ => ∀ chunk ∈ read, chunk.length ≤ Serial.readSize

/-! ## serial_handler -/

/-- The constructor of `serial_handler`. -/
def construct (port : Bytes) (o : Opening) : Exec Fault (Device Member) Unit := do
  Serial.event .connected .onConnected
  Serial.event .disconnected .onDisconnected
  Serial.event .dataAvailable .onDataAvailable
  Serial.connect port o.created
  Serial.param o.built o.set o.timed

/-- A member function.  Two of them only write to the trace. -/
def callback (env : Environment) : Member → Exec Exception Session Unit
  | .onConnected => pure ()
  | .onDisconnected => pure ()
  | .onDataAvailable => SerialHandler.onDataAvailable env

/-- The member functions that a call has come to. -/
def callbacks (env : Environment) : List Member → Exec Exception Session Unit
  | [] => pure ()
  | m :: ms => do callback env m; callbacks env ms

/-! ## The workers -/

/-- The port of a worker at a call. -/
def device (a : Application Port) (s : Serial Member) : Device Member where
  serial := s
  os := a.os
  invoked := []
  sent := []

/-- What the handler of a port works on. -/
def session (a : Application Port) (s : Serial Member) : Session where
  buffer := s.buffer
  written := []
  general := a.general
  config := a.config
  files := a.files

variable [DecidableEq Port]

/-- The application after a worker has changed. -/
def put (a : Application Port) (port : Port) (worker : Worker) (os : Os) : Application Port :=
  { a with
    workers := Function.update a.workers port worker
    os := os }

/-- The application after a callback. -/
def share (a : Application Port) (t : Session) : Application Port :=
  { a with
    general := t.general
    config := t.config
    files := t.files }

/-- The handler of a worker is destroyed, and the worker has ended. -/
def finish (a : Application Port) (port : Port) (d : Device Member) : Option (Application Port) :=
  (Serial.disconnect d).state?.map fun d => a.put port .ended d.os

/-- The workers as a machine, which shows the data events; `path` is where a port is. -/
def machine (path : Port → Bytes) :
    Machine (Application Port) (Action Port) (Option (Event Port × Observation Port)) where
  step a
    | .start port o =>
      match a.workers port with
      | .ready =>
        if Serial.Possible (a.device Serial.initial) (.connect (path port) o.created) then
          match construct (path port) o (a.device Serial.initial) with
          | .returned () d => some (a.put port (.running d.serial) d.os, none)
          | .threw _ d => (a.finish port d).map fun a => (a, none)
          | .undefined => none
        else none
      | .running _ => none
      | .ended => none
    | .turn port read env =>
      match a.workers port with
      | .ready => none
      | .running s =>
        -- The loop goes on while the port is connected.
        if s.handle = none then (a.finish port (a.device s)).map fun a => (a, none)
        else
          match Serial.poll read (a.device s), read with
          | .returned () d, some chunk =>
            match callbacks env d.invoked (a.session d.serial) with
            | .returned () t =>
              some ((a.share t).put port (.running { d.serial with buffer := t.buffer }) d.os,
                some ({ port := port, chunk := chunk, env := env },
                  { port := port, received := d.serial.buffer, written := t.written }))
            | .threw _ t => ((a.share t).finish port d).map fun a => (a, none)
            | .undefined => none
          | .returned () d, none => some (a.put port (.running d.serial) d.os, none)
          | .threw _ d, _ => (a.finish port d).map fun a => (a, none)
          | .undefined, _ => none
      | .ended => none

/-! ## One step -/

/-- The emulator that an application comes to. -/
def emulator (a : Application Port) : Emulator Port where
  buffers port := (a.workers port).buffer
  general := a.general
  config := a.config
  files := a.files

/-- The ports there are, as objects. -/
def world (a : Application Port) : World Port Member where
  objects port := (a.workers port).serial?
  os := a.os

/-- Every open handle is that of a worker; and a worker that runs is connected to its port,
with its handler bound. -/
structure Sound (path : Port → Bytes) (a : Application Port) : Prop where
  held : a.world.Held
  connected : ∀ {port : Port} {s : Serial Member}, a.workers port = .running s →
    s.handle ≠ none ∧ s.port = path port ∧ s.dataAvailable = some .onDataAvailable

section Steps

variable {path : Port → Bytes} {a : Application Port} {port : Port}
  {rest : List (Handle × Bytes)}

@[simp] theorem world_put (worker : Worker) (os : Os) :
    (a.put port worker os).world = a.world.put port worker.serial? os := by
  simp only [world, put, World.put, World.mk.injEq, and_true]
  funext port'
  rcases eq_or_ne port' port with rfl | hne
  · simp only [Function.update_self]
  · simp only [Function.update_of_ne hne]

/-- A worker changes, and the others do not. -/
theorem Sound.put (h : Sound path a) {worker : Worker} {os : Os}
    (hheld : (a.world.put port worker.serial? os).Held)
    (hconnected : ∀ s, worker = .running s →
      s.handle ≠ none ∧ s.port = path port ∧ s.dataAvailable = some .onDataAvailable) :
    Sound path (a.put port worker os) where
  held := by
    rw [world_put]
    exact hheld
  connected := by
    intro port' s hs
    rcases eq_or_ne port' port with rfl | hne
    · exact hconnected s (by simpa [Application.put] using hs)
    · exact h.connected (by simpa [Application.put, Function.update_of_ne hne] using hs)

/-- A port is opened and set up, or a fault is thrown. -/
theorem open_cases {d : Device Member} (h : Frame rest d) {o : Opening} (p : Bytes)
    (hpossible : Serial.Possible d (.connect p o.created)) :
    (∃ d', (do Serial.connect p o.created; Serial.param o.built o.set o.timed :
        Exec Fault (Device Member) Unit) d = .returned () d' ∧ Frame rest d' ∧
      d'.serial.handle ≠ none ∧ d'.serial.port = p ∧
      d'.serial.dataAvailable = d.serial.dataAvailable ∧ d'.serial.buffer = d.serial.buffer) ∨
    ∃ f d', (do Serial.connect p o.created; Serial.param o.built o.set o.timed :
        Exec Fault (Device Member) Unit) d = .threw f d' ∧ Frame rest d' := by
  have hopening := Serial.frame_opening h hpossible
  have hconnect := Serial.connect_run h p o.created
  cases hcreated : o.created with
  | none =>
    rw [hcreated] at hconnect hopening
    exact Or.inr ⟨_, _, Exec.bind_of_threw hconnect, hopening⟩
  | some handle =>
    rw [hcreated] at hconnect hopening
    have hopen : Frame rest { d.opening p (some handle) with
        invoked := d.invoked ++ d.serial.connected.toList } := hopening.congr rfl rfl rfl
    rw [Exec.bind_of_returned hconnect]
    rcases Serial.param_cases hopen o.built o.set o.timed with hparam | ⟨f, hparam⟩
    · exact Or.inl ⟨_, hparam, hopen, Option.some_ne_none handle, rfl, rfl, rfl⟩
    · exact Or.inr ⟨f, _, hparam, hopen⟩

/-- **The constructor** binds the handlers and opens the port, or it throws. -/
theorem construct_cases {d : Device Member} (h : Frame rest d) {o : Opening} (p : Bytes)
    (hpossible : Serial.Possible d (.connect p o.created)) :
    (∃ d', construct p o d = .returned () d' ∧ Frame rest d' ∧ d'.serial.handle ≠ none ∧
      d'.serial.port = p ∧ d'.serial.dataAvailable = some .onDataAvailable ∧
      d'.serial.buffer = d.serial.buffer) ∨
    ∃ f d', construct p o d = .threw f d' ∧ Frame rest d' := by
  have hbound : Frame rest { d with serial := { d.serial with
      connected := some Member.onConnected
      disconnected := some Member.onDisconnected
      dataAvailable := some Member.onDataAvailable } } := h.congr rfl rfl rfl
  exact open_cases hbound p hpossible

/-- The handler of a worker can always be destroyed. -/
theorem finish_run (a : Application Port) (port : Port) {d : Device Member} (h : Frame rest d) :
    a.finish port d = some (a.put port .ended d.closed.os) := by
  rw [finish, Serial.disconnect_run h]
  rfl

theorem callbacks_single (env : Environment) (s : Session) :
    callbacks env [.onDataAvailable] s = SerialHandler.onDataAvailable env s := by
  rw [callbacks, callback, Exec.bind_run]
  cases SerialHandler.onDataAvailable env s <;> rfl

/-! ### What a step comes to -/

/-- What an action does: a worker that runs goes on running, and the emulator takes the data
event that is shown or, if none is, does nothing. -/
structure Advances (path : Port → Bytes) (a a' : Application Port)
    (o : Option (Event Port × Observation Port)) : Prop where
  sound : Sound path a'
  stays : ∀ {port : Port} {s : Serial Member}, a.workers port = .running s →
    ∃ s', a'.workers port = .running s'
  hidden : o = none → a'.emulator = a.emulator
  shown : ∀ {e : Event Port} {w : Observation Port}, o = some (e, w) →
    Emulator.machine.step a.emulator e = some (a'.emulator, w) ∧
      ∃ s, a'.workers e.port = .running s

/-- The emulator only sees the buffer of a worker. -/
theorem emulator_put {worker : Worker} (os : Os) (hbuffer : worker.buffer = (a.workers port).buffer) :
    (a.put port worker os).emulator = a.emulator := by
  simp only [emulator, put, Emulator.mk.injEq, and_true]
  funext port'
  rcases eq_or_ne port' port with rfl | hne
  · rw [Function.update_self, hbuffer]
  · rw [Function.update_of_ne hne]

@[simp] theorem put_workers_self (a : Application Port) (port : Port) (worker : Worker) (os : Os) :
    (a.put port worker os).workers port = worker := by
  simp only [put, Function.update_self]

theorem put_workers_of_ne {port' : Port} (hne : port' ≠ port) (worker : Worker) (os : Os) :
    (a.put port worker os).workers port' = a.workers port' := by
  simp only [put, Function.update_of_ne hne]

/-- A worker that runs goes on running when another one, or its own port, changes. -/
theorem stays_put {worker : Worker} (os : Os)
    (hstays : ∀ s, a.workers port = .running s → ∃ s', worker = .running s') {port' : Port}
    {s : Serial Member} (hs : a.workers port' = .running s) :
    ∃ s', (a.put port worker os).workers port' = .running s' := by
  rcases eq_or_ne port' port with rfl | hne
  · obtain ⟨s', hs'⟩ := hstays s hs
    exact ⟨s', by rw [put_workers_self, hs']⟩
  · exact ⟨s, by rw [put_workers_of_ne hne, hs]⟩

/-- A change that shows nothing. -/
theorem advances_put {worker : Worker} {os : Os} (hsound : Sound path (a.put port worker os))
    (hbuffer : worker.buffer = (a.workers port).buffer)
    (hstays : ∀ s, a.workers port = .running s → ∃ s', worker = .running s') :
    Advances path a (a.put port worker os) none where
  sound := hsound
  stays := stays_put os hstays
  hidden _ := emulator_put os hbuffer
  shown := by
    intro e w h
    simp at h

/-- A worker begins to run, or ends before it did. -/
theorem advances_start (h : Sound path a) {o : Opening} {a' : Application Port}
    {shown : Option (Event Port × Observation Port)}
    (hstep : (machine path).step a (.start port o) = some (a', shown)) :
    Advances path a a' shown := by
  simp only [machine] at hstep
  cases hworker : a.workers port with
  | running s => simp [hworker] at hstep
  | ended => simp [hworker] at hstep
  | ready =>
    rw [hworker] at hstep
    simp only at hstep
    have hnone : a.world.objects port = none := by simp only [world, hworker, Worker.serial?]
    obtain ⟨rest, hrest⟩ := h.held.exists_rest port
    have hframe : Frame rest (a.device Serial.initial) := by
      refine ⟨?_, h.held.handles_nodup, h.held.paths_nodup⟩
      rw [hnone] at hrest
      exact hrest
    have hstays : ∀ {worker : Worker} (s : Serial Member), a.workers port = .running s →
        ∃ s', worker = .running s' := by
      intro worker s hs
      rw [hworker] at hs
      simp at hs
    by_cases hpossible : Serial.Possible (a.device Serial.initial) (.connect (path port) o.created)
    · rw [if_pos hpossible] at hstep
      rcases construct_cases hframe (path port) hpossible with
        ⟨d, hrun, hd, hhandle, hport, hbound, hbuffer⟩ | ⟨f, d, hrun, hd⟩
      · rw [hrun] at hstep
        simp only [Option.some.injEq, Prod.mk.injEq] at hstep
        obtain ⟨rfl, rfl⟩ := hstep
        refine advances_put (h.put (h.held.put_frame hrest hd) ?_) ?_ hstays
        · rintro s hs
          obtain rfl := Worker.running.inj hs
          exact ⟨hhandle, hport, hbound⟩
        · rw [hworker]
          exact hbuffer
      · rw [hrun] at hstep
        simp only [finish_run a port hd, Option.map_some, Option.some.injEq, Prod.mk.injEq] at hstep
        obtain ⟨rfl, rfl⟩ := hstep
        refine advances_put (h.put ?_ ?_) ?_ hstays
        · exact h.held.put_none hrest (Serial.frame_closed hd) (World.closed_handle d)
        · intro s hs
          simp at hs
        · rw [hworker]
          rfl
    · rw [if_neg hpossible] at hstep
      simp at hstep

omit [DecidableEq Port] in
/-- The frame of a worker that runs. -/
theorem Sound.exists_frame (h : Sound path a) {s : Serial Member}
    (hs : a.workers port = .running s) :
    ∃ rest, a.os.opened.Perm (World.owned (a.world.objects port) ++ rest) ∧
      Frame rest (a.device s) := by
  have hsome : a.world.objects port = some s := by simp only [world, hs, Worker.serial?]
  obtain ⟨rest, hrest⟩ := h.held.exists_rest port
  exact ⟨rest, hrest, h.held.frame hsome hrest⟩

/-- A turn without data. -/
theorem turn_none (h : Sound path a) {s : Serial Member} (hs : a.workers port = .running s)
    (env : Environment) : (machine path).step a (.turn port none env) =
      some (a.put port (.running s) a.os, none) := by
  obtain ⟨rest, -, hframe⟩ := h.exists_frame hs
  have hpoll := Serial.poll_run hframe none
  rw [Option.bind_fun_none] at hpoll
  simp only [machine, hs, if_neg (h.connected hs).1, hpoll]
  rfl

/-- **A turn with data** is what the handler makes of it. -/
theorem turn_some (h : Sound path a) {s : Serial Member} (hs : a.workers port = .running s)
    (chunk : Bytes) (env : Environment) : (machine path).step a (.turn port (some chunk) env) =
      (SerialHandler.poll env chunk (a.emulator.session port)).state?.map fun t =>
        ((a.share t).put port (.running { s with buffer := t.buffer }) a.os,
          some ({ port := port, chunk := chunk, env := env },
            { port := port, received := s.buffer ++ chunk, written := t.written })) := by
  obtain ⟨rest, -, hframe⟩ := h.exists_frame hs
  obtain ⟨hhandle, -, hbound⟩ := h.connected hs
  obtain ⟨handle, hhandle'⟩ := Option.ne_none_iff_exists'.mp hhandle
  have hpoll := Serial.poll_run hframe (some chunk)
  have hdevice : (a.device s).serial.handle = some handle := hhandle'
  rw [hdevice, Option.bind_some] at hpoll
  have hcallbacks : callbacks env ([] ++ s.dataAvailable.toList)
      (a.session { s with buffer := s.buffer ++ chunk }) =
      SerialHandler.onDataAvailable env (a.session { s with buffer := s.buffer ++ chunk }) := by
    rw [hbound]
    exact callbacks_single env _
  have hsession : a.emulator.session port = a.session s := by
    simp only [Emulator.session, emulator, hs, Worker.buffer, session]
  have hhandler : SerialHandler.poll env chunk (a.emulator.session port) =
      SerialHandler.onDataAvailable env (a.session { s with buffer := s.buffer ++ chunk }) := by
    rw [hsession]
    rfl
  rw [hhandler]
  simp only [machine, hs, if_neg hhandle, hpoll]
  simp only [device, hcallbacks]
  rcases SerialHandler.onDataAvailable_cases env
      (a.session { s with buffer := s.buffer ++ chunk }) with ⟨-, hrun⟩ | ⟨-, t, hrun, -⟩
  · rw [hrun]
    rfl
  · rw [hrun]
    rfl

/-- A worker takes a turn. -/
theorem advances_turn (h : Sound path a) {read : Option Bytes} {env : Environment}
    {a' : Application Port} {shown : Option (Event Port × Observation Port)}
    (hstep : (machine path).step a (.turn port read env) = some (a', shown)) :
    Advances path a a' shown := by
  cases hworker : a.workers port with
  | ready => simp [machine, hworker] at hstep
  | ended => simp [machine, hworker] at hstep
  | running s =>
    obtain ⟨hhandle, hport, hbound⟩ := h.connected hworker
    obtain ⟨rest, hrest, hframe⟩ := h.exists_frame hworker
    cases read with
    | none =>
      rw [turn_none h hworker] at hstep
      simp only [Option.some.injEq, Prod.mk.injEq] at hstep
      obtain ⟨rfl, rfl⟩ := hstep
      refine advances_put (h.put (h.held.put_frame hrest hframe) ?_) ?_ ?_
      · rintro s' hs'
        obtain rfl := Worker.running.inj hs'
        exact ⟨hhandle, hport, hbound⟩
      · rw [hworker]
      · exact fun _ _ => ⟨_, rfl⟩
    | some chunk =>
      rw [turn_some h hworker] at hstep
      obtain ⟨t, hstate, hresult⟩ := Option.map_eq_some_iff.mp hstep
      obtain ⟨rfl, rfl⟩ := Prod.mk.inj hresult
      have hshare : Sound path (a.share t) := ⟨h.held, h.connected⟩
      have hfilled : Frame rest (a.device { s with buffer := t.buffer }) := hframe.congr rfl rfl rfl
      have hreceived : a.emulator.received { port := port, chunk := chunk, env := env } =
          s.buffer ++ chunk := by
        simp only [Emulator.received, emulator, hworker, Worker.buffer]
      refine ⟨hshare.put (h.held.put_frame hrest hfilled) ?_,
        stays_put (a := a.share t) a.os fun _ _ => ⟨_, rfl⟩, by simp, ?_⟩
      · rintro s' hs'
        obtain rfl := Worker.running.inj hs'
        exact ⟨hhandle, hport, hbound⟩
      · rintro e w heq
        obtain ⟨rfl, rfl⟩ := Prod.mk.inj (Option.some.inj heq)
        refine ⟨?_, _, put_workers_self _ _ _ _⟩
        simp only [Emulator.machine, hstate, Option.map_some, hreceived, Option.some.injEq,
          Prod.mk.injEq, and_true]
        simp only [emulator, Emulator.conclude, Emulator.mk.injEq]
        refine ⟨funext fun port' => ?_, rfl, rfl, rfl⟩
        rcases eq_or_ne port' port with rfl | hne
        · rw [Function.update_self, put_workers_self]
          rfl
        · rw [Function.update_of_ne hne, put_workers_of_ne hne]
          rfl

omit [DecidableEq Port] in
/-- What is open is what the workers have opened. -/
theorem Sound.mem_opened_iff (h : Sound path a)
    (x : Handle × Bytes) : x ∈ a.os.opened ↔
      ∃ port s, a.workers port = .running s ∧ s.handle = some x.1 ∧ path port = x.2 := by
  have hserial : ∀ {port : Port} {s : Serial Member},
      a.world.objects port = some s ↔ a.workers port = .running s := by
    intro port s
    simp only [world]
    cases a.workers port <;> simp [Worker.serial?]
  have hmem := h.held.mem_iff x
  simp only [World.mem_owned_iff, hserial] at hmem
  refine hmem.trans (exists_congr fun port => exists_congr fun s => and_congr_right fun hs => ?_)
  rw [(h.connected hs).2.1]

/-- A port is opened and set up when the system does everything. -/
theorem open_returned {d : Device Member} (h : Frame rest d) {handle : Handle} (p : Bytes)
    (hpossible : Serial.Possible d (.connect p (some handle))) :
    ∃ d', (do Serial.connect p (some handle); Serial.param true true true :
      Exec Fault (Device Member) Unit) d = .returned () d' := by
  have hopen : Frame rest { d.opening p (some handle) with
      invoked := d.invoked ++ d.serial.connected.toList } :=
    (Serial.frame_opening h hpossible).congr rfl rfl rfl
  have hconnect := Serial.connect_run h p (some handle)
  rw [Exec.bind_of_returned hconnect]
  exact ⟨_, Serial.param_returned hopen (Option.some_ne_none handle)⟩

/-- So the constructor returns. -/
theorem construct_returned {d : Device Member} (h : Frame rest d) {handle : Handle} (p : Bytes)
    (hpossible : Serial.Possible d (.connect p (some handle))) :
    ∃ d', construct p ⟨some handle, true, true, true⟩ d = .returned () d' := by
  have hbound : Frame rest { d with serial := { d.serial with
      connected := some Member.onConnected
      disconnected := some Member.onDisconnected
      dataAvailable := some Member.onDataAvailable } } := h.congr rfl rfl rfl
  exact open_returned hbound p hpossible

/-- **A worker can begin** with a port that is not open and can be opened. -/
theorem exists_start (h : Sound path a) (hready : a.workers port = .ready)
    (hpath : ∀ port' s, a.workers port' = .running s → path port' ≠ path port) :
    ∃ o a', (machine path).step a (.start port o) = some (a', none) ∧
      (∃ s, a'.workers port = .running s) ∧
      ∀ port', port' ≠ port → a'.workers port' = a.workers port' := by
  obtain ⟨handle, hhandle⟩ := Infinite.exists_notMem_finset a.os.handles.toFinset
  have hpossible : Serial.Possible (a.device Serial.initial) (.connect (path port) (some handle)) := by
    rintro x hx
    obtain rfl : (handle, path port) = x := Option.some.inj hx
    refine ⟨fun hmem => hhandle (List.mem_toFinset.mpr hmem), fun hmem => ?_⟩
    obtain ⟨x, hx, heq⟩ := List.mem_map.mp hmem
    obtain ⟨port', s, hs, -, hpath'⟩ := (h.mem_opened_iff x).mp hx
    exact hpath port' s hs (hpath'.trans heq)
  have hnone : a.world.objects port = none := by simp only [world, hready, Worker.serial?]
  obtain ⟨rest, hrest⟩ := h.held.exists_rest port
  have hframe : Frame rest (a.device Serial.initial) := by
    refine ⟨?_, h.held.handles_nodup, h.held.paths_nodup⟩
    rw [hnone] at hrest
    exact hrest
  obtain ⟨d, hrun⟩ := construct_returned hframe (path port) hpossible
  refine ⟨⟨some handle, true, true, true⟩, a.put port (.running d.serial) d.os, ?_,
    ⟨_, put_workers_self _ _ _ _⟩, fun port' hne => put_workers_of_ne hne _ _⟩
  simp only [machine, hready, if_pos hpossible, hrun]

theorem advances_step (h : Sound path a) {action : Action Port} {a' : Application Port}
    {shown : Option (Event Port × Observation Port)}
    (hstep : (machine path).step a action = some (a', shown)) : Advances path a a' shown := by
  cases action with
  | start port o => exact advances_start h hstep
  | turn port read env => exact advances_turn h hstep

end Steps

/-! ## Whole runs -/

/-- `main` before its workers have begun. -/
def start (em : Emulator Port) : Application Port where
  workers _ := .ready
  os := ⟨[]⟩
  general := em.general
  config := em.config
  files := em.files

omit [DecidableEq Port] in
theorem sound_start (path : Port → Bytes) (em : Emulator Port) : Sound path (start em) where
  held := World.held_empty
  connected := by
    intro port s hs
    simp [start] at hs

omit [DecidableEq Port] in
theorem emulator_start {general config : Bytes} {files : Files} {em : Emulator Port}
    (hlaunch : Emulator.launch general config files = .ok em) : (start em).emulator = em := by
  unfold Emulator.launch at hlaunch
  split at hlaunch
  · simp at hlaunch
  · simp at hlaunch
  · rw [← Except.ok.inj hlaunch]
    rfl

/-- What holds of a run: the emulator takes the data events that it shows, and every worker
that ran, or had an event, runs at the end. -/
theorem advances_run {path : Port → Bytes} : ∀ {actions : List (Action Port)}
    {a a' : Application Port} {os : List (Option (Event Port × Observation Port))},
    Sound path a → (machine path).run a actions = some (a', os) →
      Sound path a' ∧
      Emulator.machine.run a.emulator (os.reduceOption.map Prod.fst) =
        some (a'.emulator, os.reduceOption.map Prod.snd) ∧
      (∀ {port : Port} {s : Serial Member}, a.workers port = .running s →
        ∃ s', a'.workers port = .running s') ∧
      ∀ x ∈ os.reduceOption, ∃ s', a'.workers x.1.port = .running s' := by
  intro actions
  induction actions with
  | nil =>
    intro a a' os h hrun
    simp only [Machine.run_nil, Option.some.injEq, Prod.mk.injEq] at hrun
    obtain ⟨rfl, rfl⟩ := hrun
    exact ⟨h, rfl, fun hs => ⟨_, hs⟩, by simp⟩
  | cons action actions ih =>
    intro a a' os h hrun
    obtain ⟨a₁, o, os', hstep, hrest, rfl⟩ := Machine.run_cons_eq_some_iff.mp hrun
    obtain ⟨hsound, hstays, hhidden, hshown⟩ := advances_step h hstep
    obtain ⟨hsound', hemulator, hstays', hevents⟩ := ih hsound hrest
    have hkeeps : ∀ {port : Port} {s : Serial Member}, a.workers port = .running s →
        ∃ s', a'.workers port = .running s' := by
      intro port s hs
      obtain ⟨s₁, hs₁⟩ := hstays hs
      exact hstays' hs₁
    cases o with
    | none =>
      rw [hhidden rfl] at hemulator
      exact ⟨hsound', by rwa [List.reduceOption_cons_of_none], hkeeps,
        by rwa [List.reduceOption_cons_of_none]⟩
    | some shown =>
      obtain ⟨e, w⟩ := shown
      obtain ⟨hone, s₁, hs₁⟩ := hshown rfl
      rw [List.reduceOption_cons_of_some]
      refine ⟨hsound', Machine.run_cons_eq_some_iff.mpr ⟨_, w, _, hone, hemulator, rfl⟩, hkeeps, ?_⟩
      exact List.forall_mem_cons.mpr ⟨hstays' hs₁, hevents⟩

/-- **The application is the emulator.**  Whichever workers have begun, whatever ports could be
opened and however the system answered since, the data events so far are a run of the
emulator, which shows the same and has come to the same profiles, files and buffers; each
worker that runs has the one open handle of its port; and there is no other handle. -/
theorem run_emulator {path : Port → Bytes} {general config : Bytes} {files : Files}
    {em : Emulator Port} (hlaunch : Emulator.launch general config files = .ok em)
    {actions : List (Action Port)} {a : Application Port}
    {os : List (Option (Event Port × Observation Port))}
    (hrun : (machine path).run (start em) actions = some (a, os)) :
    Emulator.machine.run em (os.reduceOption.map Prod.fst) =
      some (a.emulator, os.reduceOption.map Prod.snd) ∧
    (∀ {port : Port} {s : Serial Member}, a.workers port = .running s →
      ∃ h, s.handle = some h ∧ (h, path port) ∈ a.os.opened) ∧
    (∀ x ∈ a.os.opened, ∃ port s, a.workers port = .running s ∧ s.handle = some x.1 ∧
      path port = x.2) ∧
    ∀ {port port' : Port} {s s' : Serial Member}, a.workers port = .running s →
      a.workers port' = .running s' → path port = path port' → port = port' := by
  obtain ⟨hsound, hemulator, -, -⟩ := advances_run (sound_start path em) hrun
  rw [emulator_start hlaunch] at hemulator
  have hopen : ∀ {port : Port} {s : Serial Member}, a.workers port = .running s →
      ∃ h, s.handle = some h ∧ (h, path port) ∈ a.os.opened := by
    intro port s hs
    obtain ⟨handle, hhandle⟩ := Option.ne_none_iff_exists'.mp (hsound.connected hs).1
    exact ⟨handle, hhandle, (hsound.mem_opened_iff _).mpr ⟨port, s, hs, hhandle, rfl⟩⟩
  refine ⟨hemulator, hopen, fun x hx => (hsound.mem_opened_iff x).mp hx, ?_⟩
  intro port port' s s' hs hs' hpath
  obtain ⟨handle, hhandle, hmem⟩ := hopen hs
  obtain ⟨handle', hhandle', hmem'⟩ := hopen hs'
  -- A path is open once, so it is the same handle, and a handle is held once.
  have hsame := List.inj_on_of_nodup_map hsound.held.paths_nodup hmem hmem' hpath
  have hown : (handle, path port) ∈ World.owned (a.world.objects port) := by
    refine World.mem_owned_iff.mpr ⟨s, ?_, hhandle, (hsound.connected hs).2.1⟩
    simp only [world, hs, Worker.serial?]
  have hown' : (handle', path port') ∈ World.owned (a.world.objects port') := by
    refine World.mem_owned_iff.mpr ⟨s', ?_, hhandle', (hsound.connected hs').2.1⟩
    simp only [world, hs', Worker.serial?]
  exact hsound.held.unique hown hown' (congrArg Prod.fst hsame)

/-- Two workers want the same port; the first one gets it, and is asked for the throttle
block. -/
theorem run_emulator_contended : ∃ a os,
    (machine fun _ : Bool => bytes "COM1").run (start Emulator.bare)
      [.start false ⟨some 7, true, true, true⟩, .start true ⟨none, true, true, true⟩,
        .turn false none .working, .turn false (some [0x11, 0x54]) .working] = some (a, os) ∧
    Emulator.machine.run (Emulator.bare : Emulator Bool) (os.reduceOption.map Prod.fst) =
      some (a.emulator, os.reduceOption.map Prod.snd) := by
  have hlaunch : Emulator.launch (bytes "general.el") (bytes "config.el") (fun _ => none) =
      .ok (Emulator.bare : Emulator Bool) := rfl
  have hrun : ((machine fun _ : Bool => bytes "COM1").run (start Emulator.bare)
      [.start false ⟨some 7, true, true, true⟩, .start true ⟨none, true, true, true⟩,
        .turn false none .working, .turn false (some [0x11, 0x54]) .working]).isSome = true := by
    decide +kernel
  obtain ⟨⟨a, os⟩, hrun⟩ := Option.isSome_iff_exists.mp hrun
  exact ⟨a, os, hrun, (run_emulator hlaunch hrun).1⟩

/-- A list of workers begins, one after the other. -/
theorem exists_starts {path : Port → Bytes} (hpath : Function.Injective path) :
    ∀ {ports : List Port} {a : Application Port}, Sound path a → ports.Nodup →
      (∀ port ∈ ports, a.workers port = .ready) →
      ∃ actions a' os, (∀ action ∈ actions, action.Fits) ∧
        (machine path).run a actions = some (a', os) ∧ os.reduceOption = [] ∧
        ∀ port ∈ ports, ∃ s, a'.workers port = .running s := by
  intro ports
  induction ports with
  | nil => intro a _ _ _; exact ⟨[], a, [], by simp, rfl, rfl, by simp⟩
  | cons port ports ih =>
    intro a h hnodup hready
    obtain ⟨hnot, hnodup⟩ := List.nodup_cons.mp hnodup
    have hfree : ∀ port' s, a.workers port' = .running s → path port' ≠ path port := by
      rintro port' s hs heq
      rw [hpath heq, hready port List.mem_cons_self] at hs
      simp at hs
    obtain ⟨o, a₁, hstep, ⟨s, hs⟩, hothers⟩ :=
      exists_start h (hready port List.mem_cons_self) hfree
    have hready₁ : ∀ port' ∈ ports, a₁.workers port' = .ready := by
      intro port' hport'
      have hne : port' ≠ port := by
        rintro rfl
        exact hnot hport'
      rw [hothers port' hne, hready port' (List.mem_cons_of_mem _ hport')]
    have hsound := (advances_step h hstep).sound
    obtain ⟨actions, a', os, hfits, hrun, hnone, hrunning⟩ := ih hsound hnodup hready₁
    have hstartFits : Action.Fits (.start port o) := trivial
    refine ⟨_, a', _, List.forall_mem_cons.mpr ⟨hstartFits, hfits⟩,
      Machine.run_cons_eq_some_iff.mpr ⟨a₁, none, os, hstep, hrun, rfl⟩, ?_,
      List.forall_mem_cons.mpr ⟨(advances_run hsound hrun).2.2.1 hs, hrunning⟩⟩
    rw [List.reduceOption_cons_of_none, hnone]

/-- The turns that data events are taken in. -/
theorem exists_turns {path : Port → Bytes} : ∀ {es : List (Event Port)} {a : Application Port}
    {em' : Emulator Port} {ws : List (Observation Port)}, Sound path a →
    (∀ e ∈ es, ∃ s, a.workers e.port = .running s) →
    (∀ e ∈ es, e.chunk.length ≤ Serial.readSize) →
    Emulator.machine.run a.emulator es = some (em', ws) →
      ∃ actions a' os, (∀ action ∈ actions, action.Fits) ∧
        (machine path).run a actions = some (a', os) ∧ os.reduceOption = es.zip ws ∧
        a'.emulator = em' := by
  intro es
  induction es with
  | nil =>
    intro a em' ws _ _ _ hrun
    simp only [Machine.run_nil, Option.some.injEq, Prod.mk.injEq] at hrun
    obtain ⟨rfl, rfl⟩ := hrun
    exact ⟨[], a, [], by simp, rfl, rfl, rfl⟩
  | cons e es ih =>
    intro a em' ws h hrunning hshort hrun
    obtain ⟨hchunk, hshort⟩ := List.forall_mem_cons.mp hshort
    obtain ⟨em₁, w, ws', hstep, hrest, rfl⟩ := Machine.run_cons_eq_some_iff.mp hrun
    obtain ⟨s, hs⟩ := hrunning e List.mem_cons_self
    -- The turn is defined because the step of the emulator is.
    obtain ⟨t, ht, -⟩ := Option.map_eq_some_iff.mp hstep
    have hturn := turn_some h hs e.chunk e.env
    rw [ht, Option.map_some] at hturn
    obtain ⟨hsound, hstays, -, hshown⟩ := advances_turn h hturn
    obtain ⟨hstep', -⟩ := hshown rfl
    have hevent : Emulator.machine.step a.emulator e = some (em₁, w) := hstep
    rw [hevent, Option.some.injEq, Prod.mk.injEq] at hstep'
    obtain ⟨rfl, rfl⟩ := hstep'
    have hrunning' : ∀ e' ∈ es, ∃ s', ((a.share t).put e.port
        (.running { s with buffer := t.buffer }) a.os).workers e'.port = .running s' := by
      intro e' he'
      obtain ⟨s', hs'⟩ := hrunning e' (List.mem_cons_of_mem _ he')
      exact hstays hs'
    obtain ⟨actions, a', os, hfits, hrun', hos, hem⟩ := ih hsound hrunning' hshort hrest
    have hturnFits : Action.Fits (.turn e.port (some e.chunk) e.env) := by
      rintro chunk ⟨⟩
      exact hchunk
    refine ⟨_, a', _, List.forall_mem_cons.mpr ⟨hturnFits, hfits⟩,
      Machine.run_cons_eq_some_iff.mpr ⟨_, _, os, hturn, hrun', rfl⟩, ?_, hem⟩
    rw [List.reduceOption_cons_of_some, hos]
    rfl

/-- **Every run of the emulator is one of the application**, where no two workers have the same
port and no chunk is longer than the array of `poll`: it may be that all ports that have
events can be opened, and that the events come in that order. -/
theorem exists_run {path : Port → Bytes} (hpath : Function.Injective path)
    {general config : Bytes} {files : Files} {em em' : Emulator Port}
    (hlaunch : Emulator.launch general config files = .ok em) {es : List (Event Port)}
    {ws : List (Observation Port)} (hshort : ∀ e ∈ es, e.chunk.length ≤ Serial.readSize)
    (hrun : Emulator.machine.run em es = some (em', ws)) :
    ∃ actions a os, (∀ action ∈ actions, action.Fits) ∧
      (machine path).run (start em) actions = some (a, os) ∧
      os.reduceOption = es.zip ws ∧ a.emulator = em' := by
  have hready : ∀ port ∈ (es.map Event.port).dedup, (start em).workers port = .ready :=
    fun _ _ => rfl
  obtain ⟨actions, a, os, hfits, hstarts, hnone, hrunning⟩ :=
    exists_starts hpath (sound_start path em) (List.nodup_dedup _) hready
  obtain ⟨hsound, hemulator, -, -⟩ := advances_run (sound_start path em) hstarts
  rw [emulator_start hlaunch, hnone] at hemulator
  simp only [List.map_nil, Machine.run_nil, Option.some.injEq, Prod.mk.injEq, and_true]
    at hemulator
  subst hemulator
  have hevents : ∀ e ∈ es, ∃ s, a.workers e.port = .running s := by
    intro e he
    exact hrunning e.port (List.mem_dedup.mpr (List.mem_map_of_mem he))
  obtain ⟨more, a', os', hfits', hturns, hos, hem⟩ := exists_turns hsound hevents hshort hrun
  refine ⟨_, a', _, List.forall_mem_append.mpr ⟨hfits, hfits'⟩,
    Machine.run_append hstarts hturns, ?_, hem⟩
  rw [List.reduceOption_append, hnone, hos, List.nil_append]

/-- Two blocks are read. -/
theorem exists_run_reads : ∃ em' ws actions a os,
    Emulator.machine.run (Emulator.bare : Emulator Unit)
      [Emulator.arrival () [0x11, 0x53], Emulator.arrival () [0x11, 0x54]] = some (em', ws) ∧
    (machine fun _ => bytes "COM1").run (start Emulator.bare) actions = some (a, os) ∧
    a.emulator = em' := by
  have hlaunch : Emulator.launch (bytes "general.el") (bytes "config.el") (fun _ => none) =
      .ok (Emulator.bare : Emulator Unit) := rfl
  have hdefined : (Emulator.machine.run (Emulator.bare : Emulator Unit)
      [Emulator.arrival () [0x11, 0x53], Emulator.arrival () [0x11, 0x54]]).isSome = true := by
    decide +kernel
  obtain ⟨⟨em', ws⟩, hrun⟩ := Option.isSome_iff_exists.mp hdefined
  have hpath : Function.Injective fun _ : Unit => bytes "COM1" := fun _ _ _ => rfl
  obtain ⟨actions, a, os, -, happlication, -, hem⟩ := exists_run hpath hlaunch (by decide) hrun
  exact ⟨em', ws, actions, a, os, hrun, happlication, hem⟩

/-- **main returns only if no port was ever served.**  Where every worker ends in the end, at
no point before did one run: there was no data event, the profiles and their files are as
they were loaded, and no handle is open. -/
theorem ended_only_unserved {path : Port → Bytes} {general config : Bytes} {files : Files}
    {em : Emulator Port} (hlaunch : Emulator.launch general config files = .ok em)
    {actions more : List (Action Port)} {a a' : Application Port}
    {os os' : List (Option (Event Port × Observation Port))}
    (hrun : (machine path).run (start em) actions = some (a, os))
    (hmore : (machine path).run a more = some (a', os'))
    (hended : ∀ port, a'.workers port = .ended) :
    (∀ port s, a.workers port ≠ .running s) ∧ os.reduceOption = [] ∧ a.emulator = em ∧
      a.os.opened = [] := by
  obtain ⟨hsound, hemulator, -, hevents⟩ := advances_run (sound_start path em) hrun
  obtain ⟨-, -, hstays, -⟩ := advances_run hsound hmore
  rw [emulator_start hlaunch] at hemulator
  have hnever : ∀ port s, a.workers port ≠ .running s := by
    intro port s hs
    obtain ⟨s', hs'⟩ := hstays hs
    rw [hended port] at hs'
    simp at hs'
  have hnone : os.reduceOption = [] := by
    rw [List.eq_nil_iff_forall_not_mem]
    intro x hx
    obtain ⟨s, hs⟩ := hevents x hx
    exact hnever _ s hs
  refine ⟨hnever, hnone, ?_, ?_⟩
  · rw [hnone] at hemulator
    simp only [List.map_nil, Machine.run_nil, Option.some.injEq, Prod.mk.injEq, and_true]
      at hemulator
    exact hemulator.symm
  · rw [List.eq_nil_iff_forall_not_mem]
    intro x hx
    obtain ⟨port, s, hs, -⟩ := (hsound.mem_opened_iff x).mp hx
    exact hnever port s hs

/-- The first port cannot be opened, and the second one cannot be set up; between the two
failures nothing is served either. -/
theorem ended_only_unserved_none : ∃ a os a' os',
    (machine fun port : Bool => if port then bytes "COM1" else bytes "COM2").run
      (start Emulator.bare) [.start true ⟨none, true, true, true⟩] = some (a, os) ∧
    (machine fun port : Bool => if port then bytes "COM1" else bytes "COM2").run a
      [.start false ⟨some 7, true, false, true⟩] = some (a', os') ∧
    (∀ port, a'.workers port = .ended) ∧ a.os.opened = [] := by
  have hlaunch : Emulator.launch (bytes "general.el") (bytes "config.el") (fun _ => none) =
      .ok (Emulator.bare : Emulator Bool) := rfl
  obtain ⟨a, os, hrun, hboth⟩ : ∃ a os,
      (machine fun port : Bool => if port then bytes "COM1" else bytes "COM2").run
        (start Emulator.bare) [.start true ⟨none, true, true, true⟩] = some (a, os) ∧
      ∃ a' os', (machine fun port : Bool => if port then bytes "COM1" else bytes "COM2").run a
        [.start false ⟨some 7, true, false, true⟩] = some (a', os') ∧
        ∀ port, a'.workers port = .ended :=
    ⟨_, _, rfl, _, _, rfl, fun port => by cases port <;> rfl⟩
  obtain ⟨a', os', hmore, hended⟩ := hboth
  exact ⟨a, os, a', os', hrun, hmore, hended, (ended_only_unserved hlaunch hrun hmore hended).2.2.2⟩

end Application

end BafangEmulator
