/-
  Workers.lean --- Source.cpp: the workers of the ports, running at the same time.

  Every port has a worker in a thread of its own.  It reads from the port without
  the mutex and runs `on_data_available` with the mutex held, and the statements of
  the workers interleave as the scheduler likes.

  `Emulator.lean` takes each data event as one step.  `interleaved_iff` is what entitles
  it to: the workers show the same histories, event by event.  What is true of every
  run of `Emulator.machine` is so true of the threads.

  `trace::message` has a mutex of its own, which the workers also take.  It is left out
  here: a worker has it for the length of one message and waits for nothing meanwhile.
-/
import BafangEmulator.Foundation.CriticalSection
import BafangEmulator.Emulator
import BafangEmulator.Stepwise

set_option autoImplicit false

namespace BafangEmulator

open Foundation

/-- What the workers share. -/
structure Shared where
  general : Profile
  config : Profile
  files : Files

/-- What a worker has to itself. -/
structure Own where
  /-- The receive buffer of the port. -/
  buffer : Bytes
  /-- The packets written to the port in the present event. -/
  written : List Bytes

namespace Workers

variable {Port : Type}

/-- What the handler of a worker works on. -/
def session (s : Shared × Own) : Session where
  buffer := s.2.buffer
  written := s.2.written
  general := s.1.general
  config := s.1.config
  files := s.1.files

/-- Put it back. -/
def setSession (t : Session) (_ : Shared × Own) : Shared × Own :=
  (⟨t.general, t.config, t.files⟩, ⟨t.buffer, t.written⟩)

theorem lens_session : Code.Lens session setSession where
  view_put _ _ := rfl
  put_view _ := rfl
  put_put _ _ _ := rfl

/-- The workers of the ports. -/
def threads : Threads Port Shared Own Exception (Event Port) (Observation Port) where
  thread := Event.port
  arrive e own := { buffer := own.buffer ++ e.chunk, written := [] }
  body e := (Stepwise.onDataAvailable e.env).zoom session setSession
  observe e entry exit := { port := e.port, received := entry.2.buffer, written := exit.2.written }

/-- The emulator a state of the workers stands for. -/
def emulator (a : Shared × (Port → Own)) : Emulator Port where
  buffers port := (a.2 port).buffer
  general := a.1.general
  config := a.1.config
  files := a.1.files

/-- The workers of an emulator, before anything is written. -/
def ofEmulator (em : Emulator Port) : Shared × (Port → Own) :=
  (⟨em.general, em.config, em.files⟩, fun port => ⟨em.buffers port, []⟩)

@[simp] theorem emulator_ofEmulator (em : Emulator Port) : emulator (ofEmulator em) = em := rfl

/-- What the code of an event comes to. -/
theorem body_run (e : Event Port) (s : Shared × Own) :
    ((threads.body e).run s).state? =
      (SerialHandler.onDataAvailable e.env (session s)).state?.map fun t => setSession t s := by
  rw [threads, Code.run_zoom lens_session, Stepwise.onDataAvailable_run, Exec.zoom_run]
  cases SerialHandler.onDataAvailable e.env (session s) <;> rfl

variable [DecidableEq Port]

/-- An event as one step is a step of the emulator. -/
theorem atomic_step (a : Shared × (Port → Own)) (e : Event Port) :
    (threads.atomic.step a e).map (Prod.map emulator id) =
      Emulator.machine.step (emulator a) e := by
  have hentry : session (threads.entry a e) = (emulator a).arrived e := rfl
  have hpoll : SerialHandler.poll e.env e.chunk ((emulator a).session e.port) =
      SerialHandler.onDataAvailable e.env ((emulator a).arrived e) := rfl
  simp only [Threads.atomic, Emulator.machine, body_run, hentry, hpoll]
  cases (SerialHandler.onDataAvailable e.env ((emulator a).arrived e)).state? with
  | none => rfl
  | some t =>
    simp only [Option.map_some, Prod.map_apply, id_eq, Option.some.injEq, Prod.mk.injEq]
    refine ⟨?_, rfl⟩
    -- The buffers: the worker's own one, and those left alone.
    simp only [emulator, Emulator.conclude, Threads.leave, Emulator.mk.injEq]
    refine ⟨funext fun port => ?_, rfl, rfl, rfl⟩
    rcases eq_or_ne port e.port with rfl | hne
    · rw [Function.update_self]
      exact congrArg Own.buffer (Function.update_self (β := fun _ => Own) _ _ _)
    · rw [Function.update_of_ne hne]
      exact congrArg Own.buffer (Function.update_of_ne hne _ _)

theorem atomic_run (a : Shared × (Port → Own)) (es : List (Event Port)) :
    (threads.atomic.run a es).map (Prod.map emulator id) =
      Emulator.machine.run (emulator a) es :=
  Machine.run_refinement (P := fun _ _ => True) (fun _ => atomic_step _ _)
    (Machine.along_of_forall (P := fun _ => True) fun _ _ => trivial)

/-- The workers between two actions of any of them. -/
abbrev State (Port : Type) : Type :=
  Threads.Config Port Shared Own Exception (Event Port)

/-- No worker has data to handle. -/
def Quiet (c : State Port) : Prop := ∀ port, c.phase port = .outside

/-- **The threads are the emulator.**  Between states in which no worker has data to
handle, the interleaved statements of the workers show the histories of data events that
the emulator shows, in the order in which the workers release the mutex, and lead to the
same profiles, files and buffers. -/
theorem interleaved_iff (em em' : Emulator Port)
    (history : List (Event Port × Observation Port)) :
    (∃ schedule c os,
      threads.interleaved.run (Threads.start (ofEmulator em)) schedule = some (c, os) ∧
        Quiet c ∧ emulator (c.shared, c.own) = em' ∧ os.reduceOption = history) ↔
    Emulator.machine.run em (history.map Prod.fst) = some (em', history.map Prod.snd) := by
  constructor
  · rintro ⟨schedule, c, os, hrun, hquiet, rfl, rfl⟩
    have hc : c = Threads.start (c.shared, c.own) := by
      obtain ⟨a, -, hrep⟩ := Threads.run_atomic (Threads.represents_start _) hrun
      have hfree : c.holder = none := by
        cases hholder : c.holder with
        | none => rfl
        | some port =>
          have hinside := (hrep.inside_iff port).mpr hholder
          rw [hquiet port] at hinside
          simp [Threads.Phase.isInside] at hinside
      obtain ⟨shared, own, phase, holder⟩ := c
      obtain rfl : phase = fun _ => .outside := funext hquiet
      obtain rfl : holder = none := hfree
      rfl
    have hatomic := (Threads.history_iff _ _ _).mp ⟨schedule, os, hc ▸ hrun, rfl⟩
    rw [← emulator_ofEmulator em, ← atomic_run, hatomic]
    rfl
  · intro h
    rw [← emulator_ofEmulator em, ← atomic_run] at h
    obtain ⟨⟨a', os'⟩, hatomic, hresult⟩ := Option.map_eq_some_iff.mp h
    obtain ⟨rfl, rfl⟩ := Prod.mk.inj hresult
    obtain ⟨schedule, os, hrun, hhistory⟩ := (Threads.history_iff _ _ _).mpr hatomic
    exact ⟨schedule, Threads.start a', os, hrun, fun _ => rfl, rfl, hhistory⟩

/-! ## In the middle of a run -/

/-- Where a worker is, when the emulator `em` has taken the events of all workers that
are through with theirs. -/
def Follows (em : Emulator Port) (c : State Port) (port : Port) : Prop :=
  match c.phase port with
  | .outside => (c.own port).buffer = em.buffers port
  | .waiting e => e.port = port ∧ (c.own port).buffer = em.received e
  | .inside e _ rest => e.port = port ∧ c.holder = some port ∧
      (rest.run (c.shared, c.own port)).state?.map session =
        (SerialHandler.onDataAvailable e.env (em.arrived e)).state?

omit [DecidableEq Port] in
/-- A worker that agrees with the atomic machine follows the emulator. -/
theorem follows_of_represents {c : State Port} {a : Shared × (Port → Own)}
    (h : Threads.Represents threads c a) (port : Port) : Follows (emulator a) c port := by
  have hagrees := h.agrees port
  rw [Follows]
  cases hphase : c.phase port with
  | outside =>
    rw [hphase] at hagrees
    exact congrArg Own.buffer hagrees
  | waiting e =>
    rw [hphase] at hagrees
    obtain ⟨rfl, hown⟩ := hagrees
    exact ⟨rfl, congrArg Own.buffer hown⟩
  | inside e entry rest =>
    rw [hphase] at hagrees
    obtain ⟨rfl, rfl, hrest⟩ := hagrees
    refine ⟨rfl, (h.inside_iff _).mp (by rw [hphase]; rfl), ?_⟩
    have hentry : session (threads.entry a e) = (emulator a).arrived e := rfl
    rw [hrest, body_run, hentry, Option.map_map]
    exact Option.map_id'

/-- **Mutual exclusion and progress.**  At any point of any interleaving at most one worker
is inside its handler; the emulator has taken the events that the workers are through with,
and every worker follows it; the shared profiles are the emulator's whenever the mutex is
free; and where a worker has data to handle, some worker can go on, or one has come to
undefined behaviour.  The mutex is the one of the handlers, and not that of the trace. -/
theorem exclusive {em : Emulator Port} {schedule : List (Threads.Action Port (Event Port))}
    {c : State Port} {os : List (Option (Event Port × Observation Port))}
    (hrun : threads.interleaved.run (Threads.start (ofEmulator em)) schedule = some (c, os)) :
    (∀ port port', (c.phase port).isInside = true → (c.phase port').isInside = true →
      port = port') ∧
    (∃ em', Emulator.machine.run em (os.reduceOption.map Prod.fst) =
        some (em', os.reduceOption.map Prod.snd) ∧
      (c.holder = none → c.shared = ⟨em'.general, em'.config, em'.files⟩) ∧
      ∀ port, Follows em' c port) ∧
    (¬ Quiet c → ∃ port, (c.phase port).IsUndefined ∨
      ∃ action ∈ [.lock port, .act port, .unlock port],
        (threads.interleaved.step c action).isSome = true) := by
  obtain ⟨a, hatomic, hrep⟩ := Threads.run_atomic (Threads.represents_start _) hrun
  refine ⟨fun port port' => hrep.eq_of_inside, ⟨emulator a, ?_, hrep.shared_eq, ?_⟩, fun h => ?_⟩
  · rw [← emulator_ofEmulator em, ← atomic_run, hatomic]
    rfl
  · exact follows_of_represents hrep
  · obtain ⟨port, hport⟩ := not_forall.mp h
    exact hrep.progress hport

/-- Two ports receive; the second worker gets the mutex and is in the middle of its
handler. -/
def contention : List (Threads.Action Bool (Event Bool)) :=
  [.arrive (Emulator.arrival false [0x11, 0x52]), .arrive (Emulator.arrival true [0x11, 0x53]),
    .lock true, .act true, .act true]

/-- Nobody else is inside then. -/
theorem exclusive_contention : ∃ c os,
    threads.interleaved.run (Threads.start (ofEmulator Emulator.bare)) contention = some (c, os) ∧
    ∀ port, (c.phase port).isInside = true → port = true := by
  have hinside : (threads.interleaved.run (Threads.start (ofEmulator Emulator.bare))
      contention).map (fun r => (r.1.phase true).isInside) = some true := by decide +kernel
  obtain ⟨⟨c, os⟩, hrun, hin⟩ := Option.map_eq_some_iff.mp hinside
  exact ⟨c, os, hrun, fun port hport => (exclusive hrun).1 port true hport hin⟩

end Workers

end BafangEmulator
