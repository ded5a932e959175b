/-
  Emulator.lean --- Source.cpp: several ports on two shared profiles.

  Every port has a worker of its own, which polls it for ever.  A worker touches
  the profiles with the mutex held only, from the moment data has arrived until
  the handler is done, so a run of the program is a sequence of data events in
  the order in which the workers take the mutex: any order at all.

  Nothing here depends on how many ports there are.
-/
import BafangEmulator.Foundation.Machine
import BafangEmulator.SerialHandler

set_option autoImplicit false

namespace BafangEmulator

open Foundation

/-- The emulator between two data events. -/
structure Emulator (Port : Type) where
  /-- The receive buffer of every port. -/
  buffers : Port → Bytes
  general : Profile
  config : Profile
  files : Files

/-- A data event. -/
structure Event (Port : Type) where
  /-- The port on which data arrived. -/
  port : Port
  /-- What `ReadFile` returned, possibly nothing. -/
  chunk : Bytes
  /-- How the world outside behaves during the event. -/
  env : Environment

/-- What there is to see of a data event. -/
structure Observation (Port : Type) where
  port : Port
  /-- The receive buffer the handler found. -/
  received : Bytes
  /-- The packets written to the port. -/
  written : List Bytes
  deriving DecidableEq

namespace Emulator

variable {Port : Type}

/-- The start of `main`: both profiles are loaded, and no port has received
anything. -/
def launch (general config : Bytes) (files : Files) : Except Exception (Emulator Port) :=
  match Profile.construct general files, Profile.construct config files with
  | .error e, _ => .error e
  | .ok _, .error e => .error e
  | .ok g, .ok c => .ok { buffers := fun _ => [], general := g, config := c, files := files }

/-- What the handler of a port works on. -/
def session (em : Emulator Port) (port : Port) : Session where
  buffer := em.buffers port
  written := []
  general := em.general
  config := em.config
  files := em.files

/-- The receive buffer once the data of an event has been appended. -/
def received (em : Emulator Port) (e : Event Port) : Bytes := em.buffers e.port ++ e.chunk

/-- The session of an event as the handler finds it. -/
def arrived (em : Emulator Port) (e : Event Port) : Session :=
  { em.session e.port with buffer := em.received e }

/-- All that is dumped at an event can be. -/
def Printable (em : Emulator Port) (e : Event Port) : Prop := (em.arrived e).Printable e.env

/-- What is asked for at an event, if anything is, can be answered. -/
def Answerable (em : Emulator Port) (e : Event Port) : Prop := (em.arrived e).Answerable

instance (em : Emulator Port) (e : Event Port) : Decidable (em.Printable e) :=
  inferInstanceAs (Decidable ((em.arrived e).Printable e.env))

instance (em : Emulator Port) (e : Event Port) : Decidable (em.Answerable e) :=
  inferInstanceAs (Decidable (em.arrived e).Answerable)

variable [DecidableEq Port]

/-- The emulator after a session on one of its ports. -/
def conclude (em : Emulator Port) (port : Port) (s : Session) : Emulator Port where
  buffers := Function.update em.buffers port s.buffer
  general := s.general
  config := s.config
  files := s.files

/-- The emulator as a machine: a step is one turn of the polling loop of a port. -/
def machine : Machine (Emulator Port) (Event Port) (Observation Port) where
  step em e :=
    (SerialHandler.poll e.env e.chunk (em.session e.port)).state?.map fun s =>
      (em.conclude e.port s, { port := e.port, received := em.received e, written := s.written })

/-! ## One step -/

/-- A step either is undefined, on a dump with a conversion in it or on a request that is
not answerable, or ends as the handler does. -/
theorem step_cases (em : Emulator Port) (e : Event Port) :
    (¬ (em.Printable e ∧ em.Answerable e) ∧ machine.step em e = none) ∨
    ((em.Printable e ∧ em.Answerable e) ∧
      ∃ s', Handles e.env (em.arrived e) (judge (em.received e)) s' ∧
        machine.step em e = some (em.conclude e.port s',
          { port := e.port, received := em.received e, written := s'.written })) := by
  have hpoll : SerialHandler.poll e.env e.chunk (em.session e.port) =
      SerialHandler.onDataAvailable e.env (em.arrived e) := rfl
  rcases SerialHandler.onDataAvailable_cases e.env (em.arrived e) with
    ⟨hnot, hrun⟩ | ⟨hdefined, s', hrun, hhandles⟩
  · refine Or.inl ⟨hnot, ?_⟩
    simp only [machine, hpoll, hrun, Outcome.state?_undefined, Option.map_none]
  · refine Or.inr ⟨hdefined, s', hhandles, ?_⟩
    simp only [machine, hpoll, hrun, Outcome.state?_returned, Option.map_some]

/-- A step is defined when its dumps are and what is asked for is. -/
theorem isSome_step_iff (em : Emulator Port) (e : Event Port) :
    (machine.step em e).isSome = true ↔ em.Printable e ∧ em.Answerable e := by
  rcases step_cases em e with ⟨hnot, hstep⟩ | ⟨hdefined, s', -, hstep⟩
  · rw [hstep]
    exact iff_of_false (by simp) hnot
  · rw [hstep]
    exact iff_of_true rfl hdefined

/-- **What a step does.** -/
theorem handles_of_step {em em' : Emulator Port} {e : Event Port} {o : Observation Port}
    (h : machine.step em e = some (em', o)) :
    ∃ s', Handles e.env (em.arrived e) (judge (em.received e)) s' ∧
      em' = em.conclude e.port s' ∧
      o = { port := e.port, received := em.received e, written := s'.written } := by
  rcases step_cases em e with ⟨-, hstep⟩ | ⟨-, s', hhandles, hstep⟩
  · rw [h] at hstep
    simp at hstep
  · rw [h, Option.some.injEq, Prod.mk.injEq] at hstep
    exact ⟨s', hhandles, hstep.1, hstep.2⟩

@[simp] theorem conclude_buffers_self (em : Emulator Port) (port : Port) (s : Session) :
    (em.conclude port s).buffers port = s.buffer := by
  simp only [conclude, Function.update_self]

/-- The buffers of the other ports are not touched. -/
theorem conclude_buffers_of_ne {em : Emulator Port} {port port' : Port} (h : port' ≠ port)
    (s : Session) : (em.conclude port s).buffers port' = em.buffers port' := by
  simp only [conclude, Function.update_of_ne h]

/-! ## An emulator to try things on -/

/-- The emulator without files. -/
def bare : Emulator Port where
  buffers _ := []
  general := { exists_ := false, filename := bytes "general.el", data := ∅ }
  config := { exists_ := false, filename := bytes "config.el", data := ∅ }
  files := fun _ => none

/-- Data that arrives while everything works. -/
def arrival (port : Port) (chunk : Bytes) : Event Port where
  port := port
  chunk := chunk
  env := .working

end Emulator

end BafangEmulator
