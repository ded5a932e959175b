/-
  Controller.lean --- what the emulator is for: a controller with readable and
  writable settings behind serial ports.

  This is the abstract level, in terms of the settings alone.  A controller is a
  bank of three payloads and a general block; it answers requests.  A bench is a
  controller with ports.  There are no profiles here, no defaults that get filled
  in, no files and no exceptions.

  The emulator is that bench as long as its saves and its serial writes succeed and what
  it dumps into its log can be dumped (`step_refines`, `run_refines`): seen through
  `view`, each of its steps is a step of the bench, with the same packets sent.
-/
import BafangEmulator.Emulator
import BafangEmulator.Foundation.Register
import BafangEmulator.Reception

set_option autoImplicit false

namespace BafangEmulator

open Foundation

/-! ## The abstract level -/

/-- What the blocks of a controller read as, where that is defined. -/
structure Controller where
  general : Option Bytes
  blocks : Block → Option Bytes

namespace Controller

/-- The answer to a request, and the controller after it. -/
def answer (c : Controller) : Request → Option (Controller × Bytes)
  | .readGeneral => c.general.map fun payload => (c, responsePacket .general payload)
  | .readBlock b => (c.blocks b).map fun payload => (c, responsePacket b.type payload)
  | .writeBlock b packet =>
    match rejection b.fields packet.payload.toList with
    | some status => some (c, responseStatusPacket b.type status)
    | none =>
      some ({ c with blocks := Function.update c.blocks b (some packet.payload.toList) },
        responseStatusPacket b.type b.success)

/-- What is kept of a receive buffer, the controller, and the packets sent, once the
buffer has been looked at. -/
def handle (c : Controller) (data : Bytes) : Option (Bytes × Controller × List Bytes) :=
  match judge data with
  | .wait => some (data, c, [])
  | .corrupt => some (data, c, [])
  | .unsupported => some ([], c, [])
  | .request r => (c.answer r).map fun a => ([], a.1, [a.2])

/-- A read leaves the controller alone. -/
theorem answer_read {c c' : Controller} {r : Request} {packet : Bytes}
    (hcommand : r.command = .read) (h : c.answer r = some (c', packet)) : c' = c := by
  cases r with
  | readGeneral =>
    obtain ⟨payload, -, heq⟩ := Option.map_eq_some_iff.mp h
    exact (Prod.mk.inj heq).1.symm
  | readBlock b =>
    obtain ⟨payload, -, heq⟩ := Option.map_eq_some_iff.mp h
    exact (Prod.mk.inj heq).1.symm
  | writeBlock b request => simp [Request.command] at hcommand

/-- A write is rejected, or sets its block. -/
theorem answer_write {c c' : Controller} {b : Block} {request : RequestPacket b.payloadSize}
    {packet : Bytes} (h : c.answer (.writeBlock b request) = some (c', packet)) :
    (∃ status, rejection b.fields request.payload.toList = some status ∧ c' = c ∧
      packet = responseStatusPacket b.type status) ∨
    (Accepted b request.payload.toList ∧
      c' = { c with blocks := Function.update c.blocks b (some request.payload.toList) } ∧
      packet = responseStatusPacket b.type b.success) := by
  simp only [answer] at h
  cases hreject : rejection b.fields request.payload.toList with
  | some status =>
    rw [hreject, Option.some.injEq, Prod.mk.injEq] at h
    exact Or.inl ⟨status, rfl, h.1.symm, h.2.symm⟩
  | none =>
    rw [hreject, Option.some.injEq, Prod.mk.injEq] at h
    exact Or.inr ⟨hreject, h.1.symm, h.2.symm⟩

/-- An answer starts with the type byte of the request. -/
theorem head?_answer {c c' : Controller} {r : Request} {packet : Bytes}
    (h : c.answer r = some (c', packet)) : packet.head? = some r.type.toByte := by
  cases r with
  | readGeneral =>
    obtain ⟨payload, -, heq⟩ := Option.map_eq_some_iff.mp h
    rw [← (Prod.mk.inj heq).2]
    rfl
  | readBlock b =>
    obtain ⟨payload, -, heq⟩ := Option.map_eq_some_iff.mp h
    rw [← (Prod.mk.inj heq).2]
    rfl
  | writeBlock b request =>
    rcases answer_write h with ⟨status, -, -, rfl⟩ | ⟨-, -, rfl⟩
    · rfl
    · rfl

/-- A buffer that is handled gets no answer and changes nothing, or holds a request
and gets its answer. -/
theorem handle_cases {c c' : Controller} {data kept : Bytes} {sent : List Bytes}
    (h : c.handle data = some (kept, c', sent)) :
    (c' = c ∧ sent = []) ∨
    ∃ r packet, judge data = .request r ∧ c.answer r = some (c', packet) ∧ sent = [packet] := by
  unfold handle at h
  cases hjudge : judge data with
  | wait =>
    simp only [hjudge, Option.some.injEq, Prod.mk.injEq] at h
    exact Or.inl ⟨h.2.1.symm, h.2.2.symm⟩
  | corrupt =>
    simp only [hjudge, Option.some.injEq, Prod.mk.injEq] at h
    exact Or.inl ⟨h.2.1.symm, h.2.2.symm⟩
  | unsupported =>
    simp only [hjudge, Option.some.injEq, Prod.mk.injEq] at h
    exact Or.inl ⟨h.2.1.symm, h.2.2.symm⟩
  | request r =>
    simp only [hjudge] at h
    obtain ⟨⟨c₁, packet⟩, hanswer, heq⟩ := Option.map_eq_some_iff.mp h
    simp only [Prod.mk.injEq] at heq
    obtain ⟨-, rfl, rfl⟩ := heq
    exact Or.inr ⟨r, packet, rfl, hanswer, rfl⟩

end Controller

/-- A controller behind ports. -/
structure Bench (Port : Type) where
  buffers : Port → Bytes
  controller : Controller

/-- The bench as a machine. -/
def Bench.machine {Port : Type} [DecidableEq Port] :
    Machine (Bench Port) (Event Port) (Observation Port) where
  step w e :=
    (w.controller.handle (w.buffers e.port ++ e.chunk)).map fun a =>
      ({ buffers := Function.update w.buffers e.port a.1, controller := a.2.1 },
        { port := e.port, received := w.buffers e.port ++ e.chunk, written := a.2.2 })

/-! ## Refinement -/

/-- The controller that two profiles stand for. -/
def controllerOf (general config : Profile) : Controller where
  general := servedGeneral general
  blocks := served config

/-- The bench that an emulator stands for. -/
def Emulator.view {Port : Type} (em : Emulator Port) : Bench Port where
  buffers := em.buffers
  controller := controllerOf em.general em.config

/-- What is not answerable has no answer. -/
theorem answer_of_not_answerable {general config : Profile} {r : Request}
    (h : ¬ Answerable general config r) : (controllerOf general config).answer r = none := by
  cases r with
  | readGeneral =>
    have hnone : servedGeneral general = none := by
      rwa [← Option.not_isSome_iff_eq_none, isSome_servedGeneral_iff]
    simp [Controller.answer, controllerOf, hnone]
  | readBlock b =>
    have hnone : served config b = none := (served_eq_none_iff config b).mpr h
    simp [Controller.answer, controllerOf, hnone]
  | writeBlock b packet => exact absurd trivial h

/-- A request is served as the controller answers it. -/
theorem Serves.answer {s s' : Session} {r : Request} (hwritten : s.written = [])
    (h : Serves .working s r s') :
    ∃ packet, (controllerOf s.general s.config).answer r =
        some (controllerOf s'.general s'.config, packet) ∧ s'.written = [packet] := by
  cases h with
  | @generalOnDisk payload hserved hexists =>
    refine ⟨responsePacket .general payload, ?_, written_reply_working hwritten _⟩
    simp only [Controller.answer, controllerOf, hserved, Option.map_some, Session.reply]
  | @generalSaved payload t hserved hexists hopens hfill hfiles =>
    have hgeneral : servedGeneral (Profile.saved s.general.filename t).profile = some payload := by
      rw [servedGeneral_saved, hfill.servedGeneral_eq, hserved]
    refine ⟨responsePacket .general payload, ?_, written_reply_working hwritten _⟩
    simp only [Controller.answer, controllerOf, hserved, Option.map_some, Session.reply,
      Session.setGeneralStore, hgeneral]
  | generalUnsaved hserved hexists hopens hfill => simp [Environment.working] at hopens
  | @block b payload p hserved hfill =>
    have hblocks : served p = served s.config := funext hfill.served_eq
    refine ⟨responsePacket b.type payload, ?_, written_reply_working hwritten _⟩
    simp only [Controller.answer, controllerOf, hserved, Option.map_some, Session.reply, hblocks]
  | @rejected b packet status hreject =>
    refine ⟨responseStatusPacket b.type status, ?_, written_reply_working hwritten _⟩
    simp only [Controller.answer, hreject, Session.reply]
  | @accepted b packet haccept hopens =>
    have hblocks : served (Profile.saved s.config.filename
        ⟨committed s.config b packet.payload.toList, s.files⟩).profile =
          Function.update (served s.config) b (some packet.payload.toList) := by
      rw [served_saved, served_committed packet.payload.toList_length haccept]
    refine ⟨responseStatusPacket b.type b.success, ?_, written_reply_working hwritten _⟩
    have hnone : rejection b.fields packet.payload.toList = none := haccept
    simp only [Controller.answer, hnone, controllerOf, Session.reply, Session.setConfigStore,
      hblocks]
  | unsaved haccept hopens => simp [Environment.working] at hopens

/-- A request that is not answerable is not handled. -/
theorem handle_of_not_answerable {general config : Profile} {data : Bytes}
    (h : ¬ (judge data).Answerable general config) :
    (controllerOf general config).handle data = none := by
  unfold Controller.handle
  cases hjudge : judge data with
  | wait => exact absurd (by rw [hjudge]; trivial) h
  | corrupt => exact absurd (by rw [hjudge]; trivial) h
  | unsupported => exact absurd (by rw [hjudge]; trivial) h
  | request r =>
    rw [hjudge] at h
    simp only [answer_of_not_answerable h, Option.map_none]

/-- A buffer is handled as the controller handles it. -/
theorem Handles.handle {s s' : Session} (hwritten : s.written = [])
    (h : Handles .working s (judge s.buffer) s') :
    (controllerOf s.general s.config).handle s.buffer =
      some (s'.buffer, controllerOf s'.general s'.config, s'.written) := by
  unfold Controller.handle
  cases hjudge : judge s.buffer with
  | wait =>
    rw [hjudge] at h
    cases h
    rw [hwritten]
  | corrupt =>
    rw [hjudge] at h
    cases h
    rw [hwritten]
  | unsupported =>
    rw [hjudge] at h
    cases h
    rw [hwritten]
  | request r =>
    rw [hjudge] at h
    cases h with
    | request hserves =>
      have hflushed : ({ s with buffer := [] } : Session).written = [] := hwritten
      obtain ⟨packet, hanswer, hpacket⟩ := hserves.answer hflushed
      have hbuffer : s'.buffer = [] := hserves.buffer_eq
      simp only [hanswer, Option.map_some, hpacket, hbuffer]

namespace Emulator

variable {Port : Type} [DecidableEq Port]

/-- **One step of the emulator is one step of the bench** when saves and serial
writes succeed and the dumps can be made. -/
theorem step_refines {em : Emulator Port} {e : Event Port} (hworking : e.env = .working)
    (hprintable : em.Printable e) :
    (machine.step em e).map (Prod.map view id) = Bench.machine.step em.view e := by
  rcases step_cases em e with ⟨hnot, hstep⟩ | ⟨-, s', hhandles, hstep⟩
  · have hnone : em.view.controller.handle (em.view.buffers e.port ++ e.chunk) = none :=
      handle_of_not_answerable fun h => hnot ⟨hprintable, h⟩
    simp only [Bench.machine, hnone, hstep, Option.map_none]
  · rw [hworking] at hhandles
    have hsome : em.view.controller.handle (em.view.buffers e.port ++ e.chunk) =
        some (s'.buffer, controllerOf s'.general s'.config, s'.written) :=
      hhandles.handle rfl
    simp only [Bench.machine, hsome, hstep, Option.map_some]
    rfl

/-- A run is defined exactly when the dumps can be made and what is asked for can be
answered, at each of its events. -/
theorem isSome_run_iff (em : Emulator Port) (es : List (Event Port)) :
    (machine.run em es).isSome = true ↔
      machine.Along Printable em es ∧ machine.Along Answerable em es :=
  (Machine.isSome_run_iff isSome_step_iff).trans Machine.along_and_iff

/-- **The emulator runs as the bench does**, whatever the ports receive, when saves
and serial writes succeed and the dumps can be made. -/
theorem run_refines {em : Emulator Port} {es : List (Event Port)}
    (hworking : ∀ e ∈ es, e.env = .working) (hprintable : machine.Along Printable em es) :
    (machine.run em es).map (Prod.map view id) = Bench.machine.run em.view es :=
  Machine.run_refinement (P := fun em e => e.env = .working ∧ em.Printable e)
    (fun h => step_refines h.1 h.2)
    ((Machine.along_and_iff (Q := Printable)).mpr ⟨Machine.along_of_forall hworking, hprintable⟩)

/-- A step of the emulator, seen as a step of the bench. -/
theorem view_step {em em' : Emulator Port} {e : Event Port} {o : Observation Port}
    (hworking : e.env = .working) (h : machine.step em e = some (em', o)) :
    Bench.machine.step em.view e = some (em'.view, o) := by
  have hdefined := (isSome_step_iff em e).mp (by rw [h]; rfl)
  rw [← step_refines hworking hdefined.1, h]
  rfl

/-- A run of the emulator, seen as a run of the bench. -/
theorem view_run {em em' : Emulator Port} {es : List (Event Port)} {os : List (Observation Port)}
    (hworking : ∀ e ∈ es, e.env = .working) (h : machine.run em es = some (em', os)) :
    Bench.machine.run em.view es = some (em'.view, os) := by
  have hdefined := (isSome_run_iff em es).mp (by rw [h]; rfl)
  rw [← run_refines hworking hdefined.1, h]
  rfl

end Emulator

end BafangEmulator
