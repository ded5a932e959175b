/-
  AcknowledgedWrites.lean --- what one port sees of the others.

  All that a block ever reads as is the payload of the last write of it that was
  acknowledged, on whatever port, or what the profile held at first
  (`read_after_write`).  So acknowledged writes are the only thing that one port
  sees of another, as long as no port receives or sends what cannot be dumped
  (`ports_isolated_iff`).  Both are properties of the bench, where a block is a register;
  the emulator has them because it runs as the bench does.
-/
import BafangEmulator.Controller

set_option autoImplicit false

namespace BafangEmulator

open Foundation

/-! ## Acknowledged writes -/

/-- The write that a data event acknowledged, as an onlooker has it: there was a
write of the block at the head of the buffer, and success was the answer. -/
def Observation.ackedWrite {Port : Type} (o : Observation Port) : Option (Block × Bytes) :=
  [Block.basic, Block.pedal, Block.throttle].findSome? fun b =>
    if o.received.take 2 = [PacketCommands.write.toByte, b.type.toByte] ∧
        o.written = [responseStatusPacket b.type b.success] then
      some (b, (o.received.drop 3).take b.payloadSize)
    else none

namespace Observation

variable {Port : Type} {o : Observation Port}

theorem ackedWrite_eq_none (h : ∀ b : Block,
    o.received.take 2 = [PacketCommands.write.toByte, b.type.toByte] →
      o.written ≠ [responseStatusPacket b.type b.success]) : o.ackedWrite = none := by
  refine List.findSome?_eq_none_iff.mpr fun b _ => if_neg ?_
  rintro ⟨hhead, hwritten⟩
  exact h b hhead hwritten

theorem ackedWrite_eq_some {b : Block}
    (hhead : o.received.take 2 = [PacketCommands.write.toByte, b.type.toByte])
    (hwritten : o.written = [responseStatusPacket b.type b.success]) :
    o.ackedWrite = some (b, (o.received.drop 3).take b.payloadSize) := by
  -- The head of the buffer names one block only.
  have honly : (fun b' : Block =>
      if o.received.take 2 = [PacketCommands.write.toByte, b'.type.toByte] ∧
          o.written = [responseStatusPacket b'.type b'.success] then
        some (b', (o.received.drop 3).take b'.payloadSize)
      else none) =
      fun b' => if b' = b then some (b, (o.received.drop 3).take b.payloadSize) else none := by
    funext b'
    by_cases h : b' = b
    · rw [h, if_pos ⟨hhead, hwritten⟩, if_pos rfl]
    · rw [if_neg h, if_neg]
      rintro ⟨hhead', -⟩
      rw [hhead] at hhead'
      simp only [List.cons.injEq, and_true, true_and] at hhead'
      exact h (Block.type_injective (PacketTypes.toByte_injective hhead'.symm))
  rw [ackedWrite, honly]
  cases b <;> rfl

end Observation

namespace Controller

/-- What is sent and stored on a buffer changes the blocks as the acknowledged write
says, if there is one. -/
theorem blocks_of_handle {Port : Type} {c c' : Controller} {data kept : Bytes}
    {sent : List Bytes} (port : Port) (h : c.handle data = some (kept, c', sent)) :
    c'.blocks = applyWrite c.blocks (Observation.ackedWrite ⟨port, data, sent⟩) := by
  rcases handle_cases h with ⟨rfl, rfl⟩ | ⟨r, packet, hjudge, hanswer, rfl⟩
  · rw [Observation.ackedWrite_eq_none fun b _ => by simp, applyWrite]
  · have hjudged := judged data
    rw [hjudge] at hjudged
    cases hjudged with
    | read hcommand hhead =>
      rw [answer_read hcommand hanswer, Observation.ackedWrite_eq_none, applyWrite]
      intro b hwrite
      rw [hhead] at hwrite
      exact absurd (List.cons.inj hwrite).1 (by decide)
    | @write b p hhead hpayload =>
      rcases answer_write hanswer with ⟨status, hreject, rfl, rfl⟩ | ⟨haccept, rfl, rfl⟩
      · rw [Observation.ackedWrite_eq_none, applyWrite]
        intro b' _ hwritten
        simp only [List.cons.injEq, responseStatusPacket, and_true] at hwritten
        obtain rfl := Block.type_injective (PacketTypes.toByte_injective hwritten.1)
        exact status_ne_success hreject hwritten.2
      · rw [Observation.ackedWrite_eq_some hhead rfl, hpayload, applyWrite]

/-- The general block is read only. -/
theorem general_of_handle {c c' : Controller} {data kept : Bytes} {sent : List Bytes}
    (h : c.handle data = some (kept, c', sent)) : c'.general = c.general := by
  rcases handle_cases h with ⟨rfl, -⟩ | ⟨r, packet, -, hanswer, -⟩
  · rfl
  · cases hcommand : r.command with
    | read => rw [answer_read hcommand hanswer]
    | write =>
      cases r with
      | readGeneral => simp [Request.command] at hcommand
      | readBlock b => simp [Request.command] at hcommand
      | writeBlock b request =>
        rcases answer_write hanswer with ⟨status, -, rfl, -⟩ | ⟨-, rfl, -⟩
        · rfl
        · rfl

end Controller

namespace Bench

variable {Port : Type} [DecidableEq Port]

/-- What a step of the bench does. -/
theorem step_eq_some {w w' : Bench Port} {e : Event Port} {o : Observation Port}
    (h : machine.step w e = some (w', o)) :
    ∃ kept c sent, w.controller.handle (w.buffers e.port ++ e.chunk) = some (kept, c, sent) ∧
      w' = { buffers := Function.update w.buffers e.port kept, controller := c } ∧
      o = { port := e.port, received := w.buffers e.port ++ e.chunk, written := sent } := by
  obtain ⟨⟨kept, c, sent⟩, hhandle, heq⟩ := Option.map_eq_some_iff.mp h
  simp only [Prod.mk.injEq] at heq
  exact ⟨kept, c, sent, hhandle, heq.1.symm, heq.2.symm⟩

/-- The blocks after a run are those at first, with the acknowledged writes applied. -/
theorem run_blocks {w w' : Bench Port} {es : List (Event Port)} {os : List (Observation Port)}
    (hrun : machine.run w es = some (w', os)) :
    w'.controller.blocks =
      applyWrites w.controller.blocks (os.filterMap Observation.ackedWrite) := by
  rw [← foldl_applyWrite]
  refine Machine.run_simulation (fun w : Bench Port => w.controller.blocks) ?_ hrun
  intro w w' e o h
  obtain ⟨kept, c, sent, hhandle, rfl, rfl⟩ := step_eq_some h
  exact Controller.blocks_of_handle e.port hhandle

/-- An event without an acknowledged write leaves the controller as it is. -/
theorem controller_of_quiet {w w' : Bench Port} {e : Event Port} {o : Observation Port}
    (hquiet : o.ackedWrite = none) (h : machine.step w e = some (w', o)) :
    w'.controller = w.controller := by
  obtain ⟨kept, c, sent, hhandle, rfl, rfl⟩ := step_eq_some h
  have hblocks := Controller.blocks_of_handle e.port hhandle
  have hgeneral := Controller.general_of_handle hhandle
  rw [hquiet, applyWrite] at hblocks
  cases hw : w.controller
  cases c
  simp_all

/-- An event touches the buffer of its own port only. -/
theorem buffers_of_step {w w' : Bench Port} {e : Event Port} {o : Observation Port}
    (h : machine.step w e = some (w', o)) {port : Port} (hport : port ≠ e.port) :
    w'.buffers port = w.buffers port := by
  obtain ⟨kept, c, sent, hhandle, rfl, rfl⟩ := step_eq_some h
  simp only [Function.update_of_ne hport]

/-- The benches look the same to all ports but `b`. -/
structure SameExceptAt (b : Port) (w w' : Bench Port) : Prop where
  buffers_eq : ∀ port, port ≠ b → w.buffers port = w'.buffers port
  controller_eq : w.controller = w'.controller

/-- Two benches that look the same to a port answer it in the same way. -/
theorem SameExceptAt.step {b : Port} {w w₁ v v₁ : Bench Port} {e : Event Port}
    {o u : Observation Port} (h : SameExceptAt b w v) (he : e.port ≠ b)
    (hw : machine.step w e = some (w₁, o)) (hv : machine.step v e = some (v₁, u)) :
    SameExceptAt b w₁ v₁ ∧ o = u := by
  obtain ⟨kept, c, sent, hhandle, rfl, rfl⟩ := step_eq_some hw
  obtain ⟨kept', c', sent', hhandle', rfl, rfl⟩ := step_eq_some hv
  rw [← h.buffers_eq e.port he, ← h.controller_eq, hhandle] at hhandle'
  simp only [Option.some.injEq, Prod.mk.injEq] at hhandle'
  obtain ⟨rfl, rfl, rfl⟩ := hhandle'
  refine ⟨⟨fun port hport => ?_, rfl⟩, by rw [h.buffers_eq e.port he]⟩
  by_cases hsame : port = e.port
  · subst hsame
    simp only [Function.update_self]
  · simp only [Function.update_of_ne hsame]
    exact h.buffers_eq port hport

/-- The events of a port that gets no write acknowledged can be deleted. -/
theorem unwinding (b : Port) :
    Machine.Unwinding machine (fun e : Event Port => decide (e.port ≠ b))
      (fun o : Observation Port => decide (o.port ≠ b)) (fun o => o.ackedWrite = none)
      (SameExceptAt b) where
  shown_eq h := by
    obtain ⟨kept, c, sent, -, -, rfl⟩ := step_eq_some h
    rfl
  left hR he hquiet h := by
    have hport := of_decide_eq_false he
    simp only [ne_eq, not_not] at hport
    refine ⟨fun port hne => ?_, (controller_of_quiet hquiet h).trans hR.controller_eq⟩
    rw [buffers_of_step h (hport ▸ hne), hR.buffers_eq port hne]
  right hR he hquiet h := by
    have hport := of_decide_eq_false he
    simp only [ne_eq, not_not] at hport
    refine ⟨fun port hne => ?_, hR.controller_eq.trans (controller_of_quiet hquiet h).symm⟩
    rw [buffers_of_step h (hport ▸ hne), hR.buffers_eq port hne]
  both hR he hw hv := hR.step (of_decide_eq_true he) hw hv

end Bench

namespace Emulator

variable {Port : Type} [DecidableEq Port]

/-- **Read after write.**  After any run of any ports, a read of a block is answered
with the payload of the last acknowledged write of it, and with what `build` makes
of the profile at the start when there was none. -/
theorem read_after_write {em em' em'' : Emulator Port} {es : List (Event Port)}
    {os : List (Observation Port)} {e : Event Port} {o : Observation Port} {b : Block}
    (hworking : ∀ e' ∈ es, e'.env = .working) (hrun : machine.run em es = some (em', os))
    (hworking' : e.env = .working) (hstep : machine.step em' e = some (em'', o))
    (hread : o.received.take 2 = [PacketCommands.read.toByte, b.type.toByte]) :
    ∃ payload, (lastWrite b (os.filterMap Observation.ackedWrite)).or
        (PacketBuilder.build b em.config).value? = some payload ∧
      o.written = [responsePacket b.type payload] := by
  have hbench := view_run hworking hrun
  have hbench' := view_step hworking' hstep
  have hblock : em'.view.controller.blocks b =
      (lastWrite b (os.filterMap Observation.ackedWrite)).or (served em.config b) := by
    rw [Bench.run_blocks hbench, applyWrites_eq]
    rfl
  obtain ⟨kept, c, sent, hhandle, -, rfl⟩ := Bench.step_eq_some hbench'
  obtain ⟨rest, hdata⟩ := eq_of_take_two hread
  simp only at hdata
  rw [hdata, Controller.handle, judge_readBlock] at hhandle
  obtain ⟨⟨c', packet⟩, hanswer, heq⟩ := Option.map_eq_some_iff.mp hhandle
  obtain ⟨payload, hpayload, hpacket⟩ := Option.map_eq_some_iff.mp hanswer
  rw [hblock] at hpayload
  refine ⟨payload, by rw [PacketBuilder.value?_build, hpayload], ?_⟩
  simp only [Prod.mk.injEq] at heq hpacket
  simp only [← heq.2.2, ← hpacket.2]

/-- A throttle write on one port, as an onlooker has it. -/
def throttleWrite : Observation Bool where
  port := true
  received := ValidRequest.sampleWrite.wire
  written := [responseStatusPacket .throttle Block.throttle.success]

/-- The write on one port is what is read on the other. -/
theorem read_after_write_throttle :
    ∃ (em em' : Emulator Bool) (o : Observation Bool),
      machine.run bare [arrival true throttleWrite.received] = some (em, [throttleWrite]) ∧
      machine.step em (arrival false (ValidRequest.readBlock .throttle).wire) = some (em', o) ∧
      o.written = [responsePacket .throttle [12, 36, 1, 5, 4, 21]] := by
  have hshown : (machine.run (bare : Emulator Bool) [arrival true throttleWrite.received,
      arrival false (ValidRequest.readBlock .throttle).wire]).map (fun r =>
        (r.2.take 1, r.2.map fun o => o.received.take 2)) =
      some ([throttleWrite], [[0x16, 0x54], [0x11, 0x54]]) := by decide +kernel
  obtain ⟨⟨em', os⟩, hboth, hresult⟩ := Option.map_eq_some_iff.mp hshown
  obtain ⟨em, o₁, os', hfirst, hrest, rfl⟩ := Machine.run_cons_eq_some_iff.mp hboth
  obtain ⟨em'', o, os'', hstep, hnil, rfl⟩ := Machine.run_cons_eq_some_iff.mp hrest
  obtain ⟨hwrite, hheads⟩ := Prod.mk.inj hresult
  obtain rfl : o₁ = throttleWrite := List.singleton_inj.mp hwrite
  have hread : o.received.take 2 = [PacketCommands.read.toByte, Block.throttle.type.toByte] :=
    (List.cons.inj (List.cons.inj hheads).2).1
  have hrun : machine.run bare [arrival true throttleWrite.received] = some (em, [throttleWrite]) :=
    Machine.run_cons_eq_some_iff.mpr ⟨em, _, [], hfirst, rfl, rfl⟩
  obtain ⟨payload, hpayload, hwritten⟩ :=
    read_after_write (by simp [arrival]) hrun rfl hstep hread
  have hlast : (lastWrite Block.throttle ([throttleWrite].filterMap Observation.ackedWrite)).or
      (PacketBuilder.build Block.throttle (bare : Emulator Bool).config).value? =
        some [12, 36, 1, 5, 4, 21] := rfl
  rw [hlast, Option.some.injEq] at hpayload
  exact ⟨em, em'', o, hrun, hstep, by rw [hwritten, ← hpayload, Block.type]⟩

/-- No write of port `b` is acknowledged. -/
def Unacknowledged (b : Port) (os : List (Observation Port)) : Prop :=
  ∀ o ∈ os, o.port = b → o.ackedWrite = none

/-- Both runs come to their end, and show the ports other than `b` the same when no write of
`b` is acknowledged in them. -/
def Isolated (b : Port) (em : Emulator Port) (es fs : List (Event Port)) : Prop :=
  ∃ em₁ os em₂ us, machine.run em es = some (em₁, os) ∧ machine.run em fs = some (em₂, us) ∧
    (Unacknowledged b os → Unacknowledged b us →
      (os.filter fun o => o.port ≠ b) = us.filter fun u => u.port ≠ b)

/-- **Ports are isolated except through acknowledged writes**, and dumps.  Two runs whose
events are the same once those of port `b` are deleted, in which everything asked for can
be answered and no write of `b` is acknowledged, come to their ends and show the other
ports the same, exactly when everything that is dumped in them can be. -/
theorem ports_isolated_iff (b : Port) {em : Emulator Port} {es fs : List (Event Port)}
    (hworking : ∀ e ∈ es, e.env = .working) (hworking' : ∀ f ∈ fs, f.env = .working)
    (hsame : (es.filter fun e => e.port ≠ b) = fs.filter fun f => f.port ≠ b)
    (hanswerable : machine.Along Answerable em es)
    (hanswerable' : machine.Along Answerable em fs) :
    Isolated b em es fs ↔ machine.Along Printable em es ∧ machine.Along Printable em fs := by
  constructor
  · rintro ⟨em₁, os, em₂, us, hrun, hrun', -⟩
    exact ⟨((isSome_run_iff em es).mp (by rw [hrun]; rfl)).1,
      ((isSome_run_iff em fs).mp (by rw [hrun']; rfl)).1⟩
  · rintro ⟨hprintable, hprintable'⟩
    obtain ⟨⟨em₁, os⟩, hrun⟩ :=
      Option.isSome_iff_exists.mp ((isSome_run_iff em es).mpr ⟨hprintable, hanswerable⟩)
    obtain ⟨⟨em₂, us⟩, hrun'⟩ :=
      Option.isSome_iff_exists.mp ((isSome_run_iff em fs).mpr ⟨hprintable', hanswerable'⟩)
    refine ⟨em₁, os, em₂, us, hrun, hrun', fun hquiet hquiet' => ?_⟩
    refine Machine.run_unwinding (Bench.unwinding b) ⟨fun _ _ => rfl, rfl⟩ hsame
      (view_run hworking hrun) (view_run hworking' hrun')
      (fun o ho hhidden => hquiet o ho ?_) (fun u hu hhidden => hquiet' u hu ?_)
    · simpa using hhidden
    · simpa using hhidden

/-- Port `false` asks for the throttle block. -/
def withoutGarbage : List (Event Bool) := [arrival false [0x11], arrival false [0x54]]

/-- Port `true` receives garbage meanwhile. -/
def withGarbage (garbage : Bytes) : List (Event Bool) :=
  [arrival false [0x11], arrival true garbage, arrival false [0x54]]

/-- Port `true` receives garbage, a write that is rejected and the front of another write. -/
def withRejectedWrite : List (Event Bool) :=
  [arrival false [0x11], arrival true [0xFF, 0xFF],
    arrival true (ValidRequest.writeBlock .throttle 9 ⟨[51, 36, 1, 5, 4, 21], rfl⟩).wire,
    arrival false [0x54], arrival true [0x16, 0x52]]

/-- Port `false` is shown none of that. -/
theorem ports_isolated_garbage : Isolated true bare withRejectedWrite withoutGarbage := by
  have hworking : ∀ e ∈ withRejectedWrite, e.env = .working := by
    simp [withRejectedWrite, arrival]
  have hworking' : ∀ f ∈ withoutGarbage, f.env = .working := by simp [withoutGarbage, arrival]
  have hanswerable : machine.Along Answerable bare withRejectedWrite := by decide +kernel
  have hanswerable' : machine.Along Answerable bare withoutGarbage := by decide +kernel
  exact (ports_isolated_iff true hworking hworking' rfl hanswerable hanswerable').mpr
    ⟨by decide +kernel, by decide +kernel⟩

/-- Two bytes received on one port, which are no request, keep the other port from getting an
answer. -/
theorem garbage_stops_other_port :
    ((withGarbage (bytes "%n")).filter fun e => e.port ≠ true) =
        withoutGarbage.filter (fun f => f.port ≠ true) ∧
      machine.Along Answerable bare (withGarbage (bytes "%n")) ∧
      machine.Along Answerable bare withoutGarbage ∧
      (∃ em os, machine.run bare withoutGarbage = some (em, os) ∧ Unacknowledged true os ∧
        os.map Observation.written = [[], [responsePacket .throttle [11, 35, 0, 4, 3, 20]]]) ∧
      machine.run bare (withGarbage (bytes "%n")) = none ∧
      ¬ Isolated true bare (withGarbage (bytes "%n")) withoutGarbage := by
  have hnone : machine.run bare (withGarbage (bytes "%n")) = none := by
    rw [← Option.not_isSome_iff_eq_none]
    decide +kernel
  have hshown : (machine.run bare withoutGarbage).map (fun r =>
      (r.2.all fun o => !o.port, r.2.map Observation.written)) =
        some (true, [[], [responsePacket .throttle [11, 35, 0, 4, 3, 20]]]) := by decide +kernel
  obtain ⟨⟨em, os⟩, hrun, hresult⟩ := Option.map_eq_some_iff.mp hshown
  obtain ⟨hports, hwritten⟩ := Prod.mk.inj hresult
  refine ⟨rfl, by decide +kernel, by decide +kernel, ⟨em, os, hrun, ?_, hwritten⟩, hnone, ?_⟩
  · intro o ho hport
    have hother := List.all_eq_true.mp hports o ho
    rw [hport] at hother
    simp at hother
  · rintro ⟨em₁, os', em₂, us, hsome, -⟩
    rw [hnone] at hsome
    simp at hsome

end Emulator

end BafangEmulator
