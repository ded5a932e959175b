/-
  Buffers.lean --- what stays in the receive buffers.

  Every arm of the handler empties the whole buffer once it has a request, so
  nothing is kept behind a request (`rest_is_flushed`).  What does stay is the
  front of a request that is still to be completed, and a complete request whose
  checksum is wrong: the arm throws before it flushes, so the corrupt bytes are in
  front of everything that follows.  Short of such a request no port is ever
  wedged (`never_wedged`).
-/
import BafangEmulator.Emulator
import BafangEmulator.Reception

set_option autoImplicit false

namespace BafangEmulator

open Foundation

/-! ## Behind a request -/

namespace SerialHandler

/-- **Nothing is kept behind a request.**  Handling a valid request empties the buffer; and
if what was received can be dumped, it otherwise does what it would have done had nothing
followed. -/
theorem rest_is_flushed (env : Environment) (s : Session) (r : ValidRequest) (rest : Bytes) :
    (Trace.Dumpable (r.wire ++ rest) →
      onDataAvailable env { s with buffer := r.wire ++ rest } =
        onDataAvailable env { s with buffer := r.wire }) ∧
      ∀ s', (onDataAvailable env { s with buffer := r.wire ++ rest }).state? = some s' →
        s'.buffer = [] := by
  constructor
  · intro hdump
    have halone : judge r.wire = .request r.request := by
      simpa using r.judge_wire_append []
    rw [onDataAvailable_run, onDataAvailable_run, if_pos hdump, r.judge_wire_append rest, halone,
      act_request, act_request]
    rcases r.front_wire_append rest with hsame | ⟨hwire, hall⟩
    · by_cases hwire : Trace.Dumpable r.wire <;>
        simp only [hsame, r.front_wire, hwire, if_true, if_false]
    · simp only [hall, r.front_wire, if_pos hdump, if_pos hwire]
  · intro s' hs'
    rcases onDataAvailable_cases env { s with buffer := r.wire ++ rest } with
      ⟨-, hrun⟩ | ⟨-, s'', hrun, hhandles⟩
    · rw [hrun] at hs'
      simp at hs'
    · rw [r.judge_wire_append rest] at hhandles
      rw [hrun, Outcome.state?_returned, Option.some.injEq] at hs'
      rw [← hs', hhandles.buffer_eq_nil]

/-- The emulator without files, asked for two blocks in one chunk. -/
def twoReads : Session where
  buffer := (ValidRequest.readBlock .throttle).wire ++ (ValidRequest.readBlock .pedal).wire
  written := []
  general := { exists_ := false, filename := bytes "general.el", data := ∅ }
  config := { exists_ := false, filename := bytes "config.el", data := ∅ }
  files := fun _ => none

/-- The first request is handled as it is without the second, and the second is gone. -/
theorem rest_is_flushed_twoReads :
    ∃ s', (onDataAvailable .working twoReads).state? = some s' ∧ s'.buffer = [] ∧
      (onDataAvailable .working
        { twoReads with buffer := (ValidRequest.readBlock .throttle).wire }).state? = some s' := by
  have hdefined : (onDataAvailable .working twoReads).state?.isSome = true := by decide +kernel
  obtain ⟨s', hs'⟩ := Option.isSome_iff_exists.mp hdefined
  obtain ⟨halone, hflushed⟩ := rest_is_flushed .working twoReads (.readBlock .throttle)
    (ValidRequest.readBlock .pedal).wire
  refine ⟨s', hs', hflushed s' hs', ?_⟩
  rw [← halone (by decide)]
  exact hs'

/-- The bytes of the second request are not left in the buffer. -/
theorem twoReads_rest_is_lost :
    ∃ s', onDataAvailable .working twoReads = .returned () s' ∧
      s'.buffer ≠ (ValidRequest.readBlock .pedal).wire := by
  have hdefined : twoReads.Printable .working ∧ twoReads.Answerable := by decide +kernel
  rcases onDataAvailable_cases .working twoReads with ⟨hnot, -⟩ | ⟨-, s', hrun, hhandles⟩
  · exact absurd hdefined hnot
  · refine ⟨s', hrun, ?_⟩
    have hjudge : judge twoReads.buffer = .request (.readBlock .throttle) := rfl
    rw [hjudge] at hhandles
    rw [hhandles.buffer_eq_nil]
    simp [ValidRequest.wire]

end SerialHandler

/-! ## In front of everything else -/

/-- The front of a request is shorter than the longest request. -/
theorem Unfinished.length_le {data : Bytes} (h : Unfinished data) : data.length ≤ 27 := by
  cases h with
  | short hlength => omega
  | readGeneral hhead hlength =>
    simp only [RequestPacket.packetSize, SerialHandler.generalRequestSize] at hlength
    omega
  | writeBlock b hhead hlength =>
    have hsize : RequestPacket.packetSize b.payloadSize ≤ 28 := by cases b <;> decide
    omega

/-- The handler leaves the front of a request behind, unless it found a corrupt
one. -/
theorem Handles.unfinished {env : Environment} {s s' : Session} (hclean : ¬ Corrupt s.buffer)
    (h : Handles env s (judge s.buffer) s') : Unfinished s'.buffer := by
  cases hverdict : judge s.buffer with
  | wait =>
    rw [hverdict] at h
    cases h
    exact unfinished_of_judge hverdict
  | corrupt => exact absurd (corrupt_of_judge hverdict) hclean
  | unsupported =>
    rw [hverdict] at h
    cases h
    exact .short (by simp)
  | request r =>
    rw [hverdict] at h
    exact .short (by rw [h.buffer_eq_nil]; simp)

namespace Emulator

variable {Port : Type} [DecidableEq Port]

/-- One step leaves the front of a request in every buffer. -/
theorem unfinished_step {em em' : Emulator Port} {e : Event Port} {o : Observation Port}
    (hem : ∀ port, Unfinished (em.buffers port)) (hclean : ¬ Corrupt (em.received e))
    (h : machine.step em e = some (em', o)) (port : Port) : Unfinished (em'.buffers port) := by
  obtain ⟨s', hhandles, rfl, -⟩ := handles_of_step h
  by_cases hport : port = e.port
  · rw [hport, conclude_buffers_self]
    exact hhandles.unfinished hclean
  · rw [conclude_buffers_of_ne hport]
    exact hem port

/-- **No port is ever wedged**, as long as no event finds a corrupt request at the
head of its buffer: each buffer is the front of a request, whatever was received
in whatever pieces and whatever failed. -/
theorem never_wedged {em em' : Emulator Port} {es : List (Event Port)}
    {os : List (Observation Port)} (hstart : ∀ port, em.buffers port = [])
    (hclean : machine.Along (fun em e => ¬ Corrupt (em.received e)) em es)
    (hrun : machine.run em es = some (em', os)) (port : Port) :
    Unfinished (em'.buffers port) ∧ (em'.buffers port).length ≤ 27 := by
  have hem : ∀ port, Unfinished (em.buffers port) := fun port =>
    .short (by rw [hstart port]; simp)
  have hem' := Machine.run_invariant (fun h hc hstep => unfinished_step h hc hstep) hem hclean hrun
  exact ⟨hem' port, (hem' port).length_le⟩

/-- A read of the throttle block in two pieces, a write of it that cannot be saved, and the
front of another write. -/
def pieces : List (Event Unit) :=
  [ arrival () [0x11], { arrival () [0x54] with env := .failing },
    { arrival () ValidRequest.sampleWrite.wire with env := .failing }, arrival () [0x16],
    arrival () [0x52] ]

/-- The front is waited for, and the rest is gone. -/
theorem never_wedged_pieces :
    ∃ em os, machine.run bare pieces = some (em, os) ∧
      Unfinished (em.buffers ()) ∧ (em.buffers ()).length ≤ 27 := by
  have halong : machine.Along (fun em e => ¬ Corrupt (em.received e)) bare pieces := by
    decide +kernel
  have hdefined : (machine.run bare pieces).isSome = true := by decide +kernel
  obtain ⟨⟨em, os⟩, hrun⟩ := Option.isSome_iff_exists.mp hdefined
  exact ⟨em, os, hrun, never_wedged (fun _ => rfl) halong hrun ()⟩

/-- A read of the general block with a wrong checksum stays in the buffer, and the
valid read that comes after it is never answered. -/
theorem wedged_by_corrupt_read :
    ∃ em os, machine.run bare [arrival () [0x11, 0x51, 0, 0, 0], arrival () [0x11, 0x52]] =
        some (em, os) ∧
      ¬ Unfinished (em.buffers ()) ∧ ∀ o ∈ os, o.written = [] := by
  have hseen : (machine.run bare [arrival () [0x11, 0x51, 0, 0, 0], arrival () [0x11, 0x52]]).map
      (fun r => (r.1.buffers (), r.2.map Observation.written)) =
        some ([0x11, 0x51, 0, 0, 0, 0x11, 0x52], [[], []]) := by decide +kernel
  obtain ⟨⟨em, os⟩, hrun, hresult⟩ := Option.map_eq_some_iff.mp hseen
  obtain ⟨hbuffer, hwritten⟩ := Prod.mk.inj hresult
  refine ⟨em, os, hrun, fun h => ?_, fun o ho => ?_⟩
  · have hwait := h.judge_eq
    have hcorrupt : judge [0x11, 0x51, 0, 0, 0, 0x11, 0x52] = .corrupt := rfl
    rw [hbuffer, hcorrupt] at hwait
    simp at hwait
  · have hmem : o.written ∈ os.map Observation.written := List.mem_map_of_mem ho
    rw [hwritten] at hmem
    simpa using hmem

end Emulator

end BafangEmulator
