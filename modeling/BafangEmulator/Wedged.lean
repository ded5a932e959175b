/-
  Wedged.lean --- after a corrupt request.

  A complete request with a wrong checksum stays at the head of the receive buffer,
  because its arm throws before it flushes, and everything that is received later is
  put behind it.  So the port is lost for good (`corrupt_forever`): whatever arrives
  on it, and however often, it is never answered and nothing comes of it.  The other
  ports do not notice: they behave as if the events of the lost port had not been.  But
  its buffer is dumped each time, and a conversion in it ends them all.
-/
import BafangEmulator.Buffers

set_option autoImplicit false

namespace BafangEmulator

open Foundation

/-! ## Corrupt buffers -/

/-- What is received later does not help. -/
theorem Corrupt.append {data : Bytes} (h : Corrupt data) (chunk : Bytes) :
    Corrupt (data ++ chunk) := by
  cases h with
  | readGeneral p rest hdata hcommand htype hwrong =>
    exact .readGeneral p (rest ++ chunk) (by rw [hdata, List.append_assoc]) hcommand htype hwrong
  | writeBlock b p rest hdata hcommand htype hwrong =>
    exact .writeBlock b p (rest ++ chunk) (by rw [hdata, List.append_assoc]) hcommand htype hwrong

namespace Emulator

variable {Port : Type}

/-- What a port has received in some events. -/
def chunksOf [DecidableEq Port] (port : Port) (es : List (Event Port)) : Bytes :=
  (es.filter fun e => e.port = port).flatMap Event.chunk

/-- The emulators look the same but for the lost port. -/
structure SameBut (port : Port) (em fm : Emulator Port) : Prop where
  corrupt : Corrupt (em.buffers port)
  buffers_eq : ∀ port', port' ≠ port → em.buffers port' = fm.buffers port'
  general_eq : em.general = fm.general
  config_eq : em.config = fm.config
  files_eq : em.files = fm.files

theorem sameBut_refl {port : Port} {em : Emulator Port} (h : Corrupt (em.buffers port)) :
    SameBut port em em := ⟨h, fun _ _ => rfl, rfl, rfl, rfl⟩

variable [DecidableEq Port]

/-- Chunk after chunk is what was received. -/
theorem foldl_chunks (port : Port) : ∀ (es : List (Event Port)) (buffer : Bytes),
    es.foldl (fun buffer e => buffer ++ if e.port = port then e.chunk else []) buffer =
      buffer ++ chunksOf port es := by
  intro es
  induction es with
  | nil => intro buffer; exact (List.append_nil buffer).symm
  | cons e es ih =>
    intro buffer
    rw [List.foldl_cons, ih, chunksOf, chunksOf, List.append_assoc]
    by_cases he : e.port = port
    · rw [if_pos he, List.filter_cons_of_pos (by simp [he]), List.flatMap_cons]
    · rw [if_neg he, List.filter_cons_of_neg (by simp [he]), List.nil_append]

/-- An event on the lost port is defined when its buffer can be dumped. -/
theorem isSome_step_of_corrupt {em : Emulator Port} {e : Event Port}
    (h : Corrupt (em.buffers e.port)) :
    (machine.step em e).isSome = true ↔ Trace.Dumpable (em.received e) := by
  have hjudge : judge (em.arrived e).buffer = .corrupt := (h.append e.chunk).judge_eq
  rw [isSome_step_iff, Printable, Answerable, Session.Printable, Session.Answerable, hjudge]
  exact ⟨fun hdefined => hdefined.1.1, fun hdump => ⟨⟨hdump, trivial⟩, trivial⟩⟩

/-- An event on the lost port only puts more into its buffer. -/
theorem step_of_corrupt {em em' : Emulator Port} {e : Event Port} {o : Observation Port}
    (h : Corrupt (em.buffers e.port)) (hstep : machine.step em e = some (em', o)) :
    em' = em.conclude e.port (em.arrived e) ∧ o = ⟨e.port, em.received e, []⟩ := by
  obtain ⟨s', hhandles, rfl, rfl⟩ := handles_of_step hstep
  have hjudge : judge (em.received e) = .corrupt := (h.append e.chunk).judge_eq
  rw [hjudge] at hhandles
  cases hhandles with
  | corrupt => exact ⟨rfl, rfl⟩

/-- The lost port stays lost. -/
theorem SameBut.hidden {port : Port} {em em' fm : Emulator Port} {e : Event Port}
    {o : Observation Port} (h : SameBut port em fm) (he : e.port = port)
    (hstep : machine.step em e = some (em', o)) :
    SameBut port em' fm ∧ o.port = port ∧ o.written = [] ∧
      em'.buffers port = em.buffers port ++ e.chunk := by
  subst he
  obtain ⟨rfl, rfl⟩ := step_of_corrupt h.corrupt hstep
  have hbuffer : (em.conclude e.port (em.arrived e)).buffers e.port =
      em.buffers e.port ++ e.chunk := conclude_buffers_self em e.port (em.arrived e)
  refine ⟨⟨?_, fun port' hne => ?_, h.general_eq, h.config_eq, h.files_eq⟩, rfl, rfl, hbuffer⟩
  · rw [hbuffer]
    exact h.corrupt.append e.chunk
  · rw [conclude_buffers_of_ne hne]
    exact h.buffers_eq port' hne

omit [DecidableEq Port] in
/-- The handler of another port finds the same. -/
theorem SameBut.session_eq {port : Port} {em fm : Emulator Port} (h : SameBut port em fm)
    {port' : Port} (hne : port' ≠ port) : em.session port' = fm.session port' := by
  simp only [session, h.buffers_eq port' hne, h.general_eq, h.config_eq, h.files_eq]

/-- An event on another port is the same event for both. -/
theorem SameBut.seen {port : Port} {em em' fm : Emulator Port} {e : Event Port}
    {o : Observation Port} (h : SameBut port em fm) (he : e.port ≠ port)
    (hstep : machine.step em e = some (em', o)) :
    ∃ fm', machine.step fm e = some (fm', o) ∧ SameBut port em' fm' ∧ o.port ≠ port ∧
      em'.buffers port = em.buffers port := by
  have hreceived : em.received e = fm.received e := by
    simp only [received, h.buffers_eq e.port he]
  obtain ⟨s', hs', heq⟩ := Option.map_eq_some_iff.mp hstep
  obtain ⟨rfl, rfl⟩ := Prod.mk.inj heq
  refine ⟨fm.conclude e.port s', ?_, ⟨?_, fun port' hne => ?_, rfl, rfl, rfl⟩, he, ?_⟩
  · rw [h.session_eq he] at hs'
    simp only [machine, hs', Option.map_some, hreceived]
  · rw [conclude_buffers_of_ne he.symm]
    exact h.corrupt
  · rcases eq_or_ne port' e.port with rfl | hne'
    · rw [conclude_buffers_self, conclude_buffers_self]
    · rw [conclude_buffers_of_ne hne', conclude_buffers_of_ne hne']
      exact h.buffers_eq port' hne
  · exact conclude_buffers_of_ne he.symm s'

/-- A run is defined when it is without the lost port, whose buffer can be dumped each time. -/
theorem isSome_run_of_corrupt {port : Port} {em : Emulator Port}
    (hcorrupt : Corrupt (em.buffers port)) (es : List (Event Port)) :
    (machine.run em es).isSome = true ↔
      (machine.run em (es.filter fun e => e.port ≠ port)).isSome = true ∧
        machine.Along (fun em e => e.port = port → Trace.Dumpable (em.received e)) em es := by
  have hrule : (machine.run em es).isSome = true ↔
      (machine.run em (es.filter fun e => e.port ≠ port)).isSome = true ∧
        machine.Along (fun em e => decide (e.port ≠ port) = false → Trace.Dumpable (em.received e))
          em es := by
    refine Machine.isSome_run_filter_iff (R := SameBut port) ?_ ?_ ?_ ?_ (sameBut_refl hcorrupt)
    · intro em fm e h he
      obtain rfl : e.port = port := by simpa using he
      exact isSome_step_of_corrupt h.corrupt
    · intro em em' fm e o h he hstep
      exact (h.hidden (by simpa using he) hstep).1
    · intro em fm e h he
      simp only [machine, Option.isSome_map, h.session_eq (of_decide_eq_true he)]
    · intro em em' fm e o h he hstep
      obtain ⟨fm', hstep', hsame, -⟩ := h.seen (of_decide_eq_true he) hstep
      exact ⟨fm', hstep', hsame⟩
  simpa using hrule

/-- **A corrupt request is for ever.**  Once the buffer of a port starts with one, a run is
defined exactly when it is with the events of the lost port deleted and the buffer of the
port can be dumped at each of them.  Then the port has sent nothing, and its buffer is what it
was followed by all that the port has received since; and the run shows the other ports, and
leaves the profiles and the files as, what it would have without the lost port. -/
theorem corrupt_forever {port : Port} {em : Emulator Port} (hcorrupt : Corrupt (em.buffers port))
    (es : List (Event Port)) :
    ((machine.run em es).isSome = true ↔
      (machine.run em (es.filter fun e => e.port ≠ port)).isSome = true ∧
        machine.Along (fun em e => e.port = port → Trace.Dumpable (em.received e)) em es) ∧
    ∀ {em' : Emulator Port} {os : List (Observation Port)}, machine.run em es = some (em', os) →
      (∀ o ∈ os, o.port = port → o.written = []) ∧
      em'.buffers port = em.buffers port ++ chunksOf port es ∧
      ∃ fm, machine.run em (es.filter fun e => e.port ≠ port) =
          some (fm, os.filter fun o => o.port ≠ port) ∧ SameBut port em' fm := by
  have hmine : ∀ {em em' : Emulator Port} {e : Event Port} {o : Observation Port},
      Corrupt (em.buffers port) → machine.step em e = some (em', o) →
        Corrupt (em'.buffers port) ∧ (o.port = port → o.written = []) ∧
          em'.buffers port = em.buffers port ++ if e.port = port then e.chunk else [] := by
    intro em em' e o h hstep
    by_cases he : e.port = port
    · obtain ⟨hsame, -, hsilent, hbuffer⟩ := (sameBut_refl h).hidden he hstep
      rw [if_pos he]
      exact ⟨hsame.corrupt, fun _ => hsilent, hbuffer⟩
    · obtain ⟨fm, -, hsame, hport, hbuffer⟩ := (sameBut_refl h).seen he hstep
      rw [if_neg he, List.append_nil]
      exact ⟨hsame.corrupt, fun hp => absurd hp hport, hbuffer⟩
  refine ⟨isSome_run_of_corrupt hcorrupt es, fun {em' os} hrun => ⟨?_, ?_, ?_⟩⟩
  · exact Machine.run_observations (fun em : Emulator Port => Corrupt (em.buffers port))
      (fun h hstep => ⟨(hmine h hstep).1, (hmine h hstep).2.1⟩) hcorrupt hrun
  · have hfold := (Machine.run_fold (fun em : Emulator Port => em.buffers port)
      (fun buffer h => buffer ++ if h.1.port = port then h.1.chunk else [])
      (fun h hstep => ⟨(hmine h hstep).1, (hmine h hstep).2.2⟩) hcorrupt hrun).2
    rw [hfold, ← foldl_chunks, ← List.map_fst_zip (Nat.le_of_eq (Machine.length_of_run hrun).symm),
      List.foldl_map, List.map_fst_zip (Nat.le_of_eq (Machine.length_of_run hrun).symm)]
  · refine Machine.run_filter (R := SameBut port) ?_ ?_ (sameBut_refl hcorrupt) hrun
    · intro em em' fm e o h he hstep
      obtain ⟨hsame, hport, -⟩ := h.hidden (by simpa using he) hstep
      exact ⟨hsame, by simp [hport]⟩
    · intro em em' fm e o h he hstep
      obtain ⟨fm', hstep', hsame, hport, -⟩ := h.seen (by simpa using he) hstep
      exact ⟨fm', hstep', hsame, by simp [hport]⟩

/-- A read of the general block with a wrong checksum; then a valid read on the same port and
one on another. -/
theorem corrupt_forever_read :
    ∃ (em em' : Emulator Bool) (o u : Observation Bool),
      machine.step bare (arrival true [0x11, 0x51, 0, 0, 0]) = some (em, o) ∧
      machine.run em [arrival true [0x11, 0x52], arrival false [0x11, 0x54]] =
        some (em', [u, ⟨false, [0x11, 0x54], [responsePacket .throttle [11, 35, 0, 4, 3, 20]]⟩]) ∧
      em'.buffers true = [0x11, 0x51, 0, 0, 0, 0x11, 0x52] := by
  have hbuffered : (machine.step (bare : Emulator Bool)
      (arrival true [0x11, 0x51, 0, 0, 0])).map (fun r => r.1.buffers true) =
        some [0x11, 0x51, 0, 0, 0] := by decide +kernel
  have hshown : (machine.run (bare : Emulator Bool) [arrival true [0x11, 0x51, 0, 0, 0],
      arrival true [0x11, 0x52], arrival false [0x11, 0x54]]).map (fun r => r.2.drop 2) =
        some [⟨false, [0x11, 0x54], [responsePacket .throttle [11, 35, 0, 4, 3, 20]]⟩] := by
    decide +kernel
  obtain ⟨em', os, hall, hlast⟩ := Machine.exists_run_of_map hshown
  obtain ⟨em, o, os', hstep, hrun, rfl⟩ := Machine.run_cons_eq_some_iff.mp hall
  obtain ⟨em₁, u, os'', hsecond, hthird, rfl⟩ := Machine.run_cons_eq_some_iff.mp hrun
  obtain rfl : os'' = [_] := hlast
  have hbuffer : em.buffers true = [0x11, 0x51, 0, 0, 0] := by
    rw [hstep] at hbuffered
    exact Option.some.inj hbuffered
  have hcorrupt : Corrupt (em.buffers true) := by
    rw [hbuffer]
    exact corrupt_of_judge rfl
  have hgrown := ((corrupt_forever hcorrupt _).2 hrun).2.1
  rw [hbuffer] at hgrown
  exact ⟨em, em', o, u, hstep, hrun, hgrown⟩

end Emulator

end BafangEmulator
