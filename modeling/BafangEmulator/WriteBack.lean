/-
  WriteBack.lean --- what is served can be written back.

  The defaults are scattered through `build` and the ranges through `parse`, and the
  wheel table is in both.  A profile is consistent when they agree on what it holds:
  every block can be read, and what is read is accepted as a write.  Consistency is
  a matter of the registers alone (`consistent_iff`), so reads and rejected writes
  keep it, and an accepted write puts an accepted payload in.
-/
import BafangEmulator.Foundation.Machine
import BafangEmulator.Served

set_option autoImplicit false

namespace BafangEmulator

open Foundation

namespace PacketBuilder

/-- Every block is read as a payload that is accepted when it is written. -/
def Consistent (p : Profile) : Prop :=
  ∀ b : Block, ∃ request : RequestPacket b.payloadSize,
    (build b p).value? = some request.payload.toList ∧
      ∀ files, (parse .working b request ⟨p, files⟩).value? = some b.success

/-- A read or a write of a block. -/
inductive BlockOp where
  | read (b : Block)
  | write (b : Block) (request : RequestPacket b.payloadSize)

/-- Reads and writes of blocks as a machine, while saves succeed: it shows the payloads
read and the statuses of the writes. -/
def blockMachine : Machine Store BlockOp Bytes where
  step s
    | .read b =>
      match onProfile (build b) s with
      | .returned payload s' => some (s', payload)
      | .threw _ _ => none
      | .undefined => none
    | .write b request =>
      match parse .working b request s with
      | .returned status s' => some (s', [status])
      | .threw _ _ => none
      | .undefined => none

/-- A write succeeds exactly when its payload is accepted. -/
theorem value?_parse (b : Block) (request : RequestPacket b.payloadSize) (s : Store) :
    (parse .working b request s).value? = some b.success ↔ Accepted b request.payload.toList := by
  rw [parse_run_of_opens request rfl, Outcome.value?_returned, Option.some.injEq,
    statusOf_eq_success_iff]

/-- Consistency is a matter of the registers. -/
theorem consistent_iff (p : Profile) :
    Consistent p ↔ ∀ b, ∃ payload, served p b = some payload ∧ Accepted b payload := by
  constructor
  · intro h b
    obtain ⟨request, hbuild, hparse⟩ := h b
    rw [value?_build] at hbuild
    exact ⟨_, hbuild, (value?_parse b request _).mp (hparse fun _ => none)⟩
  · intro h b
    obtain ⟨payload, hserved, haccept⟩ := h b
    refine ⟨⟨0, 0, 0, ⟨payload, length_served hserved⟩, 0⟩, ?_, fun files => ?_⟩
    · rw [value?_build, hserved]
      rfl
    · exact (value?_parse b _ _).mpr haccept

theorem Consistent.of_served_eq {p p' : Profile} (h : Consistent p) (heq : served p' = served p) :
    Consistent p' := by
  rw [consistent_iff] at h ⊢
  rw [heq]
  exact h

/-- The defaults of `build` are in the ranges of `parse`. -/
theorem consistent_empty (path : Bytes) :
    Consistent { exists_ := false, filename := path, data := ∅ } := by
  have hdefaults : ∀ b : Block, (served { exists_ := false, filename := [], data := ∅ } b).any
      (fun payload => decide (Accepted b payload)) = true := by
    intro b
    cases b <;> decide +kernel
  have hempty : Consistent { exists_ := false, filename := [], data := ∅ } := by
    rw [consistent_iff]
    intro b
    obtain ⟨payload, hserved, haccept⟩ := (Option.any_eq_true _ _).mp (hdefaults b)
    exact ⟨payload, hserved, of_decide_eq_true haccept⟩
  refine hempty.of_served_eq (funext fun b => ?_)
  exact servedFields_congr fun _ _ _ _ => rfl

/-- A read of a consistent profile is defined, and leaves the registers alone. -/
theorem read_run {s : Store} (h : Consistent s.profile) (b : Block) :
    ∃ payload s', onProfile (build b) s = .returned payload s' ∧
      served s.profile b = some payload ∧ Accepted b payload ∧
      served s'.profile = served s.profile := by
  obtain ⟨payload, hserved, haccept⟩ := (consistent_iff s.profile).mp h b
  rcases build_run b s.profile with ⟨hnone, -⟩ | ⟨payload', p', hsome, hrun, hfill⟩
  · rw [hserved] at hnone
    simp at hnone
  · rw [hserved, Option.some.injEq] at hsome
    subst hsome
    exact ⟨payload, { s with profile := p' }, Exec.zoom_of_returned hrun, hserved, haccept,
      funext hfill.served_eq⟩

/-- A write is answered; the registers change only when it is accepted, and then to
the payload. -/
theorem write_run (s : Store) (b : Block) (request : RequestPacket b.payloadSize) :
    ∃ status s', parse .working b request s = .returned status s' ∧
      (¬ Accepted b request.payload.toList → s' = s) ∧
      (Accepted b request.payload.toList → status = b.success ∧ served s'.profile =
        Function.update (served s.profile) b (some request.payload.toList)) := by
  refine ⟨_, _, parse_run_of_opens request rfl,
    fun hrejected => afterWrite_of_not_accepted hrejected s,
    fun haccept => ⟨statusOf_of_accepted haccept, ?_⟩⟩
  rw [afterWrite_of_accepted haccept, served_saved,
    served_committed request.payload.toList_length haccept]

/-- An accepted payload in one register keeps a profile consistent. -/
theorem Consistent.update {p p' : Profile} (h : Consistent p) {b : Block} {payload : Bytes}
    (haccept : Accepted b payload)
    (heq : served p' = Function.update (served p) b (some payload)) : Consistent p' := by
  rw [consistent_iff] at h ⊢
  intro b'
  rw [heq]
  by_cases hb : b' = b
  · subst hb
    exact ⟨payload, Function.update_self .., haccept⟩
  · rw [Function.update_of_ne hb]
    exact h b'

/-- One read or write of a consistent profile is defined and keeps it consistent. -/
theorem consistent_step {s : Store} (op : BlockOp) (h : Consistent s.profile) :
    ∃ s' shown, blockMachine.step s op = some (s', shown) ∧ Consistent s'.profile := by
  cases op with
  | read b =>
    obtain ⟨payload, s', hrun, -, -, hserved⟩ := read_run h b
    refine ⟨s', payload, ?_, h.of_served_eq hserved⟩
    simp only [blockMachine, hrun]
  | write b request =>
    obtain ⟨status, s', hrun, hrejected, haccepted⟩ := write_run s b request
    refine ⟨s', [status], by simp only [blockMachine, hrun], ?_⟩
    by_cases haccept : Accepted b request.payload.toList
    · exact h.update haccept (haccepted haccept).2
    · rw [hrejected haccept]
      exact h

/-- **What is served can be written back.**  The empty profile is consistent; every
sequence of reads and writes from a consistent profile is defined and ends in one;
and a block that is read from a consistent profile and written back is accepted and
leaves every response as it was. -/
theorem write_back :
    (∀ path, Consistent { exists_ := false, filename := path, data := ∅ }) ∧
    (∀ (s : Store) (ops : List BlockOp), Consistent s.profile →
      ∃ s' shown, blockMachine.run s ops = some (s', shown) ∧ Consistent s'.profile) ∧
    (∀ (s : Store) (b : Block), Consistent s.profile →
      ∃ payload s₁, onProfile (build b) s = .returned payload s₁ ∧
        ∀ request : RequestPacket b.payloadSize, request.payload.toList = payload →
          ∃ s₂, parse .working b request s₁ = .returned b.success s₂ ∧
            ∀ b', (build b' s₂.profile).value? = (build b' s.profile).value?) := by
  refine ⟨consistent_empty, fun s ops h => ?_, fun s b h => ?_⟩
  · exact Machine.run_total (fun s : Store => Consistent s.profile) consistent_step ops h
  · obtain ⟨payload, s₁, hread, hpayload, haccept, hserved⟩ := read_run h b
    refine ⟨payload, s₁, hread, fun request hrequest => ?_⟩
    obtain ⟨status, s₂, hwrite, -, haccepted⟩ := write_run s₁ b request
    rw [hrequest] at haccepted
    obtain ⟨rfl, hupdate⟩ := haccepted haccept
    refine ⟨s₂, hwrite, fun b' => ?_⟩
    -- The register is set to what it holds.
    have hsame : served s₂.profile = served s.profile := by
      rw [hupdate, hserved, ← hpayload, Function.update_eq_self]
    rw [value?_build, value?_build, hsame]

/-- Some reads and writes of the profile without a file. -/
theorem write_back_empty :
    ∃ s' shown, blockMachine.run ⟨{ exists_ := false, filename := bytes "config.el", data := ∅ },
        fun _ => none⟩ [.read .pedal, .write .throttle ⟨0x16, 0x54, 9, ⟨[12, 36, 1, 5, 4, 21], rfl⟩,
          172⟩, .read .throttle] = some (s', shown) ∧ Consistent s'.profile :=
  write_back.2.1 ⟨{ exists_ := false, filename := bytes "config.el", data := ∅ }, fun _ => none⟩ _
    (write_back.1 (bytes "config.el"))

end PacketBuilder

end BafangEmulator
