/-
  WriteOrder.lean --- writes of different blocks commute.

  The keys of different blocks are in different sections, although some of them
  have the same names.  So what one write stores does not touch what the other
  stores, and the profile, its file and both answers are the same in either order
  (`writes_commute`).
-/
import BafangEmulator.Served

set_option autoImplicit false

namespace BafangEmulator

open Foundation

/-- Payloads of different blocks can be committed in either order. -/
theorem committed_comm {a b : Block} (hne : a ≠ b) (p : Profile) (x y : Bytes) :
    committed (committed p a x) b y = committed (committed p b y) a x := by
  simp only [committed]
  rw [Table.setAll_comm]
  rintro e he e' he' ⟨hsec, -⟩
  rw [sec_of_mem_entriesOf he, sec_of_mem_entriesOf he'] at hsec
  exact hne (Block.sec_injective hsec)

/-- A write does not change what the profile is called. -/
theorem filename_afterWrite (s : Store) (b : Block) (payload : Bytes) :
    (afterWrite s b payload).profile.filename = s.profile.filename := by
  unfold afterWrite
  split <;> rfl

/-- The store after two writes of different blocks is the same in either order. -/
theorem afterWrite_comm {a b : Block} (hne : a ≠ b) (s : Store) (x y : Bytes) :
    afterWrite (afterWrite s a x) b y = afterWrite (afterWrite s b y) a x := by
  by_cases hx : Accepted a x
  · by_cases hy : Accepted b y
    · have hdata := congrArg Profile.data (committed_comm hne s.profile x y)
      simp only [committed] at hdata
      simp only [afterWrite_of_accepted hx, afterWrite_of_accepted hy, Profile.saved, committed,
        Function.update_idem, hdata]
    · simp only [afterWrite_of_not_accepted hy]
  · simp only [afterWrite_of_not_accepted hx]

/-- After an accepted write the file has the text of the profile. -/
theorem files_afterWrite {b : Block} {payload : Bytes} (h : Accepted b payload) (s : Store) :
    (afterWrite s b payload).files s.profile.filename =
      some (Profile.render (afterWrite s b payload).profile.data) := by
  rw [afterWrite_of_accepted h]
  simp only [Profile.saved, Function.update_self]

namespace PacketBuilder

/-- **Writes of different blocks commute**: in either order they get the same two
answers, and leave profiles that compare equal and, when one was accepted, the same
text in the file. -/
theorem writes_commute {env : Environment} {s : Store} {a b : Block} (hne : a ≠ b)
    (request : RequestPacket a.payloadSize) (request' : RequestPacket b.payloadSize)
    (hopens : env.opens s.profile.filename = true) :
    ∃ status status' s₁ s₂ t₁ t₂,
      parse env a request s = .returned status s₁ ∧
      parse env b request' s₁ = .returned status' s₂ ∧
      parse env b request' s = .returned status' t₁ ∧
      parse env a request t₁ = .returned status t₂ ∧
      s₂.profile.compare t₂.profile = true ∧
      s₂.profile.exists_ = t₂.profile.exists_ ∧
      s₂.profile.filename = t₂.profile.filename ∧
      (status = a.success ∨ status' = b.success →
        ∃ text, s₂.files s.profile.filename = some text ∧
          t₂.files s.profile.filename = some text) := by
  have hcomm := afterWrite_comm hne s request.payload.toList request'.payload.toList
  refine ⟨_, _, _, _, _, _, parse_run_of_opens request hopens,
    parse_run_of_opens request' (by rw [filename_afterWrite, hopens]),
    parse_run_of_opens request' hopens,
    parse_run_of_opens request (by rw [filename_afterWrite, hopens]),
    ?_, by rw [hcomm], by rw [hcomm], fun haccepted => ?_⟩
  · rw [hcomm, Profile.compare_iff]
  · -- Either write may be the accepted one: take it as the last.
    rw [statusOf_eq_success_iff, statusOf_eq_success_iff] at haccepted
    rcases haccepted with haccept | haccept
    · have hfile := files_afterWrite haccept (afterWrite s b request'.payload.toList)
      rw [filename_afterWrite] at hfile
      exact ⟨_, hcomm ▸ hfile, hfile⟩
    · have hfile := files_afterWrite haccept (afterWrite s a request.payload.toList)
      rw [filename_afterWrite] at hfile
      exact ⟨_, hfile, hcomm ▸ hfile⟩

/-- A throttle write and a pedal write: both blocks have an assist level `DA`. -/
theorem writes_commute_assistLevel : ∃ s₁ s₂ t₁ t₂,
    parse .working .throttle ⟨0x16, 0x54, 9, ⟨[12, 36, 1, 5, 4, 21], rfl⟩, 172⟩
        ⟨⟨false, bytes "config.el", ∅⟩, fun _ => none⟩ = .returned Block.throttle.success s₁ ∧
      parse .working .pedal ⟨0x16, 0x53, 0x0E, ⟨[3, 7, 0, 20, 5, 20, 0, 25, 8, 20, 20], rfl⟩, 0xE1⟩
        s₁ = .returned Block.pedal.success s₂ ∧
      parse .working .pedal ⟨0x16, 0x53, 0x0E, ⟨[3, 7, 0, 20, 5, 20, 0, 25, 8, 20, 20], rfl⟩, 0xE1⟩
        ⟨⟨false, bytes "config.el", ∅⟩, fun _ => none⟩ = .returned Block.pedal.success t₁ ∧
      parse .working .throttle ⟨0x16, 0x54, 9, ⟨[12, 36, 1, 5, 4, 21], rfl⟩, 172⟩
        t₁ = .returned Block.throttle.success t₂ ∧
      s₂.profile.compare t₂.profile = true ∧
      ∃ text, s₂.files (bytes "config.el") = some text ∧
        t₂.files (bytes "config.el") = some text := by
  have hthrottle : statusOf .throttle [12, 36, 1, 5, 4, 21] = Block.throttle.success := by decide
  have hpedal : statusOf .pedal [3, 7, 0, 20, 5, 20, 0, 25, 8, 20, 20] = Block.pedal.success := by
    decide
  obtain ⟨status, status', s₁, s₂, t₁, t₂, ha, hab, hb, hba, hequal, -, -, hfile⟩ :=
    @writes_commute .working ⟨⟨false, bytes "config.el", ∅⟩, fun _ => none⟩ .throttle .pedal
      (by decide) ⟨0x16, 0x54, 9, ⟨[12, 36, 1, 5, 4, 21], rfl⟩, 172⟩
      ⟨0x16, 0x53, 0x0E, ⟨[3, 7, 0, 20, 5, 20, 0, 25, 8, 20, 20], rfl⟩, 0xE1⟩ rfl
  -- The statuses are those of the first runs.
  have hstatus : status = Block.throttle.success := by
    rw [parse_run_of_opens _ rfl, Outcome.returned.injEq] at ha
    exact ha.1.symm.trans hthrottle
  have hstatus' : status' = Block.pedal.success := by
    rw [parse_run_of_opens _ rfl, Outcome.returned.injEq] at hb
    exact hb.1.symm.trans hpedal
  subst hstatus hstatus'
  exact ⟨s₁, s₂, t₁, t₂, ha, hab, hb, hba, hequal, hfile (Or.inl rfl)⟩

end PacketBuilder

end BafangEmulator
