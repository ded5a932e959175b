/-
  WriteOutcome.lean --- how a write of a block can end.

  `parse` works on a copy of the profile, so a rejected write leaves no trace.  But
  it commits the copy before it saves it: when the save fails, the exception leaves
  the new values in memory, where they are served, while the file has the old ones.
  Unless the values were stored before anyway, that is the only exit on which a
  write is not all or nothing (`all_or_nothing_iff`).
-/
import BafangEmulator.Restart

set_option autoImplicit false

namespace BafangEmulator

open Foundation

/-- The new values of a write are in memory and in the file. -/
structure Stored (b : Block) (payload : Bytes) (s s' : Store) : Prop where
  /-- Every number of the payload is stored under its key. -/
  get?_eq : ∀ x ∈ entriesOf b.sec b.fields payload, s'.profile.data.get? x.1 x.2.1 = some x.2.2
  /-- A read of the block sends the payload. -/
  build_eq : (PacketBuilder.build b s'.profile).value? = some payload
  /-- The profile and its file go together. -/
  filename_eq : s'.profile.filename = s.profile.filename
  exists_eq : s'.profile.exists_ = true
  file_eq : s'.files s.profile.filename = some (Profile.render s'.profile.data)
  /-- The file loads as the profile in memory, if the old data could be saved at all. -/
  construct_eq : Profile.Representable s.profile.data →
    Profile.construct s.profile.filename s'.files = .ok s'.profile

/-- A write either succeeds, and has stored its values, or has changed nothing. -/
def AllOrNothing (b : Block) (payload : Bytes) (s : Store) :
    Outcome Exception Store UInt8 → Prop
  | .returned status s' =>
    (status = b.success → Stored b payload s s') ∧ (status ≠ b.success → s' = s)
  | .threw _ s' => s' = s
  | .undefined => False

/-- A commit changes nothing exactly when the values are stored already. -/
theorem committed_eq_self_iff {b : Block} {payload : Bytes}
    (hlen : payload.length = b.payloadSize) (haccept : Accepted b payload) (p : Profile) :
    committed p b payload = p ↔
      ∀ x ∈ entriesOf b.sec b.fields payload, p.data.get? x.1 x.2.1 = some x.2.2 := by
  constructor
  · intro h x hx
    rw [← get?_committed hlen haccept hx, h]
  · intro h
    rw [committed, Table.setAll_eq_self h]

/-- A write that is saved has stored its values. -/
theorem stored_saved {b : Block} {payload : Bytes} (hlen : payload.length = b.payloadSize)
    (haccept : Accepted b payload) (s : Store) :
    Stored b payload s (Profile.saved s.profile.filename
      { s with profile := committed s.profile b payload }) where
  get?_eq x hx := get?_committed hlen haccept hx
  build_eq := by
    rw [PacketBuilder.value?_build, served_saved]
    exact served_committed_self hlen haccept s.profile
  filename_eq := rfl
  exists_eq := rfl
  file_eq := by simp only [Profile.saved, Function.update_self]
  construct_eq h :=
    Profile.construct_saved_of_representable (h.setAll (storable_entriesOf b payload)) _

namespace PacketBuilder

/-- **A write is all or nothing** exactly when its save opens the file, or a byte of
it is rejected, or its values are stored already. -/
theorem all_or_nothing_iff (env : Environment) (b : Block)
    (request : RequestPacket b.payloadSize) (s : Store) :
    AllOrNothing b request.payload.toList s (parse env b request s) ↔
      env.opens s.profile.filename = true ∨
        ¬ Accepted b request.payload.toList ∨
        ∀ x ∈ entriesOf b.sec b.fields request.payload.toList,
          s.profile.data.get? x.1 x.2.1 = some x.2.2 := by
  have hlen : request.payload.toList.length = b.payloadSize := request.payload.toList_length
  rw [parse_run]
  cases hreject : rejection b.fields request.payload.toList with
  | some status =>
    have hrejected : ¬ Accepted b request.payload.toList := fun haccept => by
      rw [haccept] at hreject
      simp at hreject
    have hstatus : status ≠ b.success := status_ne_success hreject
    refine iff_of_true ⟨fun heq => absurd heq hstatus, fun _ => rfl⟩ (Or.inr (Or.inl hrejected))
  | none =>
    have haccept : Accepted b request.payload.toList := hreject
    cases hopens : env.opens s.profile.filename with
    | true =>
      refine iff_of_true ?_ (Or.inl rfl)
      exact ⟨fun _ => stored_saved hlen haccept s, fun hne => absurd rfl hne⟩
    | false =>
      have hcommitted := committed_eq_self_iff hlen haccept s.profile
      simp only [AllOrNothing, Bool.false_eq_true, if_false, haccept, not_true_eq_false, false_or,
        ← hcommitted]
      obtain ⟨p, files⟩ := s
      simp

/-- A throttle write whose save fails: the caller gets an exception, and readers get
the new values. -/
theorem failed_save_is_served :
    ∃ s' : Store, parse { opens := fun _ => false, writes := true } .throttle
        (ValidRequest.packet .write .throttle 9 ⟨[12, 36, 1, 5, 4, 21], rfl⟩)
        ⟨⟨false, bytes "config.el", ∅⟩, fun _ => none⟩ = .threw Profile.saveFailure s' ∧
      (build .throttle s'.profile).value? = some [12, 36, 1, 5, 4, 21] ∧
      (build .throttle ⟨false, bytes "config.el", ∅⟩).value? = some [11, 35, 0, 4, 3, 20] ∧
      s'.files (bytes "config.el") = none :=
  ⟨_, rfl, rfl, rfl, rfl⟩

end PacketBuilder

end BafangEmulator
