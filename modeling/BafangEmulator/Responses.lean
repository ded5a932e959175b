/-
  Responses.lean --- what a client gets to read.

  A response is a block, announced by its type and its size, or a status, announced by
  the type of the block that was written.  Nothing on the line says which: a client
  tells them apart because no size is a status of the same type.  So the bytes that a
  port sends in any run split into packets in one way only (`responses_decodable`),
  whichever writes fail, as long as the others send all of theirs.
-/
import BafangEmulator.Foundation.PrefixCode
import BafangEmulator.Restart

set_option autoImplicit false

namespace BafangEmulator

open Foundation

/-! ## Packets -/

/-- `sizeof(response_general)`. -/
def generalPayloadSize : Nat := 16

/-- A packet that the handler sends. -/
inductive IsResponse : Bytes → Prop where
  /-- The general block. -/
  | general {payload : Bytes} (hlength : payload.length = generalPayloadSize) :
      IsResponse (responsePacket .general payload)
  /-- A block of the config profile. -/
  | block (b : Block) {payload : Bytes} (hlength : payload.length = b.payloadSize) :
      IsResponse (responsePacket b.type payload)
  /-- The status of a write. -/
  | status (b : Block) {status : UInt8} (hstatus : status ≤ b.success) :
      IsResponse (responseStatusPacket b.type status)

/-- The length of a packet by its first two bytes. -/
def responseSize : Bytes → Nat
  | type :: size :: _ =>
    if [Block.basic, Block.pedal, Block.throttle].any
        (fun b => type == b.type.toByte && size ≤ b.success) then 2
    else size.toNat
  | _ => 0

theorem responseSize_status (b : Block) {status : UInt8} (h : status ≤ b.success) :
    responseSize [b.type.toByte, status] = 2 := by
  refine if_pos (List.any_eq_true.mpr ⟨b, ?_, by simp [h]⟩)
  cases b <;> simp

theorem responseSize_block (b : Block) :
    responseSize [b.type.toByte, UInt8.ofNat (b.payloadSize + 2)] = b.payloadSize + 2 := by
  cases b <;> decide

/-- **The responses are a prefix code**: the first two bytes of a packet fix its length. -/
theorem prefixFree_responses : PrefixFree {packet | IsResponse packet} := by
  refine prefixFree_of_header (k := 2) (by decide) responseSize fun packet hpacket => ?_
  cases hpacket with
  | @general payload hlength =>
    have hsize : responseSize ((responsePacket .general payload).take 2) =
        generalPayloadSize + 2 := by
      rw [responsePacket, hlength]
      rfl
    rw [hsize, responsePacket, List.length_cons, List.length_cons, hlength]
    exact ⟨by omega, rfl⟩
  | @block b payload hlength =>
    have hsize : responseSize ((responsePacket b.type payload).take 2) = b.payloadSize + 2 := by
      rw [responsePacket, hlength]
      exact responseSize_block b
    rw [hsize, responsePacket, List.length_cons, List.length_cons, hlength]
    exact ⟨by omega, rfl⟩
  | @status b status hstatus => exact ⟨Nat.le_refl 2, (responseSize_status b hstatus).symm⟩

/-! ## What a request is answered with -/

theorem length_littleEndian (n : Nat) (z : Int) :
    (PacketBuilder.littleEndian n z).length = n := by
  induction n generalizing z with
  | zero => rfl
  | succ n ih => rw [PacketBuilder.littleEndian, List.length_cons, ih]

theorem length_copyChars {value chars : Bytes} {size : Nat}
    (h : PacketBuilder.copyChars value size = some chars) : chars.length = size := by
  obtain ⟨hsize, hchars⟩ := Option.ite_none_right_eq_some.mp h
  rw [← Option.some.inj hchars, List.length_take, List.length_append, List.length_singleton]
  omega

/-- The general block has the size of its struct. -/
theorem length_servedGeneral {p : Profile} {payload : Bytes}
    (h : servedGeneral p = some payload) : payload.length = generalPayloadSize := by
  unfold servedGeneral at h
  split at h
  · simp at h
  · rename_i manufacturer hmanufacturer
    split at h
    · simp at h
    · rename_i model hmodel
      rw [← Option.some.inj h]
      simp [PacketBuilder.generalPayload, length_littleEndian, length_copyChars hmanufacturer,
        length_copyChars hmodel, generalPayloadSize]

/-- What is written in one event: nothing, or one response. -/
def AtMostOneResponse (written : List Bytes) : Prop :=
  written = [] ∨ ∃ packet, written = [packet] ∧ IsResponse packet

theorem atMostOneResponse_reply (env : Environment) {packet : Bytes} (hpacket : IsResponse packet)
    {s : Session} (hs : s.written = []) : AtMostOneResponse (s.reply env packet).written := by
  rw [Session.reply, hs, List.nil_append]
  cases env.writes with
  | true => exact Or.inr ⟨packet, rfl, hpacket⟩
  | false => exact Or.inl rfl

/-- Serving a request writes one response at most. -/
theorem Serves.atMostOneResponse {env : Environment} {s s' : Session} {r : Request}
    (h : Serves env s r s') (hs : s.written = []) : AtMostOneResponse s'.written := by
  cases h with
  | generalOnDisk hserved hexists =>
    exact atMostOneResponse_reply env (.general (length_servedGeneral hserved)) hs
  | generalSaved hserved hexists hopens hfill hfiles =>
    exact atMostOneResponse_reply env (.general (length_servedGeneral hserved)) hs
  | generalUnsaved hserved hexists hopens hfill => exact Or.inl hs
  | @block b payload p hserved hfill =>
    exact atMostOneResponse_reply env (.block b (length_served hserved)) hs
  | @rejected b packet status hreject =>
    exact atMostOneResponse_reply env (.status b (UInt8.le_of_lt (status_lt_success hreject))) hs
  | @accepted b packet haccept hopens =>
    exact atMostOneResponse_reply env (.status b (UInt8.le_refl _)) hs
  | unsaved haccept hopens => exact Or.inl hs

namespace Emulator

variable {Port : Type} [DecidableEq Port]

/-- A data event writes one response at most, and to its own port. -/
theorem atMostOneResponse_of_step {em em' : Emulator Port} {e : Event Port}
    {o : Observation Port} (h : machine.step em e = some (em', o)) :
    o.port = e.port ∧ AtMostOneResponse o.written := by
  obtain ⟨s', hhandles, -, rfl⟩ := handles_of_step h
  refine ⟨rfl, ?_⟩
  cases hjudge : judge (em.received e) with
  | wait =>
    rw [hjudge] at hhandles
    cases hhandles with
    | wait => exact Or.inl rfl
  | corrupt =>
    rw [hjudge] at hhandles
    cases hhandles with
    | corrupt => exact Or.inl rfl
  | unsupported =>
    rw [hjudge] at hhandles
    cases hhandles with
    | unsupported => exact Or.inl rfl
  | request r =>
    rw [hjudge] at hhandles
    cases hhandles with
    | request hserves => exact hserves.atMostOneResponse rfl

/-- The packets sent to a port. -/
def packetsTo (port : Port) (os : List (Observation Port)) : List Bytes :=
  (os.filter fun o => o.port = port).flatMap Observation.written

/-- All packets of a run are responses. -/
theorem atMostOneResponse_of_run {em em' : Emulator Port} {es : List (Event Port)}
    {os : List (Observation Port)} (hrun : machine.run em es = some (em', os)) :
    ∀ o ∈ os, AtMostOneResponse o.written :=
  Machine.run_observations (fun _ => True)
    (fun _ hstep => ⟨trivial, (atMostOneResponse_of_step hstep).2⟩) trivial hrun

theorem mem_packetsTo {em em' : Emulator Port} {es : List (Event Port)}
    {os : List (Observation Port)} (hrun : machine.run em es = some (em', os)) {port : Port} :
    ∀ packet ∈ packetsTo port os, IsResponse packet := by
  intro packet hpacket
  obtain ⟨o, ho, hmem⟩ := List.mem_flatMap.mp hpacket
  rcases atMostOneResponse_of_run hrun o (List.mem_of_mem_filter ho) with hnil | ⟨p, hp, hresponse⟩
  · rw [hnil] at hmem
    simp at hmem
  · rw [hp, List.mem_singleton] at hmem
    exact hmem ▸ hresponse

/-- **The bytes of a port can be read.**  In any run every data event sends at most one
response, and in any two runs, from whatever states and whichever saves and writes to a port
fail, a port that has sent the same bytes has sent the same packets.  A write that does not
fail sends its packet completely here, as `Environment` says; a part of a packet would be
ambiguous. -/
theorem responses_decodable {em em' fm fm' : Emulator Port} {es fs : List (Event Port)}
    {os us : List (Observation Port)} (hrun : machine.run em es = some (em', os))
    (hrun' : machine.run fm fs = some (fm', us)) (port : Port) :
    (∀ o ∈ os, o.written.length ≤ 1) ∧
      ((packetsTo port os).flatten = (packetsTo port us).flatten →
        packetsTo port os = packetsTo port us) := by
  constructor
  · intro o ho
    rcases atMostOneResponse_of_run hrun o ho with hnil | ⟨p, hp, -⟩
    · simp [hnil]
    · simp [hp]
  · exact prefixFree_responses.uniquelyDecodable _ _ (mem_packetsTo hrun) (mem_packetsTo hrun')

/-- The same bytes in one chunk and in two. -/
theorem responses_decodable_chunks :
    ∃ (em em' : Emulator Unit) (os us : List (Observation Unit)),
      machine.run bare [arrival () [0x11, 0x54]] = some (em, os) ∧
      machine.run bare [arrival () [0x11], arrival () [0x54]] = some (em', us) ∧
      packetsTo () os = packetsTo () us := by
  have hone : (machine.run (bare : Emulator Unit) [arrival () [0x11, 0x54]]).map
      (fun r => (packetsTo () r.2).flatten) = some [0x54, 8, 11, 35, 0, 4, 3, 20] := by
    decide +kernel
  have htwo : (machine.run (bare : Emulator Unit) [arrival () [0x11], arrival () [0x54]]).map
      (fun r => (packetsTo () r.2).flatten) = some [0x54, 8, 11, 35, 0, 4, 3, 20] := by
    decide +kernel
  obtain ⟨em, os, hrun, hbytes⟩ := Machine.exists_run_of_map hone
  obtain ⟨em', us, hrun', hbytes'⟩ := Machine.exists_run_of_map htwo
  have hbytes : (packetsTo () os).flatten = (packetsTo () us).flatten := hbytes.trans hbytes'.symm
  exact ⟨em, em', os, us, hrun, hrun', (responses_decodable hrun hrun' ()).2 hbytes⟩

end Emulator

/-! ## The general block -/

/-- Serving a request leaves the general block alone, and what it sends under the type of
the general block is that block. -/
theorem Serves.general_block {env : Environment} {s s' : Session} {r : Request}
    (h : Serves env s r s') (hs : s.written = []) :
    servedGeneral s'.general = servedGeneral s.general ∧
      ∀ packet ∈ s'.written, packet.head? = some PacketTypes.general.toByte →
        ∃ payload, servedGeneral s.general = some payload ∧
          packet = responsePacket .general payload := by
  have hblock : ∀ b : Block, b.type.toByte ≠ PacketTypes.general.toByte := by
    intro b
    cases b <;> decide
  cases h with
  | @generalOnDisk payload hserved hexists =>
    exact ⟨rfl, fun packet hpacket _ => ⟨payload, hserved, eq_of_mem_reply hs hpacket⟩⟩
  | @generalSaved payload t hserved hexists hopens hfill hfiles =>
    exact ⟨(servedGeneral_saved _ t).trans hfill.servedGeneral_eq,
      fun packet hpacket _ => ⟨payload, hserved, eq_of_mem_reply hs hpacket⟩⟩
  | generalUnsaved hserved hexists hopens hfill =>
    refine ⟨hfill.servedGeneral_eq, fun packet hpacket => ?_⟩
    rw [hs] at hpacket
    simp at hpacket
  | @block b payload p hserved hfill =>
    refine ⟨rfl, fun packet hpacket hhead => ?_⟩
    rw [eq_of_mem_reply hs hpacket] at hhead
    exact absurd (Option.some.inj hhead) (hblock b)
  | @rejected b packet' status hreject =>
    refine ⟨rfl, fun packet hpacket hhead => ?_⟩
    rw [eq_of_mem_reply hs hpacket] at hhead
    exact absurd (Option.some.inj hhead) (hblock b)
  | @accepted b packet' haccept hopens =>
    refine ⟨rfl, fun packet hpacket hhead => ?_⟩
    rw [eq_of_mem_reply hs hpacket] at hhead
    exact absurd (Option.some.inj hhead) (hblock b)
  | unsaved haccept hopens =>
    refine ⟨rfl, fun packet hpacket => ?_⟩
    rw [hs] at hpacket
    simp at hpacket

namespace Emulator

variable {Port : Type} [DecidableEq Port]

/-- One step leaves the general block alone and sends no other under its type. -/
theorem general_block_of_step {em em' : Emulator Port} {e : Event Port} {o : Observation Port}
    (h : machine.step em e = some (em', o)) :
    servedGeneral em'.general = servedGeneral em.general ∧
      ∀ packet ∈ o.written, packet.head? = some PacketTypes.general.toByte →
        ∃ payload, servedGeneral em.general = some payload ∧
          packet = responsePacket .general payload := by
  obtain ⟨s', hhandles, rfl, rfl⟩ := handles_of_step h
  have hsilent : (em.arrived e).written = [] := rfl
  cases hjudge : judge (em.received e) with
  | wait =>
    rw [hjudge] at hhandles
    cases hhandles with
    | wait => exact ⟨rfl, by simp [hsilent]⟩
  | corrupt =>
    rw [hjudge] at hhandles
    cases hhandles with
    | corrupt => exact ⟨rfl, by simp [hsilent]⟩
  | unsupported =>
    rw [hjudge] at hhandles
    cases hhandles with
    | unsupported => exact ⟨rfl, by simp [hsilent]⟩
  | request r =>
    rw [hjudge] at hhandles
    cases hhandles with
    | request hserves => exact hserves.general_block rfl

/-- **The general block is read only.**  In any run, however saves and ports fail and
whatever is written to the other blocks, all that is ever sent as the general block is what
`build` makes of the general profile at the start. -/
theorem general_block_is_read_only {em em' : Emulator Port} {es : List (Event Port)}
    {os : List (Observation Port)} (hrun : machine.run em es = some (em', os)) :
    ∀ o ∈ os, ∀ packet ∈ o.written, packet.head? = some PacketTypes.general.toByte →
      ∃ payload, (PacketBuilder.buildGeneral .working ⟨em.general, em.files⟩).value? =
          some payload ∧ packet = responsePacket .general payload := by
  rw [value?_buildGeneral]
  refine Machine.run_observations
    (fun em₁ : Emulator Port => servedGeneral em₁.general = servedGeneral em.general) ?_ rfl hrun
  intro em₁ em₂ e o hem hstep
  obtain ⟨hsame, hsent⟩ := general_block_of_step hstep
  rw [hem] at hsame hsent
  exact ⟨hsame, hsent⟩

/-- A read of the general block, a throttle write and another read. -/
theorem general_block_is_read_only_twice :
    ∃ (em : Emulator Unit) (os : List (Observation Unit)),
      machine.run bare [arrival () (ValidRequest.readGeneral 1 ⟨[0], rfl⟩).wire,
        arrival () ValidRequest.sampleWrite.wire,
        arrival () (ValidRequest.readGeneral 1 ⟨[0], rfl⟩).wire] = some (em, os) ∧
      ∀ o ∈ os, ∀ packet ∈ o.written, packet.head? = some PacketTypes.general.toByte →
        ∃ payload, (PacketBuilder.buildGeneral .working
            ⟨(bare : Emulator Unit).general, (bare : Emulator Unit).files⟩).value? =
            some payload ∧ packet = responsePacket .general payload := by
  have hdefined : (machine.run (bare : Emulator Unit)
      [arrival () (ValidRequest.readGeneral 1 ⟨[0], rfl⟩).wire,
        arrival () ValidRequest.sampleWrite.wire,
        arrival () (ValidRequest.readGeneral 1 ⟨[0], rfl⟩).wire]).isSome = true := by
    decide +kernel
  obtain ⟨em, os, hrun⟩ := Machine.exists_run_of_isSome hdefined
  exact ⟨em, os, hrun, general_block_is_read_only hrun⟩

end Emulator

end BafangEmulator
