/-
  ChangedByte.lean --- what one changed byte of a write request does.

  The checksum detects a changed byte of a packet that is read with its own layout
  (`verification_ne_of_set`).  A changed command makes a read or nothing of the
  request.  A changed type makes a request of another layout: a longer one is
  waited for, but a shorter one is complete, and is a write of its own when the
  payload byte in the place of the checksum happens to be right (`Misread`).
-/
import BafangEmulator.Emulator
import BafangEmulator.Reception

set_option autoImplicit false

namespace BafangEmulator

open Foundation

/-- The payload of a write of `b` can be read as an accepted write of the shorter
block `b'`: the byte behind the shorter payload is the checksum of that packet. -/
def Misread (b : Block) (size : UInt8) (payload : Bytes) (b' : Block) : Prop :=
  b'.payloadSize < b.payloadSize ∧
    payload[b'.payloadSize]? =
      some (sumFrom (b'.type.toByte + size) (payload.take b'.payloadSize)) ∧
    Accepted b' (payload.take b'.payloadSize)

instance (b : Block) (size : UInt8) (payload : Bytes) (b' : Block) :
    Decidable (Misread b size payload b') := inferInstanceAs (Decidable (_ ∧ _ ∧ _))

/-- What the handler may make of a write of `b` with one changed byte. -/
inductive ChangedWrite (b : Block) (size : UInt8) (payload : Bytes) (i : Nat) (v : UInt8) :
    Verdict → Prop where
  | wait : ChangedWrite b size payload i v .wait
  | corrupt : ChangedWrite b size payload i v .corrupt
  | unsupported : ChangedWrite b size payload i v .unsupported
  | read : ChangedWrite b size payload i v (.request (.readBlock b))
  | write (b' : Block) (packet : RequestPacket b'.payloadSize) (hi : i = 1)
      (hv : v = b'.type.toByte) (hshort : b'.payloadSize < b.payloadSize)
      (hpayload : packet.payload.toList = payload.take b'.payloadSize)
      (hchecksum : payload[b'.payloadSize]? =
        some (sumFrom (b'.type.toByte + size) (payload.take b'.payloadSize))) :
      ChangedWrite b size payload i v (.request (.writeBlock b' packet))

namespace ValidRequest

section Write

variable (b : Block) (size : UInt8) (payload : List.Vector UInt8 b.payloadSize)

/-- The wire form of a write, its first two bytes apart. -/
theorem wire_writeBlock :
    (ValidRequest.writeBlock b size payload).wire =
      PacketCommands.write.toByte :: b.type.toByte :: size :: (payload.toList ++
        [sumFrom (b.type.toByte + size) payload.toList]) := rfl

/-- A changed command. -/
theorem judge_changed_command {v : UInt8} (hv : v ≠ PacketCommands.write.toByte) :
    ChangedWrite b size payload.toList 0 v
      (judge ((ValidRequest.writeBlock b size payload).wire.set 0 v)) := by
  rw [wire_writeBlock, List.set_cons_zero]
  cases hc : PacketCommands.ofByte? v with
  | none =>
    have hjudge : ∀ rest, judge (v :: b.type.toByte :: rest) = .unsupported := by
      intro rest
      simp [judge, hc]
    rw [hjudge]
    exact .unsupported
  | some c =>
    obtain rfl := PacketCommands.ofByte?_eq_some hc
    cases c with
    | read =>
      rw [judge_readBlock]
      exact .read
    | write => exact absurd rfl hv

/-- The packet of a shorter block that a write starts with once its type is changed. -/
def shorter (b' : Block) (h : b'.payloadSize < b.payloadSize) : RequestPacket b'.payloadSize where
  command := PacketCommands.write.toByte
  type := b'.type.toByte
  size := size
  payload := ⟨payload.toList.take b'.payloadSize, by
    rw [List.length_take, List.Vector.toList_length]
    omega⟩
  verification := payload.get ⟨b'.payloadSize, h⟩

theorem payloadSize_lt_length {b' : Block} (h : b'.payloadSize < b.payloadSize) :
    b'.payloadSize < payload.toList.length := by
  rw [List.Vector.toList_length]
  exact h

theorem shorter_append (b' : Block) (h : b'.payloadSize < b.payloadSize) :
    (ValidRequest.writeBlock b size payload).wire.set 1 b'.type.toByte =
      (shorter b size payload b' h).serialize ++
        (payload.toList.drop (b'.payloadSize + 1) ++
          [sumFrom (b.type.toByte + size) payload.toList]) := by
  have hlt := payloadSize_lt_length b payload h
  have hget : payload.get ⟨b'.payloadSize, h⟩ = payload.toList[b'.payloadSize] := by
    rw [List.Vector.get_eq_get_toList]
    rfl
  rw [wire_writeBlock, RequestPacket.serialize]
  simp only [shorter, hget, List.Vector.toList_mk, List.set_cons_succ, List.set_cons_zero,
    List.cons_append, List.append_assoc, List.nil_append, List.cons.injEq, true_and]
  have hsplit : payload.toList = payload.toList.take b'.payloadSize ++
      payload.toList[b'.payloadSize] :: payload.toList.drop (b'.payloadSize + 1) := by
    rw [← List.drop_eq_getElem_cons hlt, List.take_append_drop]
  rw [← List.cons_append, ← List.append_assoc, ← hsplit]

/-- A shorter packet is a write of its own when its checksum is right. -/
theorem judge_shorter (b' : Block) (h : b'.payloadSize < b.payloadSize) :
    judge ((ValidRequest.writeBlock b size payload).wire.set 1 b'.type.toByte) =
      if (shorter b size payload b' h).verification = (shorter b size payload b' h).verify then
        .request (.writeBlock b' (shorter b size payload b' h))
      else .corrupt := by
  rw [shorter_append b size payload b' h, ← judgePacket_serialize_append]
  exact judge_writeBlock b' _

/-- The checksum of the shorter packet is a byte of the payload. -/
theorem verification_shorter_iff (b' : Block) (h : b'.payloadSize < b.payloadSize) :
    (shorter b size payload b' h).verification = (shorter b size payload b' h).verify ↔
      payload.toList[b'.payloadSize]? =
        some (sumFrom (b'.type.toByte + size) (payload.toList.take b'.payloadSize)) := by
  have hlt := payloadSize_lt_length b payload h
  have hget : payload.toList[b'.payloadSize]? =
      some (shorter b size payload b' h).verification := by
    rw [shorter, List.Vector.get_eq_get_toList, List.getElem?_eq_getElem hlt]
    rfl
  rw [hget, Option.some.injEq, RequestPacket.verify_eq]
  rfl

/-- A changed type. -/
theorem judge_changed_type {v : UInt8} (hv : v ≠ b.type.toByte) :
    ChangedWrite b size payload.toList 1 v
      (judge ((ValidRequest.writeBlock b size payload).wire.set 1 v)) := by
  cases frame ((ValidRequest.writeBlock b size payload).wire.set 1 v) with
  | short hlength => simp [wire_writeBlock] at hlength
  | readGeneral hdata =>
    rw [wire_writeBlock, List.set_cons_succ, List.set_cons_zero] at hdata
    exact absurd (List.cons.inj hdata).1 (by decide)
  | readBlock hdata =>
    rw [wire_writeBlock, List.set_cons_succ, List.set_cons_zero] at hdata
    exact absurd (List.cons.inj hdata).1 (by decide)
  | other hjudge =>
    rw [hjudge]
    exact .unsupported
  | @writeBlock b' rest hdata =>
    rw [wire_writeBlock, List.set_cons_succ, List.set_cons_zero] at hdata
    obtain rfl := (List.cons.inj (List.cons.inj hdata).2).1
    by_cases hlong : b.payloadSize < b'.payloadSize
    · rw [wire_writeBlock, List.set_cons_succ, List.set_cons_zero, judge_writeBlock,
        judgePacket_of_short]
      · exact .wait
      · simpa [RequestPacket.packetSize] using hlong
    · have hshort : b'.payloadSize < b.payloadSize := by
        refine Nat.lt_of_le_of_ne (Nat.not_lt.mp hlong) fun h => hv ?_
        rw [Block.payloadSize_injective h]
      rw [judge_shorter b size payload b' hshort]
      split
      · rename_i hchecksum
        exact .write b' _ rfl rfl hshort rfl
          ((verification_shorter_iff b size payload b' hshort).mp hchecksum)
      · exact .corrupt

/-- A change behind the type. -/
theorem judge_changed_rest {i : Nat} {v : UInt8} (hi : 2 ≤ i)
    (hlt : i < (ValidRequest.writeBlock b size payload).wire.length)
    (hv : v ≠ (ValidRequest.writeBlock b size payload).wire[i]) :
    ChangedWrite b size payload.toList i v
      (judge ((ValidRequest.writeBlock b size payload).wire.set i v)) := by
  obtain ⟨j, rfl⟩ : ∃ j, i = j + 2 := ⟨i - 2, by omega⟩
  have hcomplete : RequestPacket.packetSize b.payloadSize ≤
      ((ValidRequest.writeBlock b size payload).wire.set (j + 2) v).length := by simp [wire]
  obtain ⟨q, rest, hq⟩ := RequestPacket.exists_serialize_append hcomplete
  have hrest : rest = [] := by
    have hlength := congrArg List.length hq
    simp only [wire, List.length_set, RequestPacket.length_serialize, List.length_append] at hlength
    exact List.length_eq_zero_iff.mp (by omega)
  rw [hrest, List.append_nil] at hq
  have hwrong : q.verification ≠ q.verify :=
    RequestPacket.verification_ne_of_set (by omega) hlt hv (verification_packet _ _ _ _) hq.symm
  have hjudge : judge q.serialize = judgePacket b.payloadSize (.writeBlock b) q.serialize := by
    rw [← hq, wire_writeBlock, List.set_cons_succ, List.set_cons_succ, judge_writeBlock]
  have hpacket : judgePacket b.payloadSize (.writeBlock b) q.serialize = .corrupt := by
    rw [← List.append_nil q.serialize, judgePacket_serialize_append, if_neg hwrong]
  rw [hq, hjudge, hpacket]
  exact .corrupt

/-- **One changed byte of a write** leaves one way for the request to be taken for
a write: its type has become that of a shorter block. -/
theorem judge_changed {i : Nat} {v : UInt8}
    (hi : i < (ValidRequest.writeBlock b size payload).wire.length)
    (hv : v ≠ (ValidRequest.writeBlock b size payload).wire[i]) :
    ChangedWrite b size payload.toList i v
      (judge ((ValidRequest.writeBlock b size payload).wire.set i v)) := by
  match i with
  | 0 => exact judge_changed_command b size payload hv
  | 1 => exact judge_changed_type b size payload hv
  | j + 2 => exact judge_changed_rest b size payload (by omega) hi hv

end Write

end ValidRequest

/-! ## What comes of it -/

namespace Emulator

variable {Port : Type} [DecidableEq Port]

/-- Nothing was written to the config profile: no write was acknowledged, the stored
values are the same but for defaults that a read filled in, and so are the files. -/
structure Unwritten (em em' : Emulator Port) (o : Observation Port) : Prop where
  no_success : ∀ b : Block, responseStatusPacket b.type b.success ∉ o.written
  config_filled : Filled configSlots em.config em'.config
  files_eq : em'.files = em.files

/-- The reply to a read is longer than a status. -/
theorem success_notMem_of_served {env : Environment} {s : Session} {p : Profile} {b : Block}
    {payload : Bytes} (hs : s.written = []) (hserved : served p b = some payload) (b' : Block) :
    responseStatusPacket b'.type b'.success ∉
      (s.reply env (responsePacket b.type payload)).written := by
  intro hmem
  have hlength := congrArg List.length (eq_of_mem_reply hs hmem)
  have hsize : 0 < b.payloadSize := by cases b <;> decide
  simp only [responseStatusPacket, responsePacket, List.length_cons, List.length_nil,
    length_served hserved] at hlength
  omega

/-- The reply to a rejected write is not a status of success, of its own block or another. -/
theorem success_notMem_of_rejected {env : Environment} {s : Session} {b : Block}
    {payload : Bytes} {status : UInt8} (hs : s.written = [])
    (hreject : rejection b.fields payload = some status) (b' : Block) :
    responseStatusPacket b'.type b'.success ∉
      (s.reply env (responseStatusPacket b.type status)).written := by
  intro hmem
  have heq := eq_of_mem_reply hs hmem
  simp only [responseStatusPacket, List.cons.injEq, and_true] at heq
  obtain rfl := Block.type_injective (PacketTypes.toByte_injective heq.1)
  exact status_ne_success hreject heq.2.symm

/-- What a changed write comes to, when it is not taken for an accepted write. -/
theorem unwritten_of_changed {em : Emulator Port} {e : Event Port} {s' : Session}
    {verdict : Verdict} {b : Block} {size : UInt8} {payload : Bytes} {i : Nat} {v : UInt8}
    (hchanged : ChangedWrite b size payload i v verdict)
    (hmisread : ¬ (i = 1 ∧ ∃ b', v = b'.type.toByte ∧ Misread b size payload b'))
    (h : Handles e.env (em.arrived e) verdict s') :
    Unwritten em (em.conclude e.port s')
      { port := e.port, received := em.received e, written := s'.written } := by
  cases hchanged with
  | wait =>
    cases h
    exact ⟨fun _ => List.not_mem_nil, Filled.refl configSlots em.config, rfl⟩
  | corrupt =>
    cases h
    exact ⟨fun _ => List.not_mem_nil, Filled.refl configSlots em.config, rfl⟩
  | unsupported =>
    cases h
    exact ⟨fun _ => List.not_mem_nil, Filled.refl configSlots em.config, rfl⟩
  | read =>
    cases h with
    | request hserves =>
      cases hserves with
      | block hserved hfill =>
        exact ⟨fun b' => success_notMem_of_served rfl hserved b', hfill, rfl⟩
  | write b' packet hi hv hshort hpayload hchecksum =>
    have hrejected : ¬ Accepted b' packet.payload.toList := fun haccept =>
      hmisread ⟨hi, b', hv, hshort, hchecksum, hpayload ▸ haccept⟩
    cases h with
    | request hserves =>
      cases hserves with
      | rejected hreject =>
        exact ⟨fun b'' => success_notMem_of_rejected rfl hreject b'',
          Filled.refl configSlots em.config, rfl⟩
      | accepted haccept _ => exact absurd haccept hrejected
      | unsaved haccept _ => exact absurd haccept hrejected

/-- A changed write that is taken for an accepted write of `b'` is stored and answered
as one. -/
structure WrittenAs (b' : Block) (payload : Bytes) (em em' : Emulator Port)
    (o : Observation Port) : Prop where
  success : o.written = [responseStatusPacket b'.type b'.success]
  config_committed : em'.config.data = (committed em.config b' (payload.take b'.payloadSize)).data
  file_eq : em'.files em.config.filename = some (Profile.render em'.config.data)

/-- A changed write that can be misread, and dumped, is written as it is misread. -/
theorem writtenAs_of_misread {em : Emulator Port} {e : Event Port} {b b' : Block} {size : UInt8}
    {payload : List.Vector UInt8 b.payloadSize} (hempty : em.buffers e.port = [])
    (hchunk : e.chunk = (ValidRequest.writeBlock b size payload).wire.set 1 b'.type.toByte)
    (hmisread : Misread b size payload.toList b') (hworking : e.env = .working)
    (hreceived : Trace.Dumpable e.chunk)
    (hpacket : Trace.Dumpable (e.chunk.take (RequestPacket.packetSize b'.payloadSize))) :
    ∃ em' o, machine.step em e = some (em', o) ∧ WrittenAs b' payload.toList em em' o := by
  obtain ⟨hshort, hchecksum, haccept⟩ := hmisread
  have hchunk' : em.received e = e.chunk := by rw [received, hempty, List.nil_append]
  have hjudge : judge (em.received e) =
      .request (.writeBlock b' (ValidRequest.shorter b size payload b' hshort)) := by
    rw [hchunk', hchunk, ValidRequest.judge_shorter _ _ _ _ hshort,
      if_pos ((ValidRequest.verification_shorter_iff b size payload b' hshort).mpr hchecksum)]
  rcases step_cases em e with ⟨hnot, -⟩ | ⟨-, s', hhandles, hstep⟩
  · refine absurd ⟨⟨?_, ?_⟩, ?_⟩ hnot
    · show Trace.Dumpable (em.received e)
      exact hchunk'.symm ▸ hreceived
    · show (judge (em.received e)).Shown e.env em.general em.config (em.received e)
      rw [hjudge, hchunk']
      exact ⟨hpacket, trivial⟩
    · show (judge (em.received e)).Answerable em.general em.config
      rw [hjudge]
      trivial
  · refine ⟨_, _, hstep, ?_⟩
    rw [hjudge] at hhandles
    cases hhandles with
    | request hserves =>
      cases hserves with
      | rejected hreject => exact absurd (haccept.symm.trans hreject) (by simp)
      | accepted _ _ =>
        refine ⟨?_, rfl, ?_⟩
        · rw [hworking]
          rfl
        · simp [conclude, Session.reply, Session.setConfigStore, Profile.saved, arrived, session]
      | unsaved _ hopens =>
        rw [hworking] at hopens
        exact absurd hopens (by simp [Environment.working])

/-- **What one changed byte of a write does.**  A valid write request in which one
byte is changed, received in one chunk by a port with an empty buffer, writes
nothing, unless its type is changed to that of a shorter block and the request can
be misread as a write of it; then it is stored and answered as that write, where what
was received and the packet it is taken for can be dumped. -/
theorem changed_byte_of_write {em : Emulator Port} {e : Event Port} (b : Block) (size : UInt8)
    (payload : List.Vector UInt8 b.payloadSize) {i : Nat} {v : UInt8}
    (hi : i < (ValidRequest.writeBlock b size payload).wire.length)
    (hv : v ≠ (ValidRequest.writeBlock b size payload).wire[i])
    (hempty : em.buffers e.port = [])
    (hchunk : e.chunk = (ValidRequest.writeBlock b size payload).wire.set i v) :
    (¬ (i = 1 ∧ ∃ b', v = b'.type.toByte ∧ Misread b size payload.toList b') →
      ∀ em' o, machine.step em e = some (em', o) → Unwritten em em' o) ∧
    (∀ b', i = 1 → v = b'.type.toByte → Misread b size payload.toList b' → e.env = .working →
      Trace.Dumpable e.chunk →
      Trace.Dumpable (e.chunk.take (RequestPacket.packetSize b'.payloadSize)) →
      ∃ em' o, machine.step em e = some (em', o) ∧ WrittenAs b' payload.toList em em' o) := by
  constructor
  · intro hmisread em' o hstep
    obtain ⟨s', hhandles, rfl, rfl⟩ := handles_of_step hstep
    have hreceived : em.received e = (ValidRequest.writeBlock b size payload).wire.set i v := by
      rw [received, hempty, hchunk, List.nil_append]
    have hchanged := ValidRequest.judge_changed b size payload hi hv
    rw [← hreceived] at hchanged
    exact unwritten_of_changed hchanged hmisread hhandles
  · intro b' hi' hv' hmisread hworking hreceived hpacket
    subst hi' hv'
    exact writtenAs_of_misread hempty hchunk hmisread hworking hreceived hpacket

/-- The payload of a basic write whose seventh byte is the checksum of its first six
as a throttle write. -/
def ambiguous : List.Vector UInt8 Block.basic.payloadSize :=
  ⟨[12, 36, 1, 5, 4, 21, 187, 0, 0, 0, 0, 0, 0, 0, 0, 0, 0, 0, 0, 0, 0, 0, 0, 0], rfl⟩

/-- A throttle write with a changed payload byte, as `bare` receives it, and the basic write
with its type changed. -/
theorem changed_byte_of_write_throttle :
    (∃ em o, machine.step bare (arrival () ((ValidRequest.writeBlock .throttle 9
        ⟨[12, 36, 1, 5, 4, 21], rfl⟩).wire.set 3 13)) = some (em, o) ∧ Unwritten bare em o) ∧
    ∃ em o, machine.step bare
        (arrival () ((ValidRequest.writeBlock .basic 24 ambiguous).wire.set 1 0x54)) = some (em, o) ∧
      WrittenAs .throttle ambiguous.toList bare em o := by
  have hdefined : (machine.step bare (arrival () ((ValidRequest.writeBlock .throttle 9
      ⟨[12, 36, 1, 5, 4, 21], rfl⟩).wire.set 3 13))).isSome = true := by decide +kernel
  obtain ⟨⟨em, o⟩, hstep⟩ := Option.isSome_iff_exists.mp hdefined
  refine ⟨⟨em, o, hstep, (changed_byte_of_write .throttle 9 ⟨[12, 36, 1, 5, 4, 21], rfl⟩
    (by decide) (by decide) rfl rfl).1 (by simp) em o hstep⟩, ?_⟩
  exact (changed_byte_of_write .basic 24 ambiguous (i := 1) (v := 0x54) (by decide) (by decide)
    rfl rfl).2 .throttle rfl rfl (by decide) rfl (by decide +kernel) (by decide +kernel)

/-- With its type changed to throttle, this basic write is accepted and changes the
throttle block. -/
theorem changed_type_is_accepted :
    ∃ em o, machine.step bare
        (arrival () ((ValidRequest.writeBlock .basic 24 ambiguous).wire.set 1 0x54)) = some (em, o) ∧
      o.written = [responseStatusPacket .throttle Block.throttle.success] ∧
      ¬ Unwritten bare em o := by
  have hmisread : Misread .basic 24 ambiguous.toList .throttle := by decide
  have hempty : bare.buffers (arrival ()
      ((ValidRequest.writeBlock .basic 24 ambiguous).wire.set 1 0x54)).port = [] := rfl
  obtain ⟨em, o, hstep, hwritten⟩ := writtenAs_of_misread hempty rfl hmisread rfl
    (by decide +kernel) (by decide +kernel)
  refine ⟨em, o, hstep, hwritten.success, fun h => h.no_success .throttle ?_⟩
  rw [hwritten.success]
  exact List.mem_singleton_self _

end Emulator

end BafangEmulator
