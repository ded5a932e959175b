/-
  Reception.lean --- what a receive buffer holds.

  There is no framing on the line.  The handler goes by the first two bytes of its
  buffer, which fix the length of the request (`Frame`), and by the checksum of a
  complete packet.  `judged` says what each verdict means for the bytes of the
  buffer; for the requests of a client the verdicts are

      a request that is cut short         wait          (`judge_of_wire_eq_append`)
      a request and whatever follows it   the request   (`judge_wire_append`)
-/
import BafangEmulator.SerialHandler

set_option autoImplicit false

namespace BafangEmulator

open Foundation

/-! ## The first two bytes -/

/-- What the first two bytes of a buffer announce. -/
inductive Frame (data : Bytes) : Prop where
  /-- Fewer than two bytes. -/
  | short (hlength : data.length < 2)
  /-- A read of the general block. -/
  | readGeneral {rest : Bytes}
      (hdata : data = PacketCommands.read.toByte :: PacketTypes.general.toByte :: rest)
  /-- A read of a block of the config profile. -/
  | readBlock {b : Block} {rest : Bytes}
      (hdata : data = PacketCommands.read.toByte :: b.type.toByte :: rest)
  /-- A write of a block of the config profile. -/
  | writeBlock {b : Block} {rest : Bytes}
      (hdata : data = PacketCommands.write.toByte :: b.type.toByte :: rest)
  /-- Nothing the handler supports. -/
  | other (hjudge : judge data = .unsupported)

theorem judge_of_short {data : Bytes} (h : data.length < 2) : judge data = .wait := by
  match data, h with
  | [], _ => rfl
  | [_], _ => rfl

theorem judge_readBlock (b : Block) (rest : Bytes) :
    judge (PacketCommands.read.toByte :: b.type.toByte :: rest) = .request (.readBlock b) := by
  cases b <;> rfl

theorem judge_readGeneral (rest : Bytes) :
    judge (PacketCommands.read.toByte :: PacketTypes.general.toByte :: rest) =
      judgePacket SerialHandler.generalRequestSize (fun _ => .readGeneral)
        (PacketCommands.read.toByte :: PacketTypes.general.toByte :: rest) := rfl

theorem judge_writeBlock (b : Block) (rest : Bytes) :
    judge (PacketCommands.write.toByte :: b.type.toByte :: rest) =
      judgePacket b.payloadSize (.writeBlock b)
        (PacketCommands.write.toByte :: b.type.toByte :: rest) := by
  cases b <;> rfl

/-- Every buffer announces something. -/
theorem frame (data : Bytes) : Frame data := by
  match data with
  | [] => exact .short (by simp)
  | [_] => exact .short (by simp)
  | command :: type :: rest =>
    cases hc : PacketCommands.ofByte? command with
    | none => exact .other (by simp [judge, hc])
    | some c =>
      obtain rfl := PacketCommands.ofByte?_eq_some hc
      cases ht : PacketTypes.ofByte? type with
      | none => exact .other (by simp [judge, ht])
      | some t =>
        obtain rfl := PacketTypes.ofByte?_eq_some ht
        cases c with
        | read =>
          cases t with
          | general => exact .readGeneral rfl
          | basic => exact .readBlock (b := .basic) rfl
          | pedal => exact .readBlock (b := .pedal) rfl
          | throttle => exact .readBlock (b := .throttle) rfl
        | write =>
          cases t with
          | general => exact .other rfl
          | basic => exact .writeBlock (b := .basic) rfl
          | pedal => exact .writeBlock (b := .pedal) rfl
          | throttle => exact .writeBlock (b := .throttle) rfl

/-! ## Packets -/

section Packet

variable {n : Nat} {accepted : RequestPacket n → Request}

theorem judgePacket_of_short {data : Bytes} (h : data.length < RequestPacket.packetSize n) :
    judgePacket n accepted data = .wait := if_pos h

/-- What follows a packet does not matter. -/
theorem judgePacket_serialize_append (p : RequestPacket n) (rest : Bytes) :
    judgePacket n accepted (p.serialize ++ rest) =
      if p.verification = p.verify then .request (accepted p) else .corrupt := by
  rw [judgePacket, if_neg (by simp), RequestPacket.deserialize_serialize_append]
  by_cases h : p.verification = p.verify
  · rw [if_pos h, if_pos h]
  · rw [if_neg h, if_neg h]

/-- A buffer is too short for the packet, or starts with one. -/
theorem judgePacket_cases (data : Bytes) :
    (data.length < RequestPacket.packetSize n ∧ judgePacket n accepted data = .wait) ∨
    ∃ (p : RequestPacket n) (rest : Bytes), data = p.serialize ++ rest ∧
      ((p.verification ≠ p.verify ∧ judgePacket n accepted data = .corrupt) ∨
        judgePacket n accepted data = .request (accepted p)) := by
  by_cases hlength : data.length < RequestPacket.packetSize n
  · exact Or.inl ⟨hlength, judgePacket_of_short hlength⟩
  · obtain ⟨p, rest, rfl⟩ := RequestPacket.exists_serialize_append (Nat.not_lt.mp hlength)
    refine Or.inr ⟨p, rest, rfl, ?_⟩
    rw [judgePacket_serialize_append]
    by_cases h : p.verification = p.verify
    · exact Or.inr (if_pos h)
    · exact Or.inl ⟨h, if_neg h⟩

/-- The first two fields of a packet that is the front of a buffer. -/
theorem head_of_serialize_append {p : RequestPacket n} {rest rest' : Bytes} {a b : UInt8}
    (h : a :: b :: rest = p.serialize ++ rest') : p.command = a ∧ p.type = b := by
  simp only [RequestPacket.serialize, List.cons_append, List.cons.injEq] at h
  exact ⟨h.1.symm, h.2.1.symm⟩

end Packet

/-! ## What each verdict says of the buffer -/

/-- The front of a request that is still to be completed. -/
inductive Unfinished (data : Bytes) : Prop where
  /-- Fewer than two bytes. -/
  | short (hlength : data.length < 2)
  /-- The front of a read of the general block. -/
  | readGeneral
      (hhead : data.take 2 = [PacketCommands.read.toByte, PacketTypes.general.toByte])
      (hlength : data.length < RequestPacket.packetSize SerialHandler.generalRequestSize)
  /-- The front of a write. -/
  | writeBlock (b : Block) (hhead : data.take 2 = [PacketCommands.write.toByte, b.type.toByte])
      (hlength : data.length < RequestPacket.packetSize b.payloadSize)

/-- A complete request with a wrong checksum, and whatever follows it. -/
inductive Corrupt (data : Bytes) : Prop where
  /-- A read of the general block. -/
  | readGeneral (p : RequestPacket SerialHandler.generalRequestSize) (rest : Bytes)
      (hdata : data = p.serialize ++ rest) (hcommand : p.command = PacketCommands.read.toByte)
      (htype : p.type = PacketTypes.general.toByte) (hwrong : p.verification ≠ p.verify)
  /-- A write. -/
  | writeBlock (b : Block) (p : RequestPacket b.payloadSize) (rest : Bytes)
      (hdata : data = p.serialize ++ rest) (hcommand : p.command = PacketCommands.write.toByte)
      (htype : p.type = b.type.toByte) (hwrong : p.verification ≠ p.verify)

/-- The command byte of a request. -/
def Request.command : Request → PacketCommands
  | .readGeneral => .read
  | .readBlock _ => .read
  | .writeBlock _ _ => .write

/-- The type byte of a request. -/
def Request.type : Request → PacketTypes
  | .readGeneral => .general
  | .readBlock b => b.type
  | .writeBlock b _ => b.type

/-- What a verdict says of the buffer. -/
inductive Judged (data : Bytes) : Verdict → Prop where
  | wait (h : Unfinished data) : Judged data .wait
  | corrupt (h : Corrupt data) : Judged data .corrupt
  | unsupported : Judged data .unsupported
  | read {r : Request} (hcommand : r.command = .read)
      (hhead : data.take 2 = [PacketCommands.read.toByte, r.type.toByte]) :
      Judged data (.request r)
  | write {b : Block} {p : RequestPacket b.payloadSize}
      (hhead : data.take 2 = [PacketCommands.write.toByte, b.type.toByte])
      (hpayload : (data.drop 3).take b.payloadSize = p.payload.toList) :
      Judged data (.request (.writeBlock b p))

/-- The verdict on a read of the general block. -/
theorem judged_readGeneral {data rest : Bytes}
    (hdata : data = PacketCommands.read.toByte :: PacketTypes.general.toByte :: rest) :
    Judged data (judge data) := by
  have hhead : data.take 2 = [PacketCommands.read.toByte, PacketTypes.general.toByte] := by
    rw [hdata]
    rfl
  have hjudge : judge data =
      judgePacket SerialHandler.generalRequestSize (fun _ => .readGeneral) data := by
    rw [hdata, judge_readGeneral]
  rw [hjudge]
  rcases judgePacket_cases data with ⟨hshort, hwait⟩ | ⟨p, rest', hp, ⟨hwrong, hverdict⟩ | hverdict⟩
  · rw [hwait]
    exact .wait (.readGeneral hhead hshort)
  · rw [hverdict]
    obtain ⟨hcommand, htype⟩ := head_of_serialize_append (hdata.symm.trans hp)
    exact .corrupt (.readGeneral p rest' hp hcommand htype hwrong)
  · rw [hverdict]
    exact .read rfl hhead

/-- The verdict on a write. -/
theorem judged_writeBlock {data rest : Bytes} {b : Block}
    (hdata : data = PacketCommands.write.toByte :: b.type.toByte :: rest) :
    Judged data (judge data) := by
  have hhead : data.take 2 = [PacketCommands.write.toByte, b.type.toByte] := by
    rw [hdata]
    rfl
  have hjudge : judge data = judgePacket b.payloadSize (.writeBlock b) data := by
    rw [hdata, judge_writeBlock]
  rw [hjudge]
  rcases judgePacket_cases data with ⟨hshort, hwait⟩ | ⟨p, rest', hp, ⟨hwrong, hverdict⟩ | hverdict⟩
  · rw [hwait]
    exact .wait (.writeBlock b hhead hshort)
  · rw [hverdict]
    obtain ⟨hcommand, htype⟩ := head_of_serialize_append (hdata.symm.trans hp)
    exact .corrupt (.writeBlock b p rest' hp hcommand htype hwrong)
  · rw [hverdict]
    refine .write hhead ?_
    rw [hp]
    simp [RequestPacket.serialize]

/-- Every verdict is right about its buffer. -/
theorem judged (data : Bytes) : Judged data (judge data) := by
  cases frame data with
  | short hlength =>
    rw [judge_of_short hlength]
    exact .wait (.short hlength)
  | readGeneral hdata => exact judged_readGeneral hdata
  | @readBlock b rest hdata =>
    rw [hdata, judge_readBlock]
    exact .read rfl rfl
  | writeBlock hdata => exact judged_writeBlock hdata
  | other hjudge =>
    rw [hjudge]
    exact .unsupported

theorem unfinished_of_judge {data : Bytes} (h : judge data = .wait) : Unfinished data := by
  have hjudged := judged data
  rw [h] at hjudged
  cases hjudged with
  | wait hunfinished => exact hunfinished

theorem corrupt_of_judge {data : Bytes} (h : judge data = .corrupt) : Corrupt data := by
  have hjudged := judged data
  rw [h] at hjudged
  cases hjudged with
  | corrupt hcorrupt => exact hcorrupt

theorem eq_of_take_two {data : Bytes} {a b : UInt8} (h : data.take 2 = [a, b]) :
    ∃ rest, data = a :: b :: rest := by
  refine ⟨data.drop 2, ?_⟩
  calc data = data.take 2 ++ data.drop 2 := (List.take_append_drop 2 data).symm
    _ = a :: b :: data.drop 2 := by rw [h]; rfl

/-- The front of a request is waited for. -/
theorem Unfinished.judge_eq {data : Bytes} (h : Unfinished data) : judge data = .wait := by
  cases h with
  | short hlength => exact judge_of_short hlength
  | readGeneral hhead hlength =>
    obtain ⟨rest, rfl⟩ := eq_of_take_two hhead
    rw [judge_readGeneral, judgePacket_of_short hlength]
  | writeBlock b hhead hlength =>
    obtain ⟨rest, rfl⟩ := eq_of_take_two hhead
    rw [judge_writeBlock, judgePacket_of_short hlength]

/-- A corrupt buffer is judged to be one. -/
theorem Corrupt.judge_eq {data : Bytes} (h : Corrupt data) : judge data = .corrupt := by
  cases h with
  | readGeneral p rest hdata hcommand htype hwrong =>
    have hhead : p.serialize = PacketCommands.read.toByte :: PacketTypes.general.toByte ::
        p.serialize.drop 2 := by
      rw [← hcommand, ← htype]
      rfl
    rw [hdata, hhead, List.cons_append, List.cons_append, judge_readGeneral, ← List.cons_append,
      ← List.cons_append, ← hhead, judgePacket_serialize_append, if_neg hwrong]
  | writeBlock b p rest hdata hcommand htype hwrong =>
    have hhead : p.serialize = PacketCommands.write.toByte :: b.type.toByte ::
        p.serialize.drop 2 := by
      rw [← hcommand, ← htype]
      rfl
    rw [hdata, hhead, List.cons_append, List.cons_append, judge_writeBlock, ← List.cons_append,
      ← List.cons_append, ← hhead, judgePacket_serialize_append, if_neg hwrong]

instance : DecidablePred Corrupt := fun data =>
  match h : judge data with
  | .corrupt => .isTrue (corrupt_of_judge h)
  | .wait => .isFalse fun hc => by simp [hc.judge_eq] at h
  | .unsupported => .isFalse fun hc => by simp [hc.judge_eq] at h
  | .request _ => .isFalse fun hc => by simp [hc.judge_eq] at h

/-! ## Valid requests -/

/-- A request as a client sends it.  The checksum is right; the size, which the
emulator does not look at, can be anything. -/
inductive ValidRequest where
  /-- The two bytes that ask for a block of the config profile. -/
  | readBlock (b : Block)
  /-- The packet that asks for the general block. -/
  | readGeneral (size : UInt8)
      (payload : List.Vector UInt8 SerialHandler.generalRequestSize)
  /-- The packet that sets a block of the config profile. -/
  | writeBlock (b : Block) (size : UInt8) (payload : List.Vector UInt8 b.payloadSize)

namespace ValidRequest

/-- The packet with the right checksum. -/
def packet {n : Nat} (command : PacketCommands) (type : PacketTypes) (size : UInt8)
    (payload : List.Vector UInt8 n) : RequestPacket n where
  command := command.toByte
  type := type.toByte
  size := size
  payload := payload
  verification := sumFrom (type.toByte + size) payload.toList

/-- The bytes on the wire. -/
def wire : ValidRequest → Bytes
  | readBlock b => [PacketCommands.read.toByte, b.type.toByte]
  | readGeneral size payload => (packet .read .general size payload).serialize
  | writeBlock b size payload => (packet .write b.type size payload).serialize

/-- The type byte of the request. -/
def type : ValidRequest → PacketTypes
  | readBlock b => b.type
  | readGeneral _ _ => .general
  | writeBlock b _ _ => b.type

/-- The request the handler makes of it. -/
def request : ValidRequest → Request
  | readBlock b => .readBlock b
  | readGeneral _ _ => .readGeneral
  | writeBlock b size payload => .writeBlock b (packet .write b.type size payload)

theorem type_request (r : ValidRequest) : r.request.type = r.type := by
  cases r <;> rfl

theorem verification_packet {n : Nat} (command : PacketCommands) (type : PacketTypes)
    (size : UInt8) (payload : List.Vector UInt8 n) :
    (packet command type size payload).verification =
      (packet command type size payload).verify := by
  rw [RequestPacket.verify_eq]
  rfl

/-- **A valid request** is understood, whatever follows it in the buffer. -/
theorem judge_wire_append (r : ValidRequest) (rest : Bytes) :
    judge (r.wire ++ rest) = .request r.request := by
  cases r with
  | readBlock b => exact judge_readBlock b rest
  | readGeneral size payload =>
    have hjudge := judge_readGeneral
      (size :: (payload.toList ++ [(packet .read .general size payload).verification]) ++ rest)
    exact hjudge.trans ((judgePacket_serialize_append (packet .read .general size payload)
      rest).trans (if_pos (verification_packet _ _ _ _)))
  | writeBlock b size payload =>
    have hjudge := judge_writeBlock b
      (size :: (payload.toList ++ [(packet .write b.type size payload).verification]) ++ rest)
    exact hjudge.trans ((judgePacket_serialize_append (packet .write b.type size payload)
      rest).trans (if_pos (verification_packet _ _ _ _)))

/-- What is dumped as the request: its own bytes, or all that was received. -/
theorem front_wire_append (r : ValidRequest) (rest : Bytes) :
    r.request.front (r.wire ++ rest) = r.wire ∨
      Trace.Dumpable r.wire ∧ r.request.front (r.wire ++ rest) = r.wire ++ rest := by
  cases r with
  | readBlock b =>
    refine Or.inr ⟨Trace.dumpable_of_notMem ?_, rfl⟩
    cases b <;> decide
  | readGeneral size payload =>
    exact Or.inl (by rw [request, Request.front, wire, ← RequestPacket.length_serialize,
      List.take_left])
  | writeBlock b size payload =>
    exact Or.inl (by rw [request, Request.front, wire, ← RequestPacket.length_serialize,
      List.take_left])

theorem front_wire (r : ValidRequest) : r.request.front r.wire = r.wire := by
  rcases r.front_wire_append [] with h | ⟨-, h⟩ <;> simpa using h

/-- A request cut short is waited for, wherever the cut is. -/
theorem judge_of_wire_eq_append {r : ValidRequest} {received rest : Bytes}
    (h : r.wire = received ++ rest) (hrest : rest ≠ []) : judge received = .wait := by
  have hlength : received.length < r.wire.length := by
    rw [h, List.length_append]
    have := List.length_pos_of_ne_nil hrest
    omega
  refine Unfinished.judge_eq ?_
  by_cases hshort : received.length < 2
  · exact .short hshort
  · have hhead : received.take 2 = r.wire.take 2 := by
      rw [h, List.take_append_of_le_length (by omega)]
    cases r with
    | readBlock b => exact absurd hlength (by simpa [wire] using hshort)
    | readGeneral size payload =>
      refine .readGeneral hhead ?_
      simpa [wire] using hlength
    | writeBlock b size payload =>
      refine .writeBlock b hhead ?_
      simpa [wire] using hlength

/-- A write of the throttle block to try things on. -/
def sampleWrite : ValidRequest := .writeBlock .throttle 9 ⟨[12, 36, 1, 5, 4, 21], rfl⟩

end ValidRequest

end BafangEmulator
