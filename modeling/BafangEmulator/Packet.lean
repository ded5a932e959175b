/-
  Packet.lean --- packet_types.h, packet.h, packet.cpp: the packets on the wire.

  The packed structs of the source are their bytes in declaration order.  A
  request is command, type, size, payload, verification; a read is answered by
  type, size, payload; a write by type and status.  Neither the command, the
  type nor the size of a request is compared with anything by `deserialize`: the
  type is chosen by the caller and the size is only summed.
-/
import BafangEmulator.Foundation.Bytes

set_option autoImplicit false

namespace BafangEmulator

open Foundation

/-! ## packet_types.h -/

/-- `enum class packet_commands : uint8_t`. -/
inductive PacketCommands where
  /-- Read flash. -/
  | read
  /-- Write flash. -/
  | write
  deriving DecidableEq, Repr

/-- `enum class packet_types : uint8_t`. -/
inductive PacketTypes where
  | general
  | basic
  | pedal
  | throttle
  deriving DecidableEq, Repr

/-- The value of the enumerator. -/
def PacketCommands.toByte : PacketCommands → UInt8
  | read => 0x11
  | write => 0x16

/-- `static_cast<packet_commands>`, as the `switch` of the handler sees it: a
byte without enumerator goes to `default`. -/
def PacketCommands.ofByte? (b : UInt8) : Option PacketCommands :=
  if b = 0x11 then some read else if b = 0x16 then some write else none

/-- The value of the enumerator. -/
def PacketTypes.toByte : PacketTypes → UInt8
  | general => 0x51
  | basic => 0x52
  | pedal => 0x53
  | throttle => 0x54

/-- `static_cast<packet_types>`, as the `switch` of the handler sees it. -/
def PacketTypes.ofByte? (b : UInt8) : Option PacketTypes :=
  if b = 0x51 then some general
  else if b = 0x52 then some basic
  else if b = 0x53 then some pedal
  else if b = 0x54 then some throttle
  else none

@[simp] theorem PacketCommands.ofByte?_toByte (c : PacketCommands) :
    ofByte? c.toByte = some c := by
  cases c <;> rfl

@[simp] theorem PacketTypes.ofByte?_toByte (t : PacketTypes) : ofByte? t.toByte = some t := by
  cases t <;> rfl

theorem PacketCommands.ofByte?_eq_some {b : UInt8} {c : PacketCommands}
    (h : ofByte? b = some c) : b = c.toByte := by
  unfold ofByte? at h
  grind [toByte]

theorem PacketTypes.ofByte?_eq_some {b : UInt8} {t : PacketTypes}
    (h : ofByte? b = some t) : b = t.toByte := by
  unfold ofByte? at h
  grind [toByte]

theorem PacketTypes.toByte_injective : Function.Injective PacketTypes.toByte := by
  intro a b h
  exact Option.some.inj (by rw [← ofByte?_toByte a, h, ofByte?_toByte b])

/-! ## Exceptions -/

/-- The exceptions the program throws, with their `what()`. -/
inductive Exception where
  /-- `std::runtime_error`. -/
  | runtimeError (what : Bytes)
  /-- `std::system_error`. -/
  | systemError (what : Bytes)
  deriving DecidableEq, Repr

/-- Thrown by `core::deserialize` when the data is shorter than the packet. -/
def packetTruncation : Exception := .runtimeError (bytes "packet truncation")

/-- Thrown by `request_packet::deserialize` when the checksum is wrong. -/
def verificationFailure : Exception := .runtimeError (bytes "verification failure")

/-! ## request_packet -/

/-- `request_packet<T>` for a payload of `n` bytes. -/
structure RequestPacket (n : Nat) where
  command : UInt8
  type : UInt8
  size : UInt8
  payload : List.Vector UInt8 n
  verification : UInt8
  deriving DecidableEq

/-- `core::deserialize`: the first `size` bytes of the data. -/
def deserialize (data : Bytes) (size : Nat) : Except Exception (List.Vector UInt8 size) :=
  if h : data.length < size then .error packetTruncation
  else .ok ⟨data.take size, by rw [List.length_take]; omega⟩

namespace RequestPacket

variable {n : Nat}

/-- `request_packet::packet_size`.  Every payload of the program fits the 8 bits
of `length_t`. -/
def packetSize (n : Nat) : Nat := n + 4

/-- The packed struct in memory, read as the fields it consists of. -/
def ofMemory (m : List.Vector UInt8 (packetSize n)) : RequestPacket n where
  command := m.get ⟨0, by unfold packetSize; omega⟩
  type := m.get ⟨1, by unfold packetSize; omega⟩
  size := m.get ⟨2, by unfold packetSize; omega⟩
  payload := ⟨(m.toList.drop 3).take n, by
    rw [List.length_take, List.length_drop, List.Vector.toList_length]
    unfold packetSize
    omega⟩
  verification := m.get ⟨n + 3, by unfold packetSize; omega⟩

/-- `request_packet::verify`: type, size and payload summed in `verify_t`. -/
def verify (p : RequestPacket n) : UInt8 :=
  let checksum := sumFrom (p.type + p.size) p.payload.toList
  UInt8.ofNat (checksum.toNat % 256)

/-- `request_packet::serialize`. -/
def serialize (p : RequestPacket n) : Bytes :=
  p.command :: p.type :: p.size :: (p.payload.toList ++ [p.verification])

/-- `request_packet::deserialize`. -/
def deserialize (n : Nat) (data : Bytes) : Except Exception (RequestPacket n) :=
  match BafangEmulator.deserialize data (packetSize n) with
  | .error e => .error e
  | .ok m =>
    let p := ofMemory m
    if p.verification = p.verify then .ok p else .error verificationFailure

/-- The final `% 256` does nothing to an 8-bit sum. -/
theorem verify_eq (p : RequestPacket n) :
    p.verify = sumFrom (p.type + p.size) p.payload.toList := by
  have h : ∀ b : UInt8, UInt8.ofNat (b.toNat % 256) = b := by
    intro b
    have hb := UInt8.toNat_lt b
    rw [Nat.mod_eq_of_lt hb, UInt8.ofNat_toNat]
  exact h _

@[simp] theorem length_serialize (p : RequestPacket n) : p.serialize.length = packetSize n := by
  simp [serialize, packetSize]

/-- Data shorter than the packet is a truncation. -/
theorem deserialize_of_short {data : Bytes} (h : data.length < packetSize n) :
    deserialize n data = .error packetTruncation := by
  simp [deserialize, BafangEmulator.deserialize, h]

/-- Any data of at least the packet's size starts with some packet. -/
theorem exists_serialize_append {data : Bytes} (h : packetSize n ≤ data.length) :
    ∃ (p : RequestPacket n) (rest : Bytes), data = p.serialize ++ rest := by
  unfold packetSize at h
  obtain ⟨c, t, s, tail, rfl⟩ : ∃ c t s tail, data = c :: t :: s :: tail := by
    match data, h with
    | c :: t :: s :: tail, _ => exact ⟨c, t, s, tail, rfl⟩
  have htail : n < tail.length := by
    simp only [List.length_cons] at h
    omega
  refine ⟨⟨c, t, s, ⟨tail.take n, by rw [List.length_take]; omega⟩, tail[n]⟩, tail.drop (n + 1), ?_⟩
  simp only [serialize, List.Vector.toList_mk, List.cons_append, List.append_assoc,
    List.nil_append, List.cons.injEq, true_and]
  rw [← List.drop_eq_getElem_cons htail, List.take_append_drop]

theorem ofMemory_serialize (p : RequestPacket n) :
    ofMemory ⟨p.serialize, p.length_serialize⟩ = p := by
  obtain ⟨c, t, s, ⟨payload, hlen⟩, v⟩ := p
  subst hlen
  have hget : ∀ (l : Bytes) (m : Nat) (h : l.length = m) (i : Fin m),
      List.Vector.get ⟨l, h⟩ i = l.get (i.cast h.symm) := fun _ _ _ _ => rfl
  simp [ofMemory, serialize, hget]

/-- What follows the packet is not looked at: the packet is accepted exactly when
its verification byte is right. -/
theorem deserialize_serialize_append (p : RequestPacket n) (rest : Bytes) :
    deserialize n (p.serialize ++ rest) =
      if p.verification = p.verify then .ok p else .error verificationFailure := by
  have hlen : ¬ (p.serialize ++ rest).length < packetSize n := by simp
  have htake : (p.serialize ++ rest).take (packetSize n) = p.serialize := by
    rw [← p.length_serialize, List.take_left]
  have hmem : (⟨(p.serialize ++ rest).take (packetSize n), by simp⟩ :
      List.Vector UInt8 (packetSize n)) = ⟨p.serialize, p.length_serialize⟩ :=
    Subtype.ext htake
  simp only [deserialize, BafangEmulator.deserialize, hlen, dite_false, hmem, ofMemory_serialize]

/-! ### What the checksum detects -/

/-- The bytes the checksum covers. -/
def summed (p : RequestPacket n) : Bytes := p.type :: p.size :: p.payload.toList

theorem verify_eq_sum (p : RequestPacket n) : p.verify = sumFrom 0 p.summed := by
  rw [verify_eq, summed, sumFrom_cons, sumFrom_cons, UInt8.zero_add]

theorem serialize_eq (p : RequestPacket n) :
    p.serialize = p.command :: (p.summed ++ [p.verification]) := rfl

theorem length_summed (p : RequestPacket n) : p.summed.length = n + 2 := by
  simp [summed]

/-- **One changed byte behind the command is detected**, as long as the packet is
read with its own layout. -/
theorem verification_ne_of_set {p q : RequestPacket n} {i : Nat} {v : UInt8} (hpos : 0 < i)
    (hi : i < p.serialize.length) (hv : v ≠ p.serialize[i])
    (hp : p.verification = p.verify) (hq : q.serialize = p.serialize.set i v) :
    q.verification ≠ q.verify := by
  obtain ⟨j, rfl⟩ : ∃ j, i = j + 1 := ⟨i - 1, by omega⟩
  have htail : q.summed ++ [q.verification] = (p.summed ++ [p.verification]).set j v := by
    rw [serialize_eq, serialize_eq, List.set_cons_succ, List.cons.injEq] at hq
    exact hq.2
  have hlength : q.summed.length = p.summed.length := by rw [length_summed, length_summed]
  rw [verify_eq_sum] at hp ⊢
  by_cases hj : j < p.summed.length
  · -- a byte the checksum covers
    have hget : p.serialize[j + 1] = p.summed[j] := by
      simp [serialize_eq, List.getElem_append_left hj]
    rw [List.set_append_left _ _ hj] at htail
    obtain ⟨hsummed, hverification⟩ := List.append_inj htail (by rw [hlength, List.length_set])
    rw [List.singleton_inj.mp hverification, hp, hsummed]
    exact (sumFrom_set_ne hj (hget ▸ hv)).symm
  · -- the checksum itself
    have hend : j = p.summed.length := by
      simp only [serialize_eq, List.length_cons, List.length_append, List.length_nil] at hi
      omega
    subst hend
    have hget : p.serialize[p.summed.length + 1] = p.verification := by
      simp [serialize_eq]
    rw [List.set_append_right _ _ (Nat.le_refl _), Nat.sub_self, List.set_cons_zero] at htail
    obtain ⟨hsummed, hverification⟩ := List.append_inj htail hlength
    rw [List.singleton_inj.mp hverification, hsummed, ← hp]
    exact hget ▸ hv

/-! ### The codec -/

/-- **Decoding is the inverse of encoding**: what is decoded is what the data starts
with the encoding of, when its checksum is right. -/
theorem deserialize_eq_ok_iff {data : Bytes} {p : RequestPacket n} :
    deserialize n data = .ok p ↔
      p.verification = p.verify ∧ ∃ rest, data = p.serialize ++ rest := by
  constructor
  · intro h
    by_cases hshort : data.length < packetSize n
    · rw [deserialize_of_short hshort] at h
      simp at h
    · obtain ⟨q, rest, rfl⟩ := exists_serialize_append (Nat.not_lt.mp hshort)
      rw [deserialize_serialize_append] at h
      split at h
      · rename_i hq
        obtain rfl := Except.ok.inj h
        exact ⟨hq, rest, rfl⟩
      · simp at h
  · rintro ⟨hp, rest, rfl⟩
    rw [deserialize_serialize_append, if_pos hp]

/-- The checksum of a packet, by the positions of its bytes. -/
theorem verification_eq_iff (p : RequestPacket n) (rest : Bytes) :
    p.verification = p.verify ↔
      (p.serialize ++ rest)[n + 3]?.map UInt8.toNat =
        some (((((p.serialize ++ rest).drop 1).take (n + 2)).map UInt8.toNat).sum % 256) := by
  have hlength := p.length_summed
  have hget : (p.serialize ++ rest)[n + 3]? = some p.verification := by
    have hsplit : p.serialize ++ rest = (p.command :: p.summed) ++ p.verification :: rest := by
      simp [serialize_eq]
    have hindex : n + 3 = (p.command :: p.summed).length := by
      rw [List.length_cons, hlength]
    rw [hsplit, hindex, List.getElem?_append_right (Nat.le_refl _), Nat.sub_self]
    rfl
  have hsummed : ((p.serialize ++ rest).drop 1).take (n + 2) = p.summed := by
    rw [serialize_eq, List.cons_append, List.drop_succ_cons, List.drop_zero, List.append_assoc,
      ← hlength, List.take_left]
  rw [hget, hsummed, Option.map_some, Option.some.injEq, verify_eq_sum, ← UInt8.toNat_inj,
    toNat_sumFrom, UInt8.toNat_zero, Nat.zero_add]

/-- A packet with one byte changed behind its command is not decoded. -/
theorem deserialize_set {data : Bytes} {p : RequestPacket n} {i : Nat} {v : UInt8}
    (h : deserialize n data = .ok p) (hpos : 0 < i) (hi : i < packetSize n)
    (hv : data[i]? ≠ some v) : deserialize n (data.set i v) = .error verificationFailure := by
  obtain ⟨hp, rest, rfl⟩ := deserialize_eq_ok_iff.mp h
  have hlt : i < p.serialize.length := by rwa [length_serialize]
  have hne : v ≠ p.serialize[i] := by
    intro heq
    rw [List.getElem?_append_left hlt, List.getElem?_eq_getElem hlt, heq] at hv
    exact hv rfl
  have hlong : packetSize n ≤ (p.serialize.set i v).length := by
    rw [List.length_set, length_serialize]
  obtain ⟨q, tail, hq⟩ := exists_serialize_append hlong
  have htail : tail = [] := by
    have hlengths := congrArg List.length hq
    rw [List.length_set, List.length_append, length_serialize, length_serialize] at hlengths
    exact List.length_eq_zero_iff.mp (by omega)
  rw [htail, List.append_nil] at hq
  have hwrong : q.verification ≠ q.verify := verification_ne_of_set hpos hlt hne hp hq.symm
  rw [List.set_append_left _ _ hlt, hq, deserialize_serialize_append, if_neg hwrong]

/-- **The request codec.**  For payloads of at most 251 bytes, whose packet size fits
`length_t`: data is decoded exactly when it is long enough and the checksum in it
is right; the packet decoded is encoded as the front of the data; a packet with the
right checksum is decoded from its own encoding; and one changed byte behind the
command is always detected. -/
theorem request_codec (hsize : n + 4 ≤ 255) :
    (UInt8.ofNat (n + 4)).toNat = packetSize n ∧
    (∀ s : Bytes, (∃ p, deserialize n s = .ok p) ↔
      n + 4 ≤ s.length ∧
        s[n + 3]?.map UInt8.toNat =
          some ((((s.drop 1).take (n + 2)).map UInt8.toNat).sum % 256)) ∧
    (∀ (s : Bytes) (p : RequestPacket n),
      deserialize n s = .ok p → p.serialize = s.take (n + 4)) ∧
    (∀ p : RequestPacket n, p.verification = p.verify → deserialize n p.serialize = .ok p) ∧
    (∀ (s : Bytes) (p : RequestPacket n) (i : Nat) (v : UInt8), deserialize n s = .ok p →
      1 ≤ i → i ≤ n + 3 → s[i]? ≠ some v →
        deserialize n (s.set i v) = .error verificationFailure) := by
  refine ⟨?_, fun s => ⟨?_, ?_⟩, fun s p h => ?_, fun p h => ?_, fun s p i v h hpos hi hv => ?_⟩
  · rw [UInt8.toNat_ofNat', packetSize]
    omega
  · rintro ⟨p, h⟩
    obtain ⟨hp, rest, rfl⟩ := deserialize_eq_ok_iff.mp h
    refine ⟨?_, (verification_eq_iff p rest).mp hp⟩
    rw [List.length_append, length_serialize, packetSize]
    omega
  · rintro ⟨hlength, hsum⟩
    obtain ⟨p, rest, rfl⟩ := exists_serialize_append hlength
    exact ⟨p, deserialize_eq_ok_iff.mpr ⟨(verification_eq_iff p rest).mpr hsum, rest, rfl⟩⟩
  · obtain ⟨-, rest, rfl⟩ := deserialize_eq_ok_iff.mp h
    have hlength : n + 4 = p.serialize.length := p.length_serialize.symm
    rw [hlength, List.take_left]
  · exact deserialize_eq_ok_iff.mpr ⟨h, [], (List.append_nil _).symm⟩
  · exact deserialize_set h hpos (by unfold packetSize; omega) hv

/-- A read of the general block is decoded. -/
theorem request_codec_general : ∃ p : RequestPacket 1,
    deserialize 1 [0x11, 0x51, 0x04, 0xB0, 0x05] = .ok p :=
  ((request_codec (by decide)).2.1 [0x11, 0x51, 0x04, 0xB0, 0x05]).mpr ⟨by decide, by decide⟩

end RequestPacket

/-! ## response_packet and response_status_packet -/

/-- `response_packet<T>::serialize`: `size` is set to the packet's own size. -/
def responsePacket (type : PacketTypes) (payload : Bytes) : Bytes :=
  type.toByte :: UInt8.ofNat (payload.length + 2) :: payload

/-- `response_status_packet<T>::serialize`. -/
def responseStatusPacket (type : PacketTypes) (status : UInt8) : Bytes :=
  [type.toByte, status]

end BafangEmulator
