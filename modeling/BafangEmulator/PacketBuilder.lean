/-
  PacketBuilder.lean --- packet_general.h, packet_basic.h, packet_pedal.h,
  packet_throttle.h and packet_builder.cpp: the four blocks, and how they are
  built from and parsed into a profile.

  `build` and `parse` are written in the source as one statement per payload
  byte.  Here a payload byte is a `Field`: the keys it is kept under with their
  defaults, what `parse` stores for a byte and which bytes it rejects, and what
  `build` computes from the stored numbers.  The three tables below list the
  fields in payload order, which is also the order of the statements.

  Two computations of `build` have no defined result on some stored numbers: the
  wheel table indexed out of bounds, and an overflow of `int`.  So does the
  `memcpy` of four bytes from a string of fewer than three.
-/
import BafangEmulator.Profile

set_option autoImplicit false

namespace BafangEmulator

open Foundation

/-! ## Response status -/

/-- `enum class response_status_basic : uint8_t`. -/
inductive ResponseStatusBasic where
  | lowBattery
  | currentLimit
  | assist0Current
  | assist0Speed
  | assist1Current
  | assist1Speed
  | assist2Current
  | assist2Speed
  | assist3Current
  | assist3Speed
  | assist4Current
  | assist4Speed
  | assist5Current
  | assist5Speed
  | assist6Current
  | assist6Speed
  | assist7Current
  | assist7Speed
  | assist8Current
  | assist8Speed
  | assist9Current
  | assist9Speed
  | wheelSize
  | speedMeter
  | success
  deriving DecidableEq, Repr

/-- `enum class response_status_pedal : uint8_t`. -/
inductive ResponseStatusPedal where
  | sensorType
  | assistLevel
  | speedLimit
  | startCurrent
  | slowStartMode
  | startDeg
  | workMode
  | stopDelay
  | currentDecay
  | stopDecay
  | keepCurrent
  | success
  deriving DecidableEq, Repr

/-- `enum class response_status_throttle : uint8_t`. -/
inductive ResponseStatusThrottle where
  | startVolt
  | endVolt
  | mode
  | assistLevel
  | speedLimit
  | startCurrent
  | success
  deriving DecidableEq, Repr

/-- The enumerators are numbered from zero. -/
def ResponseStatusBasic.toByte (s : ResponseStatusBasic) : UInt8 := UInt8.ofNat s.ctorIdx

/-- The enumerators are numbered from zero. -/
def ResponseStatusPedal.toByte (s : ResponseStatusPedal) : UInt8 := UInt8.ofNat s.ctorIdx

/-- The enumerators are numbered from zero. -/
def ResponseStatusThrottle.toByte (s : ResponseStatusThrottle) : UInt8 := UInt8.ofNat s.ctorIdx

/-! ## Payload bytes -/

open Profile (intMin intMax)

/-- The value fits an `int`. -/
def FitsInt (z : Int) : Prop := intMin ≤ z ∧ z ≤ intMax

instance (z : Int) : Decidable (FitsInt z) := inferInstanceAs (Decidable (_ ∧ _))

/-- One byte of a payload, as `build` and `parse` treat it.  What `parse` stores
for a byte is what `build` makes that byte from. -/
structure Field where
  /-- The status `parse` answers when it rejects the byte. -/
  status : UInt8
  /-- The keys the byte is kept under, with the defaults of `build`. -/
  slots : List (Bytes × Int)
  /-- The numbers `parse` stores, or a rejection. -/
  accept : UInt8 → Option (List Int)
  /-- The byte `build` computes, unless its behaviour is undefined. -/
  assemble : List Int → Option UInt8
  length_accept : ∀ v xs, accept v = some xs → xs.length = slots.length
  fitsInt_accept : ∀ v xs, accept v = some xs → ∀ x ∈ xs, FitsInt x
  assemble_accept : ∀ v xs, accept v = some xs → assemble xs = some v

namespace Field

theorem fitsInt_toNat (v : UInt8) : FitsInt v.toNat := by
  have hv := UInt8.toNat_lt v
  simp only [FitsInt, intMin, intMax]
  omega

theorem ofInt_toNat (v : UInt8) : UInt8.ofInt v.toNat = v := by
  have hv := UInt8.toNat_lt v
  have hmod : ((v.toNat : Int) % 2 ^ 8).toNat = v.toNat := by omega
  rw [UInt8.ofInt, hmod, UInt8.ofNat_toNat]

/-- A byte kept under one key as it is, and rejected by a test on its value. -/
def plain (status : UInt8) (key : String) (default : Int) (rejected : UInt8 → Bool) : Field where
  status := status
  slots := [(bytes key, default)]
  accept v := if rejected v then none else some [(v.toNat : Int)]
  assemble
    | [x] => some (UInt8.ofInt x)
    | _ => none
  length_accept v xs h := by
    obtain ⟨-, hxs⟩ := Option.ite_none_left_eq_some.mp h
    obtain rfl := Option.some.inj hxs
    rfl
  fitsInt_accept v xs h := by
    obtain ⟨-, hxs⟩ := Option.ite_none_left_eq_some.mp h
    obtain rfl := Option.some.inj hxs
    simpa using fitsInt_toNat v
  assemble_accept v xs h := by
    obtain ⟨-, hxs⟩ := Option.ite_none_left_eq_some.mp h
    obtain rfl := Option.some.inj hxs
    exact congrArg some (ofInt_toNat v)

end Field

/-! ## Basic -/

/-- `wheels` of `build`: wheel sizes in half inches. -/
def buildWheels : List Nat :=
  [16 <<< 1, 17 <<< 1, 18 <<< 1, 19 <<< 1, 20 <<< 1, 21 <<< 1, 22 <<< 1, 23 <<< 1, 24 <<< 1,
    25 <<< 1, 26 <<< 1, 27 <<< 1, 27 <<< 1 ||| 1, 28 <<< 1, 29 <<< 1, 30 <<< 1]

/-- `wheels` of `parse`. -/
def parseWheels : List Nat :=
  [16 <<< 1, 17 <<< 1, 18 <<< 1, 19 <<< 1, 20 <<< 1, 21 <<< 1, 22 <<< 1, 23 <<< 1, 24 <<< 1,
    25 <<< 1, 26 * 2, 27 <<< 1, 27 <<< 1 ||| 1, 28 <<< 1, 29 <<< 1, 30 <<< 1]

/-- `wheels[i]`, undefined outside the array. -/
def wheelAt (i : Int) : Option UInt8 :=
  if 0 ≤ i then buildWheels[i.toNat]?.map UInt8.ofNat else none

/-- The search for a wheel size in `parse`. -/
def findWheel (ws : UInt8) : Option Nat := parseWheels.findIdx? fun w => ws.toNat == w

/-- A wheel size found by `parse` is what `build` reads at its index. -/
theorem wheelAt_findWheel {ws : UInt8} {i : Nat} (h : findWheel ws = some i) :
    i < 16 ∧ wheelAt i = some ws := by
  unfold findWheel at h
  rw [List.findIdx?_eq_some_iff_getElem] at h
  obtain ⟨hlt, hget, -⟩ := h
  have htable : buildWheels = parseWheels := by decide
  have hi : i < parseWheels.length := hlt
  refine ⟨by simpa [parseWheels] using hi, ?_⟩
  have hws : ws.toNat = parseWheels[i] := by simpa using hget
  simp [wheelAt, htable, List.getElem?_eq_getElem hi, ← hws]

/-- `(SMM * 64) + SMS`, undefined when it overflows. -/
def speedMeterOf (smm sms : Int) : Option UInt8 :=
  if FitsInt (smm * 64) ∧ FitsInt (smm * 64 + sms) then some (UInt8.ofInt (smm * 64 + sms))
  else none

/-- The wheel size is kept as its index in the table. -/
def wheelSizeField : Field where
  status := ResponseStatusBasic.wheelSize.toByte
  slots := [(bytes "WD", 10)]
  accept ws := (findWheel ws).map fun (i : Nat) => [(i : Int)]
  assemble
    | [i] => wheelAt i
    | _ => none
  length_accept v xs h := by
    obtain ⟨i, -, rfl⟩ := Option.map_eq_some_iff.mp h
    rfl
  fitsInt_accept v xs h := by
    obtain ⟨i, hi, rfl⟩ := Option.map_eq_some_iff.mp h
    have hlt := (wheelAt_findWheel hi).1
    simp only [List.mem_singleton, forall_eq, FitsInt, intMin, intMax]
    omega
  assemble_accept v xs h := by
    obtain ⟨i, hi, rfl⟩ := Option.map_eq_some_iff.mp h
    exact (wheelAt_findWheel hi).2

/-- The two halves of the speed meter byte make up the byte. -/
theorem speedMeterOf_halves (v : UInt8) :
    speedMeterOf ((v / 64).toNat : Int) ((v % 64).toNat : Int) = some v := by
  have hsum : ((v / 64).toNat : Int) * 64 + ((v % 64).toNat : Int) = (v.toNat : Int) := by
    rw [UInt8.toNat_div, UInt8.toNat_mod]
    have h64 : (64 : UInt8).toNat = 64 := rfl
    rw [h64]
    omega
  have hhigh : FitsInt (((v / 64).toNat : Int) * 64) := by
    have hq := UInt8.toNat_lt (v / 64)
    simp only [FitsInt, intMin, intMax]
    omega
  rw [speedMeterOf, hsum, if_pos ⟨hhigh, Field.fitsInt_toNat v⟩, Field.ofInt_toNat]

/-- Past both of its tests the speed meter byte is kept as its halves. -/
theorem halves_of_accepted {v : UInt8} {xs : List Int}
    (h : (if v / 64 > 2 then none
      else if v % 64 > 36 || v % 64 == 0 then none
      else some [((v / 64).toNat : Int), ((v % 64).toNat : Int)]) = some xs) :
    xs = [((v / 64).toNat : Int), ((v % 64).toNat : Int)] := by
  obtain ⟨-, hlow⟩ := Option.ite_none_left_eq_some.mp h
  obtain ⟨-, hxs⟩ := Option.ite_none_left_eq_some.mp hlow
  exact (Option.some.inj hxs).symm

/-- The speed meter byte is kept as its two high and its six low bits. -/
def speedMeterField : Field where
  status := ResponseStatusBasic.speedMeter.toByte
  slots := [(bytes "SMM", 0), (bytes "SMS", 1)]
  accept v :=
    if v / 64 > 2 then none
    else if v % 64 > 36 || v % 64 == 0 then none
    else some [((v / 64).toNat : Int), ((v % 64).toNat : Int)]
  assemble
    | [smm, sms] => speedMeterOf smm sms
    | _ => none
  length_accept v xs h := by
    obtain rfl := halves_of_accepted h
    rfl
  fitsInt_accept v xs h := by
    obtain rfl := halves_of_accepted h
    simp only [List.mem_cons, List.not_mem_nil, or_false, forall_eq_or_imp, forall_eq]
    exact ⟨Field.fitsInt_toNat _, Field.fitsInt_toNat _⟩
  assemble_accept v xs h := by
    obtain rfl := halves_of_accepted h
    exact speedMeterOf_halves v

/-- `> 100 || == 0`: the test on every assist current and speed. -/
def notPercent (v : UInt8) : Bool := v > 100 || v == 0

/-- The payload of the basic block. -/
def basicFields : List Field :=
  [ .plain ResponseStatusBasic.lowBattery.toByte "LBP" 20 fun v => v > 55 && v < 18,
    .plain ResponseStatusBasic.currentLimit.toByte "LC" 25 fun v => v == 0,
    .plain ResponseStatusBasic.assist0Current.toByte "ALC0" 10 notPercent,
    .plain ResponseStatusBasic.assist1Current.toByte "ALC1" 20 notPercent,
    .plain ResponseStatusBasic.assist2Current.toByte "ALC2" 30 notPercent,
    .plain ResponseStatusBasic.assist3Current.toByte "ALC3" 40 notPercent,
    .plain ResponseStatusBasic.assist4Current.toByte "ALC4" 50 notPercent,
    .plain ResponseStatusBasic.assist5Current.toByte "ALC5" 60 notPercent,
    .plain ResponseStatusBasic.assist6Current.toByte "ALC6" 70 notPercent,
    .plain ResponseStatusBasic.assist7Current.toByte "ALC7" 80 notPercent,
    .plain ResponseStatusBasic.assist8Current.toByte "ALC8" 90 notPercent,
    .plain ResponseStatusBasic.assist9Current.toByte "ALC9" 100 notPercent,
    .plain ResponseStatusBasic.assist0Speed.toByte "ALBP0" 10 notPercent,
    .plain ResponseStatusBasic.assist1Speed.toByte "ALBP1" 20 notPercent,
    .plain ResponseStatusBasic.assist2Speed.toByte "ALBP2" 30 notPercent,
    .plain ResponseStatusBasic.assist3Speed.toByte "ALBP3" 40 notPercent,
    .plain ResponseStatusBasic.assist4Speed.toByte "ALBP4" 50 notPercent,
    .plain ResponseStatusBasic.assist5Speed.toByte "ALBP5" 60 notPercent,
    .plain ResponseStatusBasic.assist6Speed.toByte "ALBP6" 70 notPercent,
    .plain ResponseStatusBasic.assist7Speed.toByte "ALBP7" 80 notPercent,
    .plain ResponseStatusBasic.assist8Speed.toByte "ALBP8" 90 notPercent,
    .plain ResponseStatusBasic.assist9Speed.toByte "ALBP9" 100 notPercent,
    wheelSizeField,
    speedMeterField ]

/-! ## Pedal and throttle -/

/-- The payload of the pedal assist block. -/
def pedalFields : List Field :=
  [ .plain ResponseStatusPedal.sensorType.toByte "PT" 3 fun v => v > 4,
    .plain ResponseStatusPedal.assistLevel.toByte "DA" 0 fun v => v > 9 && v < 255,
    .plain ResponseStatusPedal.speedLimit.toByte "SL" 0 fun v => v > 99 && v < 255,
    .plain ResponseStatusPedal.startCurrent.toByte "SC" 20 fun v => v > 20 || v == 0,
    .plain ResponseStatusPedal.slowStartMode.toByte "SSM" 5 fun v => v > 8 || v == 0,
    .plain ResponseStatusPedal.startDeg.toByte "SDN" 20 fun v => v > 100 || v == 0,
    .plain ResponseStatusPedal.workMode.toByte "WM" 0 fun v => v > 80 && v < 10 && v != 255,
    .plain ResponseStatusPedal.stopDelay.toByte "TS" 25 fun _ => false,
    .plain ResponseStatusPedal.currentDecay.toByte "CD" 8 fun v => v > 8 || v == 0,
    .plain ResponseStatusPedal.stopDecay.toByte "SD" 20 fun _ => false,
    .plain ResponseStatusPedal.keepCurrent.toByte "KC" 20 fun v => v > 100 || v == 0 ]

/-- The payload of the throttle handle block. -/
def throttleFields : List Field :=
  [ .plain ResponseStatusThrottle.startVolt.toByte "SV" 11 fun v => v > 50,
    .plain ResponseStatusThrottle.endVolt.toByte "EV" 35 fun v => v > 50,
    .plain ResponseStatusThrottle.mode.toByte "MODE" 0 fun v => v > 1,
    .plain ResponseStatusThrottle.assistLevel.toByte "DA" 4 fun v => v > 9 && v < 255,
    .plain ResponseStatusThrottle.speedLimit.toByte "SL" 3 fun v => v > 99 && v < 255,
    .plain ResponseStatusThrottle.startCurrent.toByte "SC" 20 fun v => v > 100 || v == 0 ]

/-! ## The blocks of the config profile -/

/-- The blocks kept in the config profile. -/
inductive Block where
  | basic
  | pedal
  | throttle
  deriving DecidableEq, Repr

namespace Block

/-- The packet type of the block. -/
def type : Block → PacketTypes
  | basic => .basic
  | pedal => .pedal
  | throttle => .throttle

/-- The profile section of the block. -/
def sec : Block → Bytes
  | basic => bytes "Basic"
  | pedal => bytes "Pedal Assist"
  | throttle => bytes "Throttle Handle"

/-- The payload of the block, byte by byte. -/
def fields : Block → List Field
  | basic => basicFields
  | pedal => pedalFields
  | throttle => throttleFields

/-- The status that answers an accepted write. -/
def success : Block → UInt8
  | basic => ResponseStatusBasic.success.toByte
  | pedal => ResponseStatusPedal.success.toByte
  | throttle => ResponseStatusThrottle.success.toByte

/-- `sizeof` the payload. -/
def payloadSize : Block → Nat
  | basic => 24
  | pedal => 11
  | throttle => 6

theorem length_fields (b : Block) : b.fields.length = b.payloadSize := by
  cases b <;> rfl

theorem type_injective : Function.Injective type := by
  intro a b h
  cases a <;> cases b <;> first | rfl | exact absurd h (by decide)

theorem sec_injective : Function.Injective sec := by
  intro a b h
  cases a <;> cases b <;> first | rfl | exact absurd h (by decide)

theorem payloadSize_injective : Function.Injective payloadSize := by
  intro a b h
  cases a <;> cases b <;> first | rfl | exact absurd h (by decide)

end Block

/-! ## packet_builder::build -/

namespace PacketBuilder

/-- `profile::find` as a statement. -/
def findText (sec key default : Bytes) : Exec Exception Profile Bytes := fun p =>
  let (value, p') := p.find sec key default
  .returned value p'

/-- `profile::find<int>` as a statement. -/
def findInt (sec key : Bytes) (default : Int) : Exec Exception Profile Int := fun p =>
  let (value, p') := p.findInt sec key default
  .returned value p'

/-- The numbers a payload byte is made from. -/
def findSlots (sec : Bytes) : List (Bytes × Int) → Exec Exception Profile (List Int)
  | [] => pure []
  | (key, default) :: slots => do
    let x ← findInt sec key default
    let xs ← findSlots sec slots
    pure (x :: xs)

/-- The payload bytes, one statement each. -/
def buildFields (sec : Bytes) : List Field → Exec Exception Profile Bytes
  | [] => pure []
  | f :: fs => do
    let xs ← findSlots sec f.slots
    let v ← Exec.ofOption (f.assemble xs)
    let vs ← buildFields sec fs
    pure (v :: vs)

/-- `packet_builder::build` for a block of the config profile: the payload. -/
def build (b : Block) : Exec Exception Profile Bytes := buildFields b.sec b.fields

/-- `memcpy` of `size` bytes from `value.c_str()`, which ends in one NUL. -/
def copyChars (value : Bytes) (size : Nat) : Option Bytes :=
  if size ≤ value.length + 1 then some ((value ++ [0]).take size) else none

/-- The bytes of an integer, the lowest first. -/
def littleEndian : Nat → Int → Bytes
  | 0, _ => []
  | n + 1, z => UInt8.ofInt z :: littleEndian n (z / 256)

/-- A character literal of several characters. -/
def multichar (s : String) : Int := (bytes s).foldl (fun acc c => 256 * acc + c.toNat) 0

/-- Run a statement on the profile of a store. -/
def onProfile {α : Type} (m : Exec Exception Profile α) : Exec Exception Store α :=
  Exec.zoom Store.profile (fun p s => { s with profile := p }) m

/-- The section of the general profile. -/
def generalSec : Bytes := bytes "General"

/-- `response_general`, packed. -/
def generalPayload (manufacturer model : Bytes)
    (hardwareVersion firmwareVersion nominalVoltage limitControl : Int) : Bytes :=
  manufacturer ++ model ++ littleEndian 2 hardwareVersion ++ littleEndian 4 firmwareVersion ++
    [UInt8.ofInt nominalVoltage, UInt8.ofInt limitControl]

/-- The statements of `build` for the general block, up to the save. -/
def buildGeneralPayload : Exec Exception Profile Bytes := do
  let manufacturer ← findText generalSec (bytes "MANUFACTURER") (bytes "HZXT")
  let manufacturer ← Exec.ofOption (copyChars manufacturer 4)
  let model ← findText generalSec (bytes "MODEL") (bytes "BBS3")
  let model ← Exec.ofOption (copyChars model 4)
  let hardwareVersion ← findInt generalSec (bytes "HARDWARD") (multichar "31")
  let firmwareVersion ← findInt generalSec (bytes "FIRMWARD") (multichar "1100")
  let nominalVoltage ← findInt generalSec (bytes "VOLTS") 4
  let limitControl ← findInt generalSec (bytes "LIMIT") 30
  pure (generalPayload manufacturer model hardwareVersion firmwareVersion nominalVoltage
    limitControl)

/-- `packet_builder::build` for the general block: the profile is saved when it
does not exist on disk yet. -/
def buildGeneral (env : Environment) : Exec Exception Store Bytes := do
  let payload ← onProfile buildGeneralPayload
  let s ← Exec.get
  if !s.profile.exists_ then Profile.save env
  pure payload

/-! ## packet_builder::parse -/

/-- Store the numbers of one payload byte. -/
def addSlots (sec : Bytes) (slots : List (Bytes × Int)) (xs : List Int) (temp : Profile) :
    Profile :=
  (slots.zip xs).foldl (fun p e => p.addInt sec e.1.1 e.2) temp

/-- The checks and updates of `parse` on its copy of the profile, one payload byte
after the other, up to the first byte that is rejected. -/
def storeFields (sec : Bytes) : List Field → Bytes → Profile → Except UInt8 Profile
  | f :: fs, v :: vs, temp =>
    match f.accept v with
    | none => .error f.status
    | some xs => storeFields sec fs vs (addSlots sec f.slots xs temp)
  | [], _, temp => .ok temp
  | _ :: _, [], temp => .ok temp

/-- `packet_builder::parse`: the status. -/
def parse (env : Environment) (b : Block) (request : RequestPacket b.payloadSize) :
    Exec Exception Store UInt8 := do
  let s ← Exec.get
  match storeFields b.sec b.fields request.payload.toList s.profile with
  | .error status => pure status
  | .ok temp =>
    Exec.modify fun s => { s with profile := temp }
    Profile.save env
    pure b.success

end PacketBuilder

end BafangEmulator
