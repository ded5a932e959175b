/-
  Validation.lean --- which writes are accepted, and which byte a rejection names.

  `ranges` says what each byte of a payload should be, byte by byte and in payload
  order, independently of how `parse` tests it.  A write of the throttle block is
  accepted exactly when every byte is in its range (`parse_throttle_exact`).  Two of
  the tests for the other blocks are never true, as they ask for a byte that is both
  above and below its range: that of the low battery byte and that of the work mode.
  Those blocks are validated as they should be exactly when the untested byte makes
  no difference (`parse_basic_exact_iff`, `parse_pedal_exact_iff`).
-/
import BafangEmulator.Foundation.Checks
import BafangEmulator.Served

set_option autoImplicit false

namespace BafangEmulator

open Foundation

/-! ## The ranges -/

/-- `lo <= v && v <= hi`. -/
def within (lo hi v : UInt8) : Bool := lo ≤ v && v ≤ hi

/-- The wheel sizes there are, in half inches. -/
def wheelSizes : List UInt8 := [32, 34, 36, 38, 40, 42, 44, 46, 48, 50, 52, 54, 55, 56, 58, 60]

/-- The bytes of the basic block, each with the status that names it. -/
def basicRanges : List (ResponseStatusBasic × (UInt8 → Bool)) :=
  [ (.lowBattery, within 18 55),
    (.currentLimit, within 1 255),
    (.assist0Current, within 1 100),
    (.assist1Current, within 1 100),
    (.assist2Current, within 1 100),
    (.assist3Current, within 1 100),
    (.assist4Current, within 1 100),
    (.assist5Current, within 1 100),
    (.assist6Current, within 1 100),
    (.assist7Current, within 1 100),
    (.assist8Current, within 1 100),
    (.assist9Current, within 1 100),
    (.assist0Speed, within 1 100),
    (.assist1Speed, within 1 100),
    (.assist2Speed, within 1 100),
    (.assist3Speed, within 1 100),
    (.assist4Speed, within 1 100),
    (.assist5Speed, within 1 100),
    (.assist6Speed, within 1 100),
    (.assist7Speed, within 1 100),
    (.assist8Speed, within 1 100),
    (.assist9Speed, within 1 100),
    (.wheelSize, fun v => wheelSizes.contains v),
    (.speedMeter, fun v => within 0 2 (v / 64) && within 1 36 (v % 64)) ]

/-- The bytes of the pedal block. -/
def pedalRanges : List (UInt8 → Bool) :=
  [ within 0 4,
    fun v => within 0 9 v || v == 255,
    fun v => within 0 99 v || v == 255,
    within 1 20,
    within 1 8,
    within 1 100,
    fun v => within 10 80 v || v == 255,
    fun _ => true,
    within 1 8,
    fun _ => true,
    within 1 100 ]

/-- The bytes of the throttle block. -/
def throttleRanges : List (UInt8 → Bool) :=
  [ within 0 50,
    within 0 50,
    within 0 1,
    fun v => within 0 9 v || v == 255,
    fun v => within 0 99 v || v == 255,
    within 1 100 ]

/-- The status of a byte is its offset in the payload. -/
def byOffset (tests : List (UInt8 → Bool)) : List (Check UInt8 UInt8) :=
  tests.zipIdx.map fun t => { status := UInt8.ofNat t.2, passes := t.1 }

/-- What the bytes of a block should be, in payload order. -/
def ranges : Block → List (Check UInt8 UInt8)
  | .basic => basicRanges.map fun r => { status := r.1.toByte, passes := r.2 }
  | .pedal => byOffset pedalRanges
  | .throttle => byOffset throttleRanges

/-- The status a write should be answered with: that of the first byte outside its
range, and success when there is none. -/
def properStatus (b : Block) (payload : Bytes) : UInt8 := verdict b.success (ranges b) payload

/-! ## The tests of parse -/

/-- The test that `parse` makes on a byte. -/
def Field.check (f : Field) : Check UInt8 UInt8 where
  status := f.status
  passes v := (f.accept v).isSome

theorem rejection_eq_firstFailing : ∀ (fs : List Field) (payload : Bytes),
    rejection fs payload = firstFailing (fs.map Field.check) payload := by
  intro fs
  induction fs with
  | nil => intro payload; rfl
  | cons f fs ih =>
    intro payload
    cases payload with
    | nil => rfl
    | cons v payload =>
      rw [List.map_cons, firstFailing, ← ih]
      cases hv : f.accept v with
      | none => simp [rejection, Field.check, hv]
      | some xs => simp [rejection_cons hv, Field.check, hv]

/-- The status `parse` returns, when its save opens the file. -/
theorem PacketBuilder.value?_parse_of_opens {env : Environment} {b : Block}
    (request : RequestPacket b.payloadSize) {s : Store}
    (hopens : env.opens s.profile.filename = true) :
    (PacketBuilder.parse env b request s).value? =
      some (verdict b.success (b.fields.map Field.check) request.payload.toList) := by
  rw [PacketBuilder.parse_run_of_opens request hopens, Outcome.value?_returned, statusOf, verdict,
    rejection_eq_firstFailing]

theorem check_plain (status : UInt8) (key : String) (default : Int) (rejected : UInt8 → Bool) :
    (Field.plain status key default rejected).check =
      { status := status, passes := fun v => !rejected v } := by
  rw [Field.check, Check.mk.injEq]
  refine ⟨rfl, funext fun v => ?_⟩
  simp only [Field.plain]
  cases rejected v <;> rfl

/-! ### The tests by their shapes -/

theorem passes_of_gt (hi : UInt8) : (fun v : UInt8 => !decide (v > hi)) = within 0 hi := by
  funext v
  grind [within]

theorem passes_of_gt_or_zero (hi : UInt8) :
    (fun v : UInt8 => !(decide (v > hi) || v == 0)) = within 1 hi := by
  funext v
  grind [within]

theorem passes_of_zero : (fun v : UInt8 => !(v == 0)) = within 1 255 := by
  funext v
  grind [within]

/-- A byte is unset when it is 255. -/
theorem passes_of_gt_unless_unset (hi : UInt8) :
    (fun v : UInt8 => !(decide (v > hi) && decide (v < 255))) =
      fun v => within 0 hi v || v == 255 := by
  funext v
  grind [within]

/-- The test of the low battery byte is never true. -/
theorem passes_of_lowBattery :
    (fun v : UInt8 => !(decide (v > 55) && decide (v < 18))) = fun _ => true := by
  funext v
  grind

/-- Nor is that of the work mode. -/
theorem passes_of_workMode :
    (fun v : UInt8 => !(decide (v > 80) && decide (v < 10) && v != 255)) = fun _ => true := by
  funext v
  grind

theorem passes_of_notPercent : (fun v : UInt8 => !notPercent v) = within 1 100 :=
  passes_of_gt_or_zero 100

theorem check_wheelSizeField : wheelSizeField.check =
    { status := ResponseStatusBasic.wheelSize.toByte, passes := fun v => wheelSizes.contains v } := by
  rw [Field.check, Check.mk.injEq]
  refine ⟨rfl, funext fun v => ?_⟩
  have hsizes : wheelSizes.map UInt8.toNat = parseWheels := by decide
  rw [wheelSizeField, Option.isSome_map, findWheel, ← hsizes, List.findIdx?_isSome, List.any_map,
    List.contains_eq_any_beq]
  refine List.any_congr rfl fun w => ?_
  rw [Function.comp_apply, Bool.eq_iff_iff, beq_iff_eq, beq_iff_eq, UInt8.toNat_inj]

theorem check_speedMeterField : speedMeterField.check =
    { status := ResponseStatusBasic.speedMeter.toByte
      passes := fun v => within 0 2 (v / 64) && within 1 36 (v % 64) } := by
  rw [Field.check, Check.mk.injEq]
  refine ⟨rfl, funext fun v => ?_⟩
  simp only [speedMeterField]
  split
  · grind [within]
  · split
    · grind [within]
    · grind [within]

/-! ### The tests of a block -/

theorem checks_throttle : Block.throttle.fields.map Field.check = ranges .throttle := by
  simp only [Block.fields, throttleFields, List.map_cons, List.map_nil, check_plain, passes_of_gt,
    passes_of_gt_unless_unset, passes_of_gt_or_zero]
  rfl

theorem checks_pedal : Block.pedal.fields.map Field.check =
    (ranges .pedal).take 6 ++ .skipped 6 :: (ranges .pedal).drop 7 := by
  simp only [Block.fields, pedalFields, List.map_cons, List.map_nil, check_plain, passes_of_gt,
    passes_of_gt_unless_unset, passes_of_gt_or_zero, passes_of_workMode]
  rfl

theorem checks_basic : Block.basic.fields.map Field.check =
    .skipped ResponseStatusBasic.lowBattery.toByte :: (ranges .basic).drop 1 := by
  simp only [Block.fields, basicFields, List.map_cons, List.map_nil, check_plain,
    passes_of_lowBattery, passes_of_zero, passes_of_notPercent, check_wheelSizeField,
    check_speedMeterField]
  rfl

/-! ## What is stored -/

/-- The field keeps its byte as it is, under the key. -/
def Field.KeptUnder (f : Field) (key : Bytes) : Prop :=
  (∃ default, f.slots = [(key, default)]) ∧
    ∀ v xs, f.accept v = some xs → xs = [(v.toNat : Int)]

theorem keptUnder_plain (status : UInt8) (key : String) (default : Int)
    (rejected : UInt8 → Bool) : (Field.plain status key default rejected).KeptUnder (bytes key) := by
  refine ⟨⟨default, rfl⟩, fun v xs h => ?_⟩
  simp only [Field.plain] at h
  split at h
  · simp at h
  · exact (Option.some.inj h).symm

/-- Fields that keep their bytes as they are store the bytes of an accepted payload in
decimal. -/
theorem entriesOf_of_keptUnder {sec : Bytes} {fs : List Field} {keys : List Bytes}
    (hkept : List.Forall₂ Field.KeptUnder fs keys) : ∀ {payload : Bytes},
    rejection fs payload = none →
    entriesOf sec fs payload = (keys.zip payload).map fun e => (sec, e.1, decimal e.2.toNat) := by
  induction hkept with
  | nil => intro payload _; rfl
  | @cons f key fs keys hf hrest ih =>
    intro payload haccept
    cases payload with
    | nil => rfl
    | cons v payload =>
      obtain ⟨⟨default, hslots⟩, hvalue⟩ := hf
      obtain ⟨xs, hxs⟩ := isSome_accept_of_rejection_none haccept (e := (f, v)) (by simp)
      rw [rejection_cons hxs] at haccept
      have hfirst : fieldEntries sec f v = [(sec, key, decimal v.toNat)] := by
        rw [fieldEntries, hxs, hslots, hvalue v xs hxs]
        rfl
      rw [List.zip_cons_cons, List.map_cons, ← ih haccept, entriesOf, List.zip_cons_cons,
        List.flatMap_cons, hfirst]
      rfl

/-- The keys of the throttle block. -/
def throttleKeys : List Bytes := ["SV", "EV", "MODE", "DA", "SL", "SC"].map bytes

theorem keptUnder_throttleKeys : List.Forall₂ Field.KeptUnder Block.throttle.fields throttleKeys :=
  .cons (keptUnder_plain ..) <| .cons (keptUnder_plain ..) <| .cons (keptUnder_plain ..) <|
    .cons (keptUnder_plain ..) <| .cons (keptUnder_plain ..) <| .cons (keptUnder_plain ..) .nil

/-! ## Exactness -/

theorem getElem?_toList {n : Nat} (payload : List.Vector UInt8 n) (i : Fin n) :
    payload.toList[(i : Nat)]? = some (payload.get i) := by
  have hlt : (i : Nat) < payload.toList.length := by
    rw [List.Vector.toList_length]
    exact i.isLt
  rw [List.Vector.get_eq_get_toList, List.getElem?_eq_getElem hlt]
  rfl

namespace PacketBuilder

variable {env : Environment} {s : Store}

/-- **The basic block** is validated as it should be exactly when the low battery byte
is in its range, as that byte is not tested. -/
theorem parse_basic_exact_iff (request : RequestPacket Block.basic.payloadSize)
    (hopens : env.opens s.profile.filename = true) :
    (parse env .basic request s).value? = some (properStatus .basic request.payload.toList) ↔
      18 ≤ request.payload.get ⟨0, by decide⟩ ∧ request.payload.get ⟨0, by decide⟩ ≤ 55 := by
  have hcheck : (ranges .basic)[0]? =
      some { status := ResponseStatusBasic.lowBattery.toByte, passes := within 18 55 } := rfl
  have hskip := verdict_skip hcheck (getElem?_toList request.payload ⟨0, by decide⟩)
    (by decide : _ ≠ Block.basic.success) (by decide)
  rw [value?_parse_of_opens request hopens, Option.some.injEq, checks_basic, properStatus]
  refine hskip.trans ?_
  simp [within]

/-- A low battery byte of 10 is accepted. -/
theorem low_battery_is_not_tested :
    (parse .working .basic
        ⟨0x16, 0x52, 0x1B, ⟨10 :: List.replicate 21 20 ++ [52, 1], rfl⟩, 0x50⟩
        ⟨⟨false, bytes "config.el", ∅⟩, fun _ => none⟩).value? = some Block.basic.success ∧
      properStatus .basic (10 :: List.replicate 21 20 ++ [52, 1]) =
        ResponseStatusBasic.lowBattery.toByte := by
  refine ⟨?_, by decide⟩
  rw [value?_parse_of_opens _ rfl, Option.some.injEq, checks_basic]
  decide

/-- A basic write within the ranges is answered with success. -/
theorem parse_basic_exact_iff_valid :
    (parse .working .basic
        ⟨0x16, 0x52, 0x1B, ⟨20 :: List.replicate 21 20 ++ [52, 1], rfl⟩, 0x5A⟩
        ⟨⟨false, bytes "config.el", ∅⟩, fun _ => none⟩).value? =
      some (properStatus .basic (20 :: List.replicate 21 20 ++ [52, 1])) :=
  (parse_basic_exact_iff ⟨0x16, 0x52, 0x1B, ⟨20 :: List.replicate 21 20 ++ [52, 1], rfl⟩, 0x5A⟩
    rfl).mpr (by decide)

/-- **The pedal block** is validated as it should be exactly when the work mode, which
is not tested, is in its range, or one of the six bytes before it is not. -/
theorem parse_pedal_exact_iff (request : RequestPacket Block.pedal.payloadSize)
    (hopens : env.opens s.profile.filename = true) :
    (parse env .pedal request s).value? = some (properStatus .pedal request.payload.toList) ↔
      (10 ≤ request.payload.get ⟨6, by decide⟩ ∧ request.payload.get ⟨6, by decide⟩ ≤ 80 ∨
        request.payload.get ⟨6, by decide⟩ = 255) ∨
      ∃ e ∈ ((ranges .pedal).zip request.payload.toList).take 6, e.1.passes e.2 = false := by
  have hcheck : (ranges .pedal)[6]? =
      some { status := 6, passes := fun v => within 10 80 v || v == 255 } := rfl
  have hskip := verdict_skip hcheck (getElem?_toList request.payload ⟨6, by decide⟩)
    (by decide : _ ≠ Block.pedal.success) (by decide)
  rw [value?_parse_of_opens request hopens, Option.some.injEq, checks_pedal, properStatus]
  refine hskip.trans (or_congr_left ?_)
  simp [within]

/-- A work mode of 5 is accepted. -/
theorem work_mode_is_not_tested :
    (parse .working .pedal
        ⟨0x16, 0x53, 0x0E, ⟨[3, 0, 0, 20, 5, 20, 5, 25, 8, 20, 20], rfl⟩, 0xDF⟩
        ⟨⟨false, bytes "config.el", ∅⟩, fun _ => none⟩).value? = some Block.pedal.success ∧
      properStatus .pedal [3, 0, 0, 20, 5, 20, 5, 25, 8, 20, 20] = 6 := by
  refine ⟨?_, by decide⟩
  rw [value?_parse_of_opens _ rfl, Option.some.injEq, checks_pedal]
  decide

/-- A pedal write whose first byte is out of its range is answered as it should be,
whatever its work mode. -/
theorem parse_pedal_exact_iff_sensor :
    (parse .working .pedal
        ⟨0x16, 0x53, 0x0E, ⟨[9, 0, 0, 20, 5, 20, 5, 25, 8, 20, 20], rfl⟩, 0xE5⟩
        ⟨⟨false, bytes "config.el", ∅⟩, fun _ => none⟩).value? =
      some (properStatus .pedal [9, 0, 0, 20, 5, 20, 5, 25, 8, 20, 20]) :=
  (parse_pedal_exact_iff ⟨0x16, 0x53, 0x0E, ⟨[9, 0, 0, 20, 5, 20, 5, 25, 8, 20, 20], rfl⟩, 0xE5⟩
    rfl).mpr (by decide)

/-- **The throttle block** is validated as it should be, and a write that is accepted
stores the six bytes in decimal and nothing else. -/
theorem parse_throttle_exact (request : RequestPacket Block.throttle.payloadSize)
    (hopens : env.opens s.profile.filename = true) :
    ∃ s', parse env .throttle request s =
        .returned (properStatus .throttle request.payload.toList) s' ∧
      (properStatus .throttle request.payload.toList = Block.throttle.success →
        (∀ e ∈ throttleKeys.zip request.payload.toList,
          s'.profile.data.get? (bytes "Throttle Handle") e.1 = some (decimal e.2.toNat)) ∧
        ∀ sec key, ¬ (sec = bytes "Throttle Handle" ∧ key ∈ throttleKeys) →
          s'.profile.data.get? sec key = s.profile.data.get? sec key) := by
  have hproper : properStatus .throttle request.payload.toList =
      statusOf .throttle request.payload.toList := by
    rw [properStatus, ← checks_throttle, verdict, ← rejection_eq_firstFailing, statusOf]
  rw [hproper]
  refine ⟨_, parse_run_of_opens request hopens, fun hsuccess => ?_⟩
  have haccept := (statusOf_eq_success_iff _ _).mp hsuccess
  have hlength : request.payload.toList.length = Block.throttle.payloadSize :=
    request.payload.toList_length
  have hentries : entriesOf Block.throttle.sec Block.throttle.fields request.payload.toList =
      (throttleKeys.zip request.payload.toList).map fun e =>
        (Block.throttle.sec, e.1, decimal e.2.toNat) :=
    entriesOf_of_keptUnder keptUnder_throttleKeys haccept
  rw [afterWrite_of_accepted haccept]
  refine ⟨fun e he => ?_, fun sec key hother => ?_⟩
  · -- The bytes are among the entries that are stored.
    have hmem : (Block.throttle.sec, e.1, decimal (e.2.toNat : Int)) ∈
        entriesOf Block.throttle.sec Block.throttle.fields request.payload.toList := by
      rw [hentries]
      exact List.mem_map.mpr ⟨e, he, rfl⟩
    exact get?_committed hlength haccept hmem
  · -- No entry that is stored has the key.
    refine Table.get?_setAll_of_not_mem fun value hmem => hother ?_
    rw [hentries] at hmem
    obtain ⟨e, he, heq⟩ := List.mem_map.mp hmem
    simp only [Prod.mk.injEq] at heq
    exact ⟨heq.1.symm, heq.2.1 ▸ (List.of_mem_zip he).1⟩

/-- A throttle write into a profile with a pedal key of the same name. -/
theorem parse_throttle_exact_sample : ∃ s', parse .working .throttle
    ⟨0x16, 0x54, 9, ⟨[12, 36, 1, 5, 4, 21], rfl⟩, 172⟩
    ⟨⟨false, bytes "config.el", (∅ : ProfileData).set (bytes "Pedal Assist") (bytes "DA")
      (bytes "7")⟩, fun _ => none⟩ = .returned Block.throttle.success s' ∧
    s'.profile.data.get? (bytes "Throttle Handle") (bytes "DA") = some (bytes "5") ∧
    s'.profile.data.get? (bytes "Pedal Assist") (bytes "DA") = some (bytes "7") := by
  have hstatus : properStatus .throttle [12, 36, 1, 5, 4, 21] = Block.throttle.success := by decide
  obtain ⟨s', hrun, hstored⟩ := @parse_throttle_exact .working
    ⟨⟨false, bytes "config.el", (∅ : ProfileData).set (bytes "Pedal Assist") (bytes "DA")
      (bytes "7")⟩, fun _ => none⟩ ⟨0x16, 0x54, 9, ⟨[12, 36, 1, 5, 4, 21], rfl⟩, 172⟩ rfl
  obtain ⟨hkeys, hothers⟩ := hstored hstatus
  refine ⟨s', hstatus ▸ hrun, ?_, ?_⟩
  · exact hkeys (bytes "DA", 5) (by decide)
  · rw [hothers (bytes "Pedal Assist") (bytes "DA") (by decide)]
    exact Table.get?_set_self ..

end PacketBuilder

end BafangEmulator
