/-
  TypedProfile.lean --- profile.h: `add<T>` and `find<T>` for every integer type.

  `add<T>` prints its value and `find<T>` extracts one from the stored text, or from
  its own default printed the same way.  They agree when extraction undoes printing,
  which it does not for the types of one byte: there the first character of the
  number is taken for the value (`agree_iff`).
-/
import BafangEmulator.Foundation.IntegerType
import BafangEmulator.Profile

set_option autoImplicit false

namespace BafangEmulator.Profile

open Foundation IntegerType

section Typed

variable {T : IntegerType}

/-- `profile::add<T>`. -/
def addTyped (p : Profile) (sec key : Bytes) (value : T.Value) : Profile :=
  p.add sec key (IntegerType.toString value)

/-- `profile::find<T>()`. -/
def findTyped (p : Profile) (sec key : Bytes) (default : T.Value) : T.Value × Profile :=
  let (text, p') := p.find sec key (IntegerType.toString default)
  (T.extract text, p')

/-- `profile::find<T>() const`. -/
def findConstTyped (p : Profile) (sec key : Bytes) (default : T.Value) : T.Value :=
  T.extract (p.findConst sec key (IntegerType.toString default))

/-- Both overloads of `find<T>` return the same value. -/
@[simp] theorem findTyped_fst (p : Profile) (sec key : Bytes) (default : T.Value) :
    (p.findTyped sec key default).1 = p.findConstTyped sec key default :=
  congrArg T.extract (p.find_fst sec key _)

end Typed

/-- The operations on `int` are those of the type. -/
theorem addInt_eq (p : Profile) (sec key : Bytes) (value : IntegerType.int.Value) :
    p.addInt sec key value.toInt = p.addTyped sec key value := rfl

theorem findInt_eq (p : Profile) (sec key : Bytes) (default : IntegerType.int.Value) :
    p.findInt sec key default.toInt =
      ((p.findTyped sec key default).1.toInt, (p.findTyped sec key default).2) := rfl

/-! ## Agreement -/

/-- `add<T>` of a value and `find<T>` agree at a key of a profile: the value is found
after it was added and as a default, and the other keys are as they were. -/
structure Agree (p : Profile) (sec key : Bytes) {T : IntegerType} (v : T.Value) : Prop where
  find_add : ∀ default : T.Value, ((p.addTyped sec key v).findTyped sec key default).1 = v
  findConst_add : ∀ default : T.Value, (p.addTyped sec key v).findConstTyped sec key default = v
  find_absent : p.data.get? sec key = none → (p.findTyped sec key v).1 = v
  findConst_absent : p.data.get? sec key = none → p.findConstTyped sec key v = v
  find_other : ∀ (sec' key' : Bytes) (default : T.Value), ¬ (sec = sec' ∧ key = key') →
    ((p.addTyped sec key v).findTyped sec' key' default).1 = (p.findTyped sec' key' default).1
  findConst_other : ∀ (sec' key' : Bytes) (default : T.Value), ¬ (sec = sec' ∧ key = key') →
    (p.addTyped sec key v).findConstTyped sec' key' default = p.findConstTyped sec' key' default

section Agreement

variable {T : IntegerType} (p : Profile) (sec key : Bytes) (v : T.Value)

/-- After `add<T>` the printed value is extracted. -/
theorem findConstTyped_addTyped (default : T.Value) :
    (p.addTyped sec key v).findConstTyped sec key default =
      T.extract (IntegerType.toString v) := by
  rw [findConstTyped, findConst, addTyped, add, Table.get?_set_self]
  rfl

/-- A missing key has the printed default extracted. -/
theorem findConstTyped_of_absent (h : p.data.get? sec key = none) :
    p.findConstTyped sec key v = T.extract (IntegerType.toString v) := by
  rw [findConstTyped, findConst, h]
  rfl

/-- `add<T>` leaves the other keys alone. -/
theorem findConstTyped_addTyped_of_ne {sec' key' : Bytes} (default : T.Value)
    (h : ¬ (sec = sec' ∧ key = key')) :
    (p.addTyped sec key v).findConstTyped sec' key' default =
      p.findConstTyped sec' key' default := by
  rw [findConstTyped, findConst, addTyped, add, Table.get?_set_of_ne h]
  rfl

/-- **`add<T>` and `find<T>` agree** exactly on the numbers, and on the byte 53. -/
theorem agree_iff : Agree p sec key v ↔ T.isCharacter = false ∨ v.toInt = 53 := by
  rw [← extract_toString_iff]
  constructor
  · intro h
    rw [← findConstTyped_addTyped p sec key v v]
    exact h.findConst_add v
  · intro h
    have hadd : ∀ default : T.Value, (p.addTyped sec key v).findConstTyped sec key default = v :=
      fun default => (findConstTyped_addTyped p sec key v default).trans h
    have habsent : p.data.get? sec key = none → p.findConstTyped sec key v = v :=
      fun hnone => (findConstTyped_of_absent p sec key v hnone).trans h
    have hother := fun sec' key' => @findConstTyped_addTyped_of_ne T p sec key v sec' key'
    exact {
      find_add := by simpa only [findTyped_fst] using hadd
      findConst_add := hadd
      find_absent := by simpa only [findTyped_fst] using habsent
      findConst_absent := habsent
      find_other := by simpa only [findTyped_fst] using hother
      findConst_other := hother }

end Agreement

/-- The byte 20 is not found again: the digit 2 is. -/
theorem byte_is_not_found :
    ¬ Agree ⟨false, bytes "config.el", ∅⟩ (bytes "Basic") (bytes "LBP")
        (⟨20, by decide⟩ : IntegerType.uint8.Value) ∧
      ((⟨false, bytes "config.el", ∅⟩ : Profile).findTyped (bytes "Basic") (bytes "LBP")
        (⟨20, by decide⟩ : IntegerType.uint8.Value)).1.toInt = 50 := by
  have hfind : ((⟨false, bytes "config.el", ∅⟩ : Profile).findTyped (bytes "Basic") (bytes "LBP")
      (⟨20, by decide⟩ : IntegerType.uint8.Value)).1.toInt = 50 := by decide +kernel
  refine ⟨fun h => ?_, hfind⟩
  rw [h.find_absent rfl] at hfind
  exact absurd hfind (by decide)

end BafangEmulator.Profile
