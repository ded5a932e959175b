/-
  Foundation/IntegerType.lean --- integer types, as text streams print and read them.

  Every type is printed in decimal.  How it is read depends on the type: the numbers
  are read off the front of the text, but the types of one byte are character types,
  and extraction reads one character into them.  So what is read back is what was
  printed for the types of numbers, and for a byte only when it is the code of its
  own first digit (`extract_toString_iff`).
-/
import BafangEmulator.Foundation.Decimal

set_option autoImplicit false

namespace BafangEmulator.Foundation

/-! ## Reading -/

/-- The unsigned number at the front of a string: a magnitude above the bound
saturates, and a minus sign negates in the type. -/
def scanUnsigned (hi : Int) (text : Bytes) : Int :=
  if hi < (scanUnbounded text).natAbs then hi else scanUnbounded text % (hi + 1)

theorem scanInt_range {lo hi : Int} (h : lo ≤ hi) (text : Bytes) :
    lo ≤ scanInt lo hi text ∧ scanInt lo hi text ≤ hi := by
  rw [scanInt]
  omega

theorem scanUnsigned_range {hi : Int} (h : 0 ≤ hi) (text : Bytes) :
    0 ≤ scanUnsigned hi text ∧ scanUnsigned hi text ≤ hi := by
  unfold scanUnsigned
  split
  · exact ⟨h, Int.le_refl hi⟩
  · exact ⟨Int.emod_nonneg _ (by omega),
      Int.le_of_lt_add_one (Int.emod_lt_of_pos _ (by omega))⟩

/-- The character at the front of a string, after white space. -/
def scanCharacter (text : Bytes) : Option UInt8 := (text.dropWhile isSpace).head?

/-- A printed number of an unsigned type survives reading. -/
theorem scanUnsigned_decimal {hi z : Int} (hlo : 0 ≤ z) (hhi : z ≤ hi) :
    scanUnsigned hi (decimal z) = z := by
  rw [scanUnsigned, scanUnbounded_decimal, if_neg (by omega)]
  exact Int.emod_eq_of_lt hlo (by omega)

/-- The characters of numerals. -/
def numeralCharacters : Bytes := [45, 48, 49, 50, 51, 52, 53, 54, 55, 56, 57]

theorem mem_numeralCharacters {z : Int} {c : UInt8} (h : c ∈ decimal z) :
    c ∈ numeralCharacters := by
  rcases mem_decimal h with hdigit | rfl
  · simp only [isDigit, Bool.and_eq_true, decide_eq_true_eq, UInt8.le_iff_toNat_le] at hdigit
    have hlo : 48 ≤ c.toNat := hdigit.1
    have hhi : c.toNat ≤ 57 := hdigit.2
    rw [← @UInt8.ofNat_toNat c]
    interval_cases c.toNat <;> decide
  · decide

/-- Of a printed number, its first character is read. -/
theorem scanCharacter_decimal (z : Int) : scanCharacter (decimal z) = (decimal z).head? := by
  have hspaces : ∀ c ∈ numeralCharacters, ¬ isSpace c = true := by decide +kernel
  cases h : decimal z with
  | nil => exact absurd h (decimal_ne_nil z)
  | cons c text =>
    have hmem : c ∈ decimal z := by
      rw [h]
      exact List.mem_cons_self
    rw [scanCharacter, List.dropWhile_cons_of_neg (hspaces c (mem_numeralCharacters hmem))]

/-! ## The types -/

/-- `int8_t`, `uint8_t`, `int`, `unsigned` and `long long`. -/
inductive IntegerType where
  | int8
  | uint8
  | int
  | unsigned
  | longLong
  deriving DecidableEq, Repr

namespace IntegerType

/-- The smallest value. -/
def min : IntegerType → Int
  | int8 => -128
  | uint8 => 0
  | int => -2147483648
  | unsigned => 0
  | longLong => -9223372036854775808

/-- The largest value. -/
def max : IntegerType → Int
  | int8 => 127
  | uint8 => 255
  | int => 2147483647
  | unsigned => 4294967295
  | longLong => 9223372036854775807

/-- `int8_t` is `signed char` and `uint8_t` is `unsigned char`. -/
def isCharacter : IntegerType → Bool
  | int8 => true
  | uint8 => true
  | int => false
  | unsigned => false
  | longLong => false

/-- A value of a type. -/
@[ext]
structure Value (T : IntegerType) where
  toInt : Int
  /-- The type has the value. -/
  range : T.min ≤ toInt ∧ toInt ≤ T.max
  deriving DecidableEq

/-- `std::to_string`, which has no overload for the character types and promotes them. -/
def toString {T : IntegerType} (v : T.Value) : Bytes := decimal v.toInt

/-- What `ss >> t` stores in a `t` that is zero. -/
def scan : IntegerType → Bytes → Int
  | int8, text => (scanCharacter text).elim 0 fun c => c.toInt8.toInt
  | uint8, text => (scanCharacter text).elim 0 fun c => c.toNat
  | int, text => scanInt int.min int.max text
  | unsigned, text => scanUnsigned unsigned.max text
  | longLong, text => scanInt longLong.min longLong.max text

theorem scan_range (T : IntegerType) (text : Bytes) :
    T.min ≤ T.scan text ∧ T.scan text ≤ T.max := by
  cases T with
  | int8 =>
    rw [scan]
    cases scanCharacter text with
    | none => decide
    | some c => exact ⟨c.toInt8.le_toInt, Int.le_of_lt_add_one c.toInt8.toInt_lt⟩
  | uint8 =>
    rw [scan]
    cases scanCharacter text with
    | none => decide
    | some c =>
      have hc := UInt8.toNat_lt c
      simp only [Option.elim_some, min, max]
      omega
  | int => exact scanInt_range (by decide) text
  | unsigned => exact scanUnsigned_range (by decide) text
  | longLong => exact scanInt_range (by decide) text

/-- The value that is read off a text. -/
def extract (T : IntegerType) (text : Bytes) : T.Value where
  toInt := T.scan text
  range := T.scan_range text

@[simp] theorem toInt_extract (T : IntegerType) (text : Bytes) :
    (T.extract text).toInt = T.scan text := rfl

/-! ## The round trip -/

section RoundTrip

variable {T : IntegerType}

/-- A number survives printing and reading. -/
theorem scan_toString_of_number (h : T.isCharacter = false) (v : T.Value) :
    T.scan (toString v) = v.toInt := by
  obtain ⟨z, hlo, hhi⟩ := v
  cases T with
  | int8 => cases h
  | uint8 => cases h
  | int => exact scanInt_decimal hlo hhi
  | unsigned => exact scanUnsigned_decimal hlo hhi
  | longLong => exact scanInt_decimal hlo hhi

/-- Of a printed byte, the first character is read. -/
theorem scan_toString_of_character (h : T.isCharacter = true) (v : T.Value) :
    ∃ c, (decimal v.toInt).head? = some c ∧ T.scan (toString v) = c.toNat := by
  cases hhead : (decimal v.toInt).head? with
  | none => exact absurd (List.head?_eq_none_iff.mp hhead) (decimal_ne_nil v.toInt)
  | some c =>
    have hscan : scanCharacter (toString v) = some c := by
      rw [toString, scanCharacter_decimal, hhead]
    refine ⟨c, rfl, ?_⟩
    cases T with
    | int8 =>
      -- The codes of numerals are small.
      have hsmall : ∀ c ∈ numeralCharacters, c.toInt8.toInt = c.toNat := by decide +kernel
      rw [scan, hscan, Option.elim_some,
        hsmall c (mem_numeralCharacters (List.mem_of_mem_head? hhead))]
    | uint8 => rw [scan, hscan, Option.elim_some]
    | int => cases h
    | unsigned => cases h
    | longLong => cases h

/-- The number 53 is the code of the digit 5, and the only number with the code of the
character it starts with. -/
theorem head?_decimal_eq_iff {z : Int} {c : UInt8} (h : (decimal z).head? = some c) :
    (c.toNat : Int) = z ↔ z = 53 := by
  have hchars : ∀ c ∈ numeralCharacters, (decimal c.toNat).head? = some c → c = 53 := by
    decide +kernel
  constructor
  · rintro rfl
    rw [hchars c (mem_numeralCharacters (List.mem_of_mem_head? h)) h]
    rfl
  · rintro rfl
    have hfive : (decimal 53).head? = some 53 := by decide +kernel
    rw [hfive, Option.some.injEq] at h
    rw [← h]
    rfl

/-- **What is read back.**  A printed value is read back as it was when its type is not
a character type, and of the bytes 53 only is. -/
theorem extract_toString_iff (v : T.Value) :
    T.extract (toString v) = v ↔ T.isCharacter = false ∨ v.toInt = 53 := by
  rw [Value.ext_iff, toInt_extract]
  cases h : T.isCharacter with
  | false => exact iff_of_true (scan_toString_of_number h v) (Or.inl rfl)
  | true =>
    obtain ⟨c, hhead, hscan⟩ := scan_toString_of_character h v
    rw [hscan, head?_decimal_eq_iff hhead]
    simp

end RoundTrip

end IntegerType

end BafangEmulator.Foundation
