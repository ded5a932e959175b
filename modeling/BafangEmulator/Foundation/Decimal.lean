/-
  Foundation/Decimal.lean --- decimal numerals and the reading of an integer off
  the front of a string.

  `decimal` prints an integer the way `std::to_string` does.  `scanInt` reads
  one the way formatted stream extraction does: white space is skipped, an
  optional sign and the longest run of digits are taken, no digits read as zero,
  and a value outside the integer type saturates at the bound it exceeds.

  `scanInt_decimal`: reading back a printed integer of the type gives it back.
-/
import BafangEmulator.Foundation.Bytes

set_option autoImplicit false

namespace BafangEmulator.Foundation

/-! ## Printing -/

/-- The decimal digits of a natural number, most significant first. -/
def decimalNat (n : Nat) : Bytes := (Nat.toDigits 10 n).map fun c => UInt8.ofNat c.toNat

/-- The decimal numeral of an integer. -/
def decimal (z : Int) : Bytes :=
  if z < 0 then bytes "-" ++ decimalNat z.natAbs else decimalNat z.natAbs

/-! ## Reading -/

/-- A decimal digit. -/
def isDigit (b : UInt8) : Bool := 48 ≤ b && b ≤ 57

/-- White space of the classic locale: blank, `\t`, `\n`, `\v`, `\f` and `\r`. -/
def isSpace (b : UInt8) : Bool := b == 32 || (9 ≤ b && b ≤ 13)

/-- The number a digit string stands for. -/
def digitsValue (ds : Bytes) : Nat := ds.foldl (fun acc d => 10 * acc + (d.toNat - 48)) 0

/-- An optional sign: whether it is a minus, and what follows it. -/
def splitSign : Bytes → Bool × Bytes
  | [] => (false, [])
  | c :: rest => if c = 45 then (true, rest) else if c = 43 then (false, rest) else (false, c :: rest)

/-- The integer at the front of a string, before any bound is applied. -/
def scanUnbounded (text : Bytes) : Int :=
  let (negative, rest) := splitSign (text.dropWhile isSpace)
  let magnitude : Int := digitsValue (rest.takeWhile isDigit)
  if negative then -magnitude else magnitude

/-- The integer of the type `lo .. hi` that extraction yields. -/
def scanInt (lo hi : Int) (text : Bytes) : Int := max lo (min hi (scanUnbounded text))

/-! ## The round trip -/

theorem exists_digit_of_mem_toDigits {n : Nat} {c : Char} (h : c ∈ Nat.toDigits 10 n) :
    48 ≤ c.toNat ∧ c.toNat ≤ 57 := by
  have hd := Nat.isDigit_of_mem_toDigits (by decide) (by decide) h
  simp only [Char.isDigit, Bool.and_eq_true, decide_eq_true_eq] at hd
  exact ⟨hd.1, hd.2⟩

/-- A printed natural number is all digits. -/
theorem isDigit_of_mem_decimalNat {n : Nat} {b : UInt8} (h : b ∈ decimalNat n) :
    isDigit b = true := by
  obtain ⟨c, hc, rfl⟩ := List.mem_map.mp h
  obtain ⟨hlo, hhi⟩ := exists_digit_of_mem_toDigits hc
  simp only [isDigit, Bool.and_eq_true, decide_eq_true_eq, UInt8.le_iff_toNat_le,
    UInt8.toNat_ofNat']
  constructor
  · show 48 ≤ _
    omega
  · show _ ≤ 57
    omega

theorem decimalNat_ne_nil (n : Nat) : decimalNat n ≠ [] := by
  simp [decimalNat, Nat.toDigits_ne_nil]

/-- The digits of a number stand for it. -/
theorem digitsValue_decimalNat (n : Nat) : digitsValue (decimalNat n) = n := by
  have hfold : ∀ (cs : List Char) (acc : Nat), (∀ c ∈ cs, 48 ≤ c.toNat ∧ c.toNat ≤ 57) →
      (cs.map fun c => UInt8.ofNat c.toNat).foldl (fun acc d => 10 * acc + (d.toNat - 48)) acc =
        Nat.ofDigitChars 10 cs acc := by
    intro cs
    induction cs with
    | nil => intro acc _; simp
    | cons c cs ih =>
      intro acc hcs
      have hc := hcs c List.mem_cons_self
      have hval : (UInt8.ofNat c.toNat).toNat = c.toNat := by
        rw [UInt8.toNat_ofNat']
        omega
      rw [List.map_cons, List.foldl_cons, hval, Nat.ofDigitChars_cons]
      exact ih _ fun d hd => hcs d (List.mem_cons_of_mem c hd)
  unfold digitsValue decimalNat
  rw [hfold _ 0 fun c hc => exists_digit_of_mem_toDigits hc]
  exact Nat.ofDigitChars_ten_toDigits

theorem takeWhile_isDigit_decimalNat (n : Nat) :
    (decimalNat n).takeWhile isDigit = decimalNat n :=
  List.takeWhile_eq_self_iff.mpr fun _ h => isDigit_of_mem_decimalNat h

/-- A digit string starts with neither white space nor a sign. -/
theorem splitSign_decimalNat (n : Nat) :
    splitSign ((decimalNat n).dropWhile isSpace) = (false, decimalNat n) := by
  cases h : decimalNat n with
  | nil => exact absurd h (decimalNat_ne_nil n)
  | cons d ds =>
    have hd : isDigit d = true := isDigit_of_mem_decimalNat (by rw [h]; exact List.mem_cons_self)
    simp only [isDigit, Bool.and_eq_true, decide_eq_true_eq, UInt8.le_iff_toNat_le] at hd
    have hlo : 48 ≤ d.toNat := hd.1
    have hspace : isSpace d = false := by
      have h32 : d ≠ 32 := by rintro rfl; exact absurd hlo (by decide)
      have h13 : ¬ d ≤ 13 := by
        rw [UInt8.le_iff_toNat_le]
        show ¬ d.toNat ≤ 13
        omega
      simp [isSpace, h32, h13]
    have h45 : d ≠ 45 := by rintro rfl; exact absurd hlo (by decide)
    have h43 : d ≠ 43 := by rintro rfl; exact absurd hlo (by decide)
    simp [hspace, splitSign, h45, h43]

/-- Reading a printed integer gives the integer. -/
theorem scanUnbounded_decimal (z : Int) : scanUnbounded (decimal z) = z := by
  by_cases hz : z < 0
  · have hsplit : splitSign ((decimal z).dropWhile isSpace) = (true, decimalNat z.natAbs) := by
      have hneg : bytes "-" = [45] := by decide
      simp [decimal, hz, hneg, isSpace, splitSign]
    simp only [scanUnbounded, hsplit, takeWhile_isDigit_decimalNat, digitsValue_decimalNat,
      if_true]
    omega
  · have hsplit : splitSign ((decimal z).dropWhile isSpace) = (false, decimalNat z.natAbs) := by
      simp only [decimal, hz, if_false]
      exact splitSign_decimalNat _
    simp only [scanUnbounded, hsplit, takeWhile_isDigit_decimalNat, digitsValue_decimalNat,
      Bool.false_eq_true, if_false]
    omega

/-- An integer of the type survives printing and reading. -/
theorem scanInt_decimal {lo hi z : Int} (hlo : lo ≤ z) (hhi : z ≤ hi) :
    scanInt lo hi (decimal z) = z := by
  rw [scanInt, scanUnbounded_decimal]
  omega

theorem decimal_ne_nil (z : Int) : decimal z ≠ [] := by
  unfold decimal
  split
  · simp [decimalNat_ne_nil]
  · exact decimalNat_ne_nil _

/-- Every character of a numeral is a digit or the minus sign. -/
theorem mem_decimal {z : Int} {b : UInt8} (h : b ∈ decimal z) : isDigit b = true ∨ b = 45 := by
  have hneg : bytes "-" = [45] := by decide
  unfold decimal at h
  split at h
  · rw [hneg, List.singleton_append, List.mem_cons] at h
    rcases h with h | h
    · exact Or.inr h
    · exact Or.inl (isDigit_of_mem_decimalNat h)
  · exact Or.inl (isDigit_of_mem_decimalNat h)

end BafangEmulator.Foundation
