/-
  Foundation/Bytes.lean --- byte strings and their additive checksum.

  A byte string is a list of bytes: what a `std::string` holds, a file or a line
  of it, a piece of a serial stream.  The checksum is the wrapping 8-bit sum.
  What it detects is stated once: it tells any two strings apart that differ in
  exactly one byte (`sumFrom_set_ne`).
-/
import Mathlib

set_option autoImplicit false

namespace BafangEmulator.Foundation

/-- A byte string. -/
abbrev Bytes : Type := List UInt8

/-- The bytes of a literal. -/
def bytes (s : String) : Bytes := s.toUTF8.data.toList

/-! ## The additive checksum -/

/-- Add every byte of a string to `start`, in wrapping 8-bit arithmetic. -/
def sumFrom (start : UInt8) (l : Bytes) : UInt8 := l.foldl (· + ·) start

@[simp] theorem sumFrom_nil (start : UInt8) : sumFrom start [] = start := rfl

@[simp] theorem sumFrom_cons (start x : UInt8) (l : Bytes) :
    sumFrom start (x :: l) = sumFrom (start + x) l := rfl

/-- The checksum is the sum modulo 256. -/
theorem toNat_sumFrom : ∀ (l : Bytes) (start : UInt8),
    (sumFrom start l).toNat = (start.toNat + (l.map UInt8.toNat).sum) % 256 := by
  intro l
  induction l with
  | nil =>
    intro start
    have hstart := UInt8.toNat_lt start
    rw [sumFrom_nil, List.map_nil, List.sum_nil, Nat.add_zero, Nat.mod_eq_of_lt hstart]
  | cons x l ih =>
    intro start
    rw [sumFrom_cons, ih, UInt8.toNat_add, List.map_cons, List.sum_cons]
    omega

/-- Different starting values give different sums. -/
theorem sumFrom_injective (l : Bytes) : Function.Injective fun start => sumFrom start l := by
  induction l with
  | nil => exact fun _ _ h => h
  | cons x l ih => exact fun a b h => (UInt8.add_left_inj x).mp (ih h)

/-- Changing one byte changes the sum. -/
theorem sumFrom_set_ne {v : UInt8} : ∀ {l : Bytes} {i : Nat} {start : UInt8} (h : i < l.length),
    v ≠ l[i] → sumFrom start (l.set i v) ≠ sumFrom start l := by
  intro l
  induction l with
  | nil => intro i start h; simp at h
  | cons x l ih =>
    intro i start h hv
    cases i with
    | zero =>
      intro heq
      exact hv ((UInt8.add_right_inj start).mp (sumFrom_injective l heq))
    | succ i =>
      rw [List.set_cons_succ, sumFrom_cons, sumFrom_cons]
      exact ih (Nat.lt_of_succ_lt_succ h) (by simpa using hv)

end BafangEmulator.Foundation
