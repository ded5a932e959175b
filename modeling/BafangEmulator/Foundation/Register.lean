/-
  Foundation/Register.lean --- a bank of registers and the history of its writes.

  A register may be without a value.  The contents of a bank after a history of
  writes are the last value written to each register, and the initial contents
  where none was written (`applyWrites_eq`).  A component that keeps several
  independent values is a bank when its steps act on what it serves as
  `Function.update` does.
-/
import Mathlib

set_option autoImplicit false

namespace BafangEmulator.Foundation

variable {ι ν : Type} [DecidableEq ι]

/-- The contents of a bank after a step that may have been a write. -/
def applyWrite (bank : ι → Option ν) : Option (ι × ν) → ι → Option ν
  | none => bank
  | some w => Function.update bank w.1 (some w.2)

/-- The contents of a bank after some writes, the oldest first. -/
def applyWrites (bank : ι → Option ν) (writes : List (ι × ν)) : ι → Option ν :=
  writes.foldl (fun contents w => Function.update contents w.1 (some w.2)) bank

/-- The last value written to register `i`. -/
def lastWrite (i : ι) (writes : List (ι × ν)) : Option ν :=
  (writes.reverse.find? fun w => w.1 = i).map Prod.snd

@[simp] theorem applyWrites_nil (bank : ι → Option ν) : applyWrites bank [] = bank := rfl

@[simp] theorem applyWrites_cons (bank : ι → Option ν) (w : ι × ν) (writes : List (ι × ν)) :
    applyWrites bank (w :: writes) =
      applyWrites (Function.update bank w.1 (some w.2)) writes := rfl

@[simp] theorem lastWrite_nil (i : ι) : lastWrite i ([] : List (ι × ν)) = none := rfl

/-- An older write counts only when no newer one hits the register. -/
theorem lastWrite_cons (i : ι) (w : ι × ν) (writes : List (ι × ν)) :
    lastWrite i (w :: writes) =
      (lastWrite i writes).or (if w.1 = i then some w.2 else none) := by
  unfold lastWrite
  rw [List.reverse_cons, List.find?_append]
  cases (writes.reverse.find? fun w => w.1 = i) with
  | some w' => simp
  | none =>
    by_cases h : w.1 = i
    · simp [h]
    · simp [h]

/-- **Last write wins.**  A register holds the last value written to it, and what it
held at first when there was no write. -/
theorem applyWrites_eq (i : ι) : ∀ (writes : List (ι × ν)) (bank : ι → Option ν),
    applyWrites bank writes i = (lastWrite i writes).or (bank i) := by
  intro writes
  induction writes with
  | nil => intro bank; rfl
  | cons w writes ih =>
    intro bank
    rw [applyWrites_cons, ih, lastWrite_cons, Option.or_assoc]
    by_cases h : w.1 = i
    · subst h
      simp
    · simp [h, Function.update_of_ne (Ne.symm h)]

/-- Steps that write what they are seen to write act as a history of writes. -/
theorem foldl_applyWrite {ω : Type} (written : ω → Option (ι × ν)) :
    ∀ (os : List ω) (bank : ι → Option ν),
      os.foldl (fun contents o => applyWrite contents (written o)) bank =
        applyWrites bank (os.filterMap written) := by
  intro os
  induction os with
  | nil => intro bank; rfl
  | cons o os ih =>
    intro bank
    rw [List.foldl_cons, ih, List.filterMap_cons]
    cases written o <;> rfl

end BafangEmulator.Foundation
