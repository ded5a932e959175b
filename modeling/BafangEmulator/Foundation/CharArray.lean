/-
  Foundation/CharArray.lean --- printing into an array of characters, piece by piece.

  A text is put together in an array by a series of `sprintf` calls, each of which
  writes at the offset where the one before ended, and its own terminating NUL
  behind it.  A call that would write outside the array is undefined.  As long as
  the text and its NUL fit, the array ends up with the text and NUL bytes behind it
  (`Holds.foldlM_sprintf`).
-/
import BafangEmulator.Foundation.Bytes

set_option autoImplicit false

namespace BafangEmulator.Foundation

/-- An array of characters and the offset of the next write. -/
structure CharArray (capacity : Nat) where
  chars : Bytes
  offset : Nat
  length_chars : chars.length = capacity

namespace CharArray

variable {capacity : Nat}

/-- `char array[capacity] = { 0 }`, written from the front. -/
def zeroed (capacity : Nat) : CharArray capacity where
  chars := List.replicate capacity 0
  offset := 0
  length_chars := List.length_replicate

/-- `offset += sprintf(array + offset, ...)`, where `text` is what is printed. -/
def sprintf (a : CharArray capacity) (text : Bytes) : Option (CharArray capacity) :=
  if h : a.offset + text.length < capacity then
    some {
      chars := a.chars.take a.offset ++ text ++ 0 :: a.chars.drop (a.offset + text.length + 1)
      offset := a.offset + text.length
      length_chars := by
        have hlength := a.length_chars
        simp only [List.length_append, List.length_take, List.length_cons, List.length_drop]
        omega }
  else none

/-- The array holds a text: it ends before the next write, and NUL bytes follow. -/
structure Holds (a : CharArray capacity) (text : Bytes) : Prop where
  chars_eq : a.chars = text ++ List.replicate (capacity - text.length) 0
  offset_eq : a.offset = text.length
  fits : text.length < capacity

theorem holds_zeroed (h : 0 < capacity) : (zeroed capacity).Holds [] where
  chars_eq := rfl
  offset_eq := rfl
  fits := h

/-- A call that fits appends its text. -/
theorem Holds.sprintf {a : CharArray capacity} {text more : Bytes} (h : a.Holds text)
    (hfits : (text ++ more).length < capacity) :
    ∃ a', a.sprintf more = some a' ∧ a'.Holds (text ++ more) := by
  rw [List.length_append] at hfits
  have hroom : a.offset + more.length < capacity := by
    rw [h.offset_eq]
    exact hfits
  have htake : a.chars.take a.offset = text := by
    rw [h.chars_eq, h.offset_eq, List.take_left]
  have hdrop : a.chars.drop (a.offset + more.length + 1) =
      List.replicate (capacity - (text ++ more).length - 1) 0 := by
    rw [h.chars_eq, h.offset_eq, List.drop_append, List.drop_of_length_le (by omega),
      List.nil_append, List.drop_replicate, List.length_append]
    congr 1
    omega
  -- The NUL is the first of those that follow.
  have hnul : List.replicate (capacity - (text ++ more).length) (0 : UInt8) =
      0 :: List.replicate (capacity - (text ++ more).length - 1) 0 := by
    rw [← List.replicate_succ]
    congr 1
    rw [List.length_append]
    omega
  refine ⟨_, dif_pos hroom, ?_, ?_, ?_⟩
  · show a.chars.take a.offset ++ more ++ 0 :: a.chars.drop (a.offset + more.length + 1) = _
    rw [htake, hdrop, hnul]
  · show a.offset + more.length = _
    rw [List.length_append, h.offset_eq]
  · rw [List.length_append]
    exact hfits

/-- A loop of calls that fit together appends their texts. -/
theorem Holds.foldlM_sprintf {α : Type} (print : α → Bytes) (items : List α) :
    ∀ {a : CharArray capacity} {text : Bytes}, a.Holds text →
      (text ++ items.flatMap print).length < capacity →
      ∃ a', items.foldlM (fun a item => a.sprintf (print item)) a = some a' ∧
        a'.Holds (text ++ items.flatMap print) := by
  induction items with
  | nil =>
    intro a text h _
    rw [List.flatMap_nil, List.append_nil]
    exact ⟨a, rfl, h⟩
  | cons item items ih =>
    intro a text h hfits
    rw [List.flatMap_cons, ← List.append_assoc] at hfits ⊢
    have hfirst : (text ++ print item).length < capacity := by
      rw [List.length_append] at hfits
      omega
    obtain ⟨a₁, hrun, h₁⟩ := h.sprintf hfirst
    obtain ⟨a₂, hrest, h₂⟩ := ih h₁ hfits
    refine ⟨a₂, ?_, h₂⟩
    rw [List.foldlM_cons, hrun]
    exact hrest

end CharArray

end BafangEmulator.Foundation
