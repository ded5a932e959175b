/-
  Foundation/PrefixCode.lean --- messages that tell where they end.

  Messages sent one after the other can be told apart when no message is the front of
  another one (`PrefixFree.uniquelyDecodable`).  That is so in particular when the
  first few symbols of a message fix its length (`prefixFree_of_header`).
-/
import Mathlib

set_option autoImplicit false

namespace BafangEmulator.Foundation

open InformationTheory

variable {α : Type}

/-- No message is empty, or the front of another one. -/
structure PrefixFree (S : Set (List α)) : Prop where
  nil_notMem : [] ∉ S
  eq_of_prefix : ∀ w ∈ S, ∀ v ∈ S, w <+: v → w = v

/-- Of two messages at the front of one text neither is longer. -/
theorem PrefixFree.eq_of_append {S : Set (List α)} (h : PrefixFree S) {w v r s : List α}
    (hw : w ∈ S) (hv : v ∈ S) (heq : w ++ r = v ++ s) : w = v := by
  have hwr : w <+: v ++ s := heq ▸ List.prefix_append w r
  have hvs : v <+: v ++ s := List.prefix_append v s
  rcases List.prefix_or_prefix_of_prefix hwr hvs with hwv | hvw
  · exact h.eq_of_prefix w hw v hv hwv
  · exact (h.eq_of_prefix v hv w hw hvw).symm

/-- **Messages in a row are told apart.** -/
theorem PrefixFree.uniquelyDecodable {S : Set (List α)} (h : PrefixFree S) :
    UniquelyDecodable S := by
  have hne : ∀ {w : List α} {ws : List (List α)}, w ∈ S → (w :: ws).flatten ≠ [] := by
    intro w ws hw hnil
    rw [List.flatten_cons, List.append_eq_nil_iff] at hnil
    exact h.nil_notMem (hnil.1 ▸ hw)
  intro ws
  induction ws with
  | nil =>
    intro vs _ hvs heq
    cases vs with
    | nil => rfl
    | cons v vs => exact absurd heq.symm (hne (hvs v List.mem_cons_self))
  | cons w ws ih =>
    intro vs hws hvs heq
    cases vs with
    | nil => exact absurd heq (hne (hws w List.mem_cons_self))
    | cons v vs =>
      rw [List.flatten_cons, List.flatten_cons] at heq
      obtain rfl := h.eq_of_append (hws w List.mem_cons_self) (hvs v List.mem_cons_self) heq
      rw [ih vs (fun u hu => hws u (List.mem_cons_of_mem w hu))
        (fun u hu => hvs u (List.mem_cons_of_mem w hu)) (List.append_cancel_left heq)]

/-- **Messages with a header.**  The first `k` symbols of a message fix its length. -/
theorem prefixFree_of_header {S : Set (List α)} {k : Nat} (hk : 0 < k) (size : List α → Nat)
    (h : ∀ w ∈ S, k ≤ w.length ∧ w.length = size (w.take k)) : PrefixFree S where
  nil_notMem hnil := by
    have hlength := (h [] hnil).1
    simp only [List.length_nil] at hlength
    omega
  eq_of_prefix w hw v hv hprefix := by
    obtain ⟨rest, rfl⟩ := hprefix
    have hheader : (w ++ rest).take k = w.take k := List.take_append_of_le_length (h w hw).1
    refine List.IsPrefix.eq_of_length (List.prefix_append w rest) ?_
    rw [(h w hw).2, (h _ hv).2, hheader]

end BafangEmulator.Foundation
