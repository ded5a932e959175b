/-
  Foundation/Prefix.lean --- loops over a list whose state is a summary of what was
  read.

  A loop that goes through a list, carries a state and may stop with an error does at
  each element what the elements before it call for.  To describe it without its
  state, say which elements are accepted after which (`Ok`) and what the state says
  about the elements read (`Reads`).  The two rules below then give what the whole
  loop accepts and what it ends in.
-/
import Mathlib

set_option autoImplicit false

namespace BafangEmulator.Foundation

variable {α β : Type}

/-- The elements of a list, each with those before it. -/
def withPrefixes (l : List α) : List (List α × α) := l.inits.zip l

theorem withPrefixes_cons (a : α) (l : List α) :
    withPrefixes (a :: l) = ([], a) :: (withPrefixes l).map (Prod.map (a :: ·) id) := by
  rw [withPrefixes, List.inits_cons, List.zip_cons_cons, List.zip_map_left]
  rfl

theorem withPrefixes_append_singleton (l : List α) (a : α) :
    withPrefixes (l ++ [a]) = withPrefixes l ++ [(l, a)] := by
  induction l with
  | nil => rfl
  | cons b l ih =>
    rw [List.cons_append, withPrefixes_cons, ih, withPrefixes_cons, List.map_append]
    rfl

/-- The value of the last element that has one. -/
def lastSome? (f : α → Option β) (l : List α) : Option β := l.reverse.findSome? f

/-- The last element decides, when it has a value. -/
@[simp] theorem lastSome?_append_singleton (f : α → Option β) (l : List α) (a : α) :
    lastSome? f (l ++ [a]) = (f a).or (lastSome? f l) := by
  rw [lastSome?, List.reverse_append, List.reverse_singleton, List.singleton_append,
    List.findSome?_cons]
  cases f a <;> rfl

section Loop

variable {σ ε : Type} {step : σ → α → Except ε σ} {start : σ} {Reads : List α → σ → Prop}

theorem foldlM_append_singleton (l : List α) (a : α) :
    (l ++ [a]).foldlM step start = (l.foldlM step start).bind fun state => step state a := by
  rw [List.foldlM_append]
  refine congrArg (Except.bind _) (funext fun state => ?_)
  rw [List.foldlM_cons]
  cases step state a <;> rfl

/-- **What a loop ends in.**  A summary that holds at first and that every step extends
holds of the whole list. -/
theorem reads_of_foldlM (hstart : Reads [] start)
    (hreads : ∀ before a state next, Reads before state → step state a = .ok next →
      Reads (before ++ [a]) next) (l : List α) :
    ∀ state, l.foldlM step start = .ok state → Reads l state := by
  induction l using List.reverseRecOn with
  | nil =>
    intro state h
    rw [← Except.ok.inj h]
    exact hstart
  | append_singleton l a ih =>
    intro next h
    rw [foldlM_append_singleton] at h
    cases hl : l.foldlM step start with
    | error e =>
      rw [hl] at h
      cases h
    | ok state =>
      rw [hl] at h
      exact hreads l a state next (ih state hl) h

/-- **What a loop accepts.**  When a step is accepted after what was read, and not only
in the state it left, the loop accepts the lists all of whose elements are. -/
theorem foldlM_eq_ok_iff (hstart : Reads [] start)
    (hreads : ∀ before a state next, Reads before state → step state a = .ok next →
      Reads (before ++ [a]) next)
    {Ok : List α → α → Prop}
    (hok : ∀ before a state, Reads before state →
      ((∃ next, step state a = .ok next) ↔ Ok before a)) (l : List α) :
    (∃ state, l.foldlM step start = .ok state) ↔ ∀ e ∈ withPrefixes l, Ok e.1 e.2 := by
  induction l using List.reverseRecOn with
  | nil => exact iff_of_true ⟨start, rfl⟩ (by simp [withPrefixes])
  | append_singleton l a ih =>
    rw [foldlM_append_singleton, withPrefixes_append_singleton, List.forall_mem_append,
      List.forall_mem_singleton, ← ih]
    cases hl : l.foldlM step start with
    | error e => exact iff_of_false (by rintro ⟨_, ⟨⟩⟩) (by rintro ⟨⟨_, ⟨⟩⟩, _⟩)
    | ok state =>
      have hstate := reads_of_foldlM hstart hreads l state hl
      rw [← hok l a state hstate]
      exact ⟨fun h => ⟨⟨state, rfl⟩, h⟩, fun h => h.2⟩

end Loop

end BafangEmulator.Foundation
