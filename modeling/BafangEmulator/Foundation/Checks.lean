/-
  Foundation/Checks.lean --- a list of checks, made on a list of values in order.

  Each check has a status, and the first check that its value fails gives the
  status of the whole; when none fails there is a status for success.  A check
  that is always passed is one that is left out.  `verdict_skip` says on which
  values that makes a difference.
-/
import Mathlib

set_option autoImplicit false

namespace BafangEmulator.Foundation

/-- A test with the status of a value that fails it. -/
structure Check (σ α : Type) where
  status : σ
  passes : α → Bool

/-- The status of the first check that its value fails. -/
def firstFailing {σ α : Type} : List (Check σ α) → List α → Option σ
  | c :: cs, v :: vs => if c.passes v then firstFailing cs vs else some c.status
  | [], _ => none
  | _ :: _, [] => none

/-- The status of the whole. -/
def verdict {σ α : Type} (success : σ) (cs : List (Check σ α)) (vs : List α) : σ :=
  (firstFailing cs vs).getD success

/-- The check that every value passes. -/
def Check.skipped {σ α : Type} (status : σ) : Check σ α where
  status := status
  passes _ := true

variable {σ α : Type}

/-- No check fails when every value passes its own. -/
theorem firstFailing_eq_none_iff : ∀ {cs : List (Check σ α)} {vs : List α},
    firstFailing cs vs = none ↔ ∀ e ∈ cs.zip vs, e.1.passes e.2 = true := by
  intro cs
  induction cs with
  | nil => intro vs; simp [firstFailing]
  | cons c cs ih =>
    intro vs
    cases vs with
    | nil => simp [firstFailing]
    | cons v vs =>
      rw [firstFailing, List.zip_cons_cons, List.forall_mem_cons]
      split
      · rename_i h
        rw [ih]
        exact ⟨fun hrest => ⟨h, hrest⟩, fun hall => hall.2⟩
      · rename_i h
        exact iff_of_false (by simp) fun hall => h hall.1

/-- A status that is given is that of some check. -/
theorem exists_status_of_firstFailing {s : σ} : ∀ {cs : List (Check σ α)} {vs : List α},
    firstFailing cs vs = some s → ∃ c ∈ cs, c.status = s := by
  intro cs
  induction cs with
  | nil => intro vs h; simp [firstFailing] at h
  | cons c cs ih =>
    intro vs h
    cases vs with
    | nil => simp [firstFailing] at h
    | cons v vs =>
      rw [firstFailing] at h
      split at h
      · obtain ⟨d, hd, hs⟩ := ih h
        exact ⟨d, List.mem_cons_of_mem c hd, hs⟩
      · exact ⟨c, List.mem_cons_self, Option.some.inj h⟩

/-- Checks are made from left to right. -/
theorem firstFailing_append : ∀ {cs : List (Check σ α)} {us : List α} (ds : List (Check σ α))
    (ws : List α), cs.length = us.length →
    firstFailing (cs ++ ds) (us ++ ws) = (firstFailing cs us).or (firstFailing ds ws) := by
  intro cs
  induction cs with
  | nil =>
    intro us ds ws hlength
    rw [List.length_eq_zero_iff.mp hlength.symm]
    rfl
  | cons c cs ih =>
    intro us ds ws hlength
    cases us with
    | nil => simp at hlength
    | cons u us =>
      rw [List.cons_append, List.cons_append, firstFailing, firstFailing]
      split
      · exact ih ds ws (Nat.succ.inj hlength)
      · rfl

/-- A list, split at one of its places. -/
theorem eq_take_append_cons_drop {β : Type} {l : List β} {i : Nat} {b : β} (h : l[i]? = some b) :
    l = l.take i ++ b :: l.drop (i + 1) := by
  obtain ⟨hlt, rfl⟩ := List.getElem?_eq_some_iff.mp h
  rw [← List.drop_eq_getElem_cons hlt, List.take_append_drop]

/-- The first check makes no difference when its value passes it, and only then when
no later check has its status. -/
theorem verdict_skip_first {success : σ} {c : Check σ α} {cs : List (Check σ α)} {v : α}
    {vs : List α} (hsuccess : c.status ≠ success) (hfresh : ∀ d ∈ cs, d.status ≠ c.status) :
    verdict success cs vs = verdict success (c :: cs) (v :: vs) ↔ c.passes v = true := by
  rw [verdict, verdict, firstFailing]
  by_cases hpass : c.passes v = true
  · simp [hpass]
  · -- The value fails the check, and no later check has its status.
    rw [if_neg hpass, Option.getD_some]
    refine iff_of_false (fun heq => ?_) hpass
    cases hlater : firstFailing cs vs with
    | none => exact hsuccess (by rw [← heq, hlater, Option.getD_none])
    | some s =>
      obtain ⟨d, hd, hs⟩ := exists_status_of_firstFailing hlater
      exact hfresh d hd (by rw [← heq, hlater, Option.getD_some, hs])

/-- **A check left out** makes no difference exactly when its value would have passed
it, or an earlier value fails its own. -/
theorem verdict_skip {success : σ} {cs : List (Check σ α)} {vs : List α} {i : Nat}
    {c : Check σ α} {v : α} (hc : cs[i]? = some c) (hv : vs[i]? = some v)
    (hsuccess : c.status ≠ success) (hfresh : ∀ d ∈ cs.drop (i + 1), d.status ≠ c.status) :
    verdict success (cs.take i ++ .skipped c.status :: cs.drop (i + 1)) vs =
        verdict success cs vs ↔
      c.passes v = true ∨ ∃ e ∈ (cs.zip vs).take i, e.1.passes e.2 = false := by
  have hlength : (cs.take i).length = (vs.take i).length := by
    have hci := (List.getElem?_eq_some_iff.mp hc).1
    have hvi := (List.getElem?_eq_some_iff.mp hv).1
    rw [List.length_take, List.length_take]
    omega
  have hearlier_iff : (∃ e ∈ (cs.zip vs).take i, e.1.passes e.2 = false) ↔
      firstFailing (cs.take i) (vs.take i) ≠ none := by
    rw [List.zip, List.take_zipWith, Ne, firstFailing_eq_none_iff, List.zip]
    push Not
    simp only [ne_eq, Bool.not_eq_true]
  have hsplit : firstFailing cs vs = (firstFailing (cs.take i) (vs.take i)).or
      (firstFailing (c :: cs.drop (i + 1)) (v :: vs.drop (i + 1))) := by
    rw [← firstFailing_append _ _ hlength, ← eq_take_append_cons_drop hc,
      ← eq_take_append_cons_drop hv]
  have hskip : firstFailing (cs.take i ++ .skipped c.status :: cs.drop (i + 1)) vs =
      (firstFailing (cs.take i) (vs.take i)).or
        (firstFailing (cs.drop (i + 1)) (vs.drop (i + 1))) := by
    conv_lhs => rw [eq_take_append_cons_drop hv]
    exact firstFailing_append _ _ hlength
  rw [verdict, verdict, hsplit, hskip, hearlier_iff]
  cases hearlier : firstFailing (cs.take i) (vs.take i) with
  | some s => simp
  | none =>
    simp only [Option.none_or, ne_eq, not_true_eq_false, or_false]
    exact verdict_skip_first hsuccess hfresh

end BafangEmulator.Foundation
