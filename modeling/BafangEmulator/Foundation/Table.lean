/-
  Foundation/Table.lean --- a two-level sorted table, `section → key → value`.

  A table is a sorted map of nonempty sorted maps.  The nonemptiness is a field:
  a section comes into being with its first entry and none is ever left bare, so
  a table is determined by its lookups (`Table.ext_get?`) and by its list of
  entries (`Table.setAll_triples`).

  Nothing in this file depends on what the keys and the values are; the keys
  need a lawful comparison only.
-/
import Mathlib

set_option autoImplicit false

namespace BafangEmulator.Foundation

open Std

/-- A sorted table in two levels.  No section is empty. -/
structure Table (σ κ υ : Type) [Ord σ] [Ord κ] [TransOrd σ] where
  /-- The sections, in key order. -/
  sections : ExtTreeMap σ (ExtTreeMap κ υ)
  /-- A section that is present has an entry. -/
  section_ne_empty : ∀ (s : σ) (m : ExtTreeMap κ υ), sections[s]? = some m → m ≠ ∅

namespace Table

variable {σ κ υ : Type} [Ord σ] [Ord κ] [TransOrd σ] [TransOrd κ]

/-- The table without entries. -/
def empty : Table σ κ υ where
  sections := ∅
  section_ne_empty := by simp

instance : EmptyCollection (Table σ κ υ) := ⟨empty⟩

/-- The value stored under key `k` of section `s`. -/
def get? (t : Table σ κ υ) (s : σ) (k : κ) : Option υ :=
  match t.sections[s]? with
  | some m => m[k]?
  | none => none

/-- Store `v` under key `k` of section `s`, making the section when it is
missing and replacing an entry that is there. -/
def set (t : Table σ κ υ) (s : σ) (k : κ) (v : υ) : Table σ κ υ where
  sections := t.sections.insert s ((t.sections.getD s ∅).insert k v)
  section_ne_empty := by
    intro s' m h
    rw [ExtTreeMap.getElem?_insert] at h
    split at h
    · rw [← Option.some.inj h]
      exact ExtTreeMap.insert_ne_empty
    · exact t.section_ne_empty s' m h

/-- The sections in order, each with its entries in order. -/
def entries (t : Table σ κ υ) : List (σ × List (κ × υ)) :=
  t.sections.toList.map fun p => (p.1, p.2.toList)

/-- The entries in order, each with its section. -/
def triples (t : Table σ κ υ) : List (σ × κ × υ) :=
  t.entries.flatMap fun p => p.2.map fun q => (p.1, q.1, q.2)

@[simp] theorem get?_empty (s : σ) (k : κ) : (∅ : Table σ κ υ).get? s k = none := by
  have h : (∅ : Table σ κ υ).sections[s]? = none := ExtTreeMap.getElem?_empty
  simp [get?, h]

/-- Store a list of entries, one after the other. -/
def setAll (t : Table σ κ υ) (l : List (σ × κ × υ)) : Table σ κ υ :=
  l.foldl (fun acc e => acc.set e.1 e.2.1 e.2.2) t

@[simp] theorem setAll_nil (t : Table σ κ υ) : t.setAll [] = t := rfl

@[simp] theorem setAll_cons (t : Table σ κ υ) (e : σ × κ × υ) (l : List (σ × κ × υ)) :
    t.setAll (e :: l) = (t.set e.1 e.2.1 e.2.2).setAll l := rfl

theorem setAll_append (t : Table σ κ υ) (l l' : List (σ × κ × υ)) :
    t.setAll (l ++ l') = (t.setAll l).setAll l' := List.foldl_append

section Lawful

variable [LawfulEqOrd σ] [LawfulEqOrd κ]

@[simp] theorem get?_set_self (t : Table σ κ υ) (s : σ) (k : κ) (v : υ) :
    (t.set s k v).get? s k = some v := by
  simp [get?, set]

/-- Storing under one key leaves every other key alone. -/
theorem get?_set_of_ne {t : Table σ κ υ} {s s' : σ} {k k' : κ} {v : υ}
    (h : ¬ (s = s' ∧ k = k')) : (t.set s k v).get? s' k' = t.get? s' k' := by
  unfold get? set
  by_cases hs : s = s'
  · subst hs
    have hk : k ≠ k' := fun hk => h ⟨rfl, hk⟩
    cases hm : t.sections[s]? with
    | none => simp [ExtTreeMap.getD_eq_getD_getElem?, hm, hk]
    | some m => simp [ExtTreeMap.getD_eq_getD_getElem?, hm, ExtTreeMap.getElem?_insert, hk]
  · simp [ExtTreeMap.getElem?_insert, hs]

/-- A table is determined by its lookups.  This is where nonempty sections are
needed: an empty section would be invisible to `get?`. -/
theorem ext_get? {t u : Table σ κ υ} (h : ∀ s k, t.get? s k = u.get? s k) : t = u := by
  have hsections : t.sections = u.sections := by
    refine ExtTreeMap.ext_getElem? fun {s} => ?_
    have hs := h s
    unfold get? at hs
    cases ht : t.sections[s]? with
    | none =>
      cases hu : u.sections[s]? with
      | none => rfl
      | some m =>
        refine absurd (ExtTreeMap.ext_getElem? fun {k} => ?_) (u.section_ne_empty s m hu)
        simpa [ht, hu] using (hs k).symm
    | some m =>
      cases hu : u.sections[s]? with
      | none =>
        refine absurd (ExtTreeMap.ext_getElem? fun {k} => ?_) (t.section_ne_empty s m ht)
        simpa [ht, hu] using hs k
      | some m' =>
        have hm : m = m' := ExtTreeMap.ext_getElem? fun {k} => by simpa [ht, hu] using hs k
        rw [hm]
  cases t
  cases u
  simpa using hsections

/-- Storing what is stored already changes nothing. -/
theorem set_eq_self {t : Table σ κ υ} {s : σ} {k : κ} {v : υ} (h : t.get? s k = some v) :
    t.set s k v = t := by
  refine ext_get? fun s' k' => ?_
  by_cases hsame : s = s' ∧ k = k'
  · obtain ⟨rfl, rfl⟩ := hsame
    rw [get?_set_self, h]
  · exact get?_set_of_ne hsame

theorem setAll_eq_self {t : Table σ κ υ} : ∀ {l : List (σ × κ × υ)},
    (∀ e ∈ l, t.get? e.1 e.2.1 = some e.2.2) → t.setAll l = t := by
  intro l
  induction l with
  | nil => intro _; rfl
  | cons e l ih =>
    intro h
    rw [setAll_cons, set_eq_self (h e List.mem_cons_self)]
    exact ih fun e' he' => h e' (List.mem_cons_of_mem e he')

/-! ## The list of entries -/

omit [LawfulEqOrd κ] in
/-- Every section listed has an entry. -/
theorem items_ne_nil {t : Table σ κ υ} {p : σ × List (κ × υ)} (h : p ∈ t.entries) :
    p.2 ≠ [] := by
  obtain ⟨⟨s, m⟩, hm, rfl⟩ := List.mem_map.mp h
  rw [ExtTreeMap.mem_toList_iff_getElem?_eq_some] at hm
  rw [Ne, ExtTreeMap.toList_eq_nil_iff]
  exact t.section_ne_empty s m hm

theorem mem_triples_iff {t : Table σ κ υ} {s : σ} {k : κ} {v : υ} :
    (s, k, v) ∈ t.triples ↔ t.get? s k = some v := by
  simp only [triples, entries, List.mem_flatMap, List.mem_map, get?]
  constructor
  · rintro ⟨_, ⟨⟨s', m⟩, hm, rfl⟩, ⟨k', v'⟩, hk, heq⟩
    simp only [Prod.mk.injEq] at heq
    obtain ⟨rfl, rfl, rfl⟩ := heq
    rw [ExtTreeMap.mem_toList_iff_getElem?_eq_some] at hm hk
    rw [hm]
    exact hk
  · intro h
    cases hm : t.sections[s]? with
    | none => simp [hm] at h
    | some m =>
      rw [hm] at h
      exact ⟨(s, m.toList),
        ⟨(s, m), ExtTreeMap.mem_toList_iff_getElem?_eq_some.mpr hm, rfl⟩,
        (k, v), ExtTreeMap.mem_toList_iff_getElem?_eq_some.mpr h, rfl⟩

/-- A key that no stored entry names keeps its value. -/
theorem get?_setAll_of_not_mem {l : List (σ × κ × υ)} {s : σ} {k : κ} :
    ∀ {t : Table σ κ υ}, (∀ v, (s, k, v) ∉ l) → (t.setAll l).get? s k = t.get? s k := by
  induction l with
  | nil => intro t _; rfl
  | cons e l ih =>
    intro t h
    rw [setAll_cons, ih fun v hv => h v (List.mem_cons_of_mem e hv)]
    refine get?_set_of_ne ?_
    rintro ⟨rfl, rfl⟩
    exact h e.2.2 List.mem_cons_self

/-- Among stored entries that agree on the key, the common value is stored. -/
theorem get?_setAll_of_mem {l : List (σ × κ × υ)} {s : σ} {k : κ} {v : υ} :
    ∀ {t : Table σ κ υ}, (s, k, v) ∈ l → (∀ v', (s, k, v') ∈ l → v' = v) →
      (t.setAll l).get? s k = some v := by
  induction l with
  | nil => intro t h; simp at h
  | cons e l ih =>
    intro t hmem huniq
    by_cases hl : (s, k, v) ∈ l
    · exact ih hl fun v' hv' => huniq v' (List.mem_cons_of_mem e hv')
    · have he : e = (s, k, v) := by
        rcases List.mem_cons.mp hmem with h | h
        · exact h.symm
        · exact absurd h hl
      have hnone : ∀ v', (s, k, v') ∉ l := by
        intro v' hv'
        rw [huniq v' (List.mem_cons_of_mem e hv')] at hv'
        exact hl hv'
      rw [setAll_cons, get?_setAll_of_not_mem hnone, he]
      exact get?_set_self t s k v

/-- What is stored under a key depends on the tables stored into at that key only. -/
theorem get?_setAll_congr {l : List (σ × κ × υ)} {s : σ} {k : κ} :
    ∀ {t u : Table σ κ υ}, t.get? s k = u.get? s k →
      (t.setAll l).get? s k = (u.setAll l).get? s k := by
  induction l with
  | nil => intro t u h; exact h
  | cons e l ih =>
    intro t u h
    rw [setAll_cons, setAll_cons]
    refine ih ?_
    by_cases hsame : e.1 = s ∧ e.2.1 = k
    · obtain ⟨rfl, rfl⟩ := hsame
      rw [get?_set_self, get?_set_self]
    · rw [get?_set_of_ne hsame, get?_set_of_ne hsame, h]

/-- What is stored under a key that some stored entry names depends on the entries only. -/
theorem get?_setAll_of_named {l : List (σ × κ × υ)} {s : σ} {k : κ} :
    ∀ {t u : Table σ κ υ}, (∃ v, (s, k, v) ∈ l) →
      (t.setAll l).get? s k = (u.setAll l).get? s k := by
  induction l with
  | nil => intro t u h; simp at h
  | cons e l ih =>
    intro t u h
    rw [setAll_cons, setAll_cons]
    by_cases hl : ∃ v, (s, k, v) ∈ l
    · exact ih hl
    · obtain ⟨v, hv⟩ := h
      have he : (s, k, v) = e := by
        rcases List.mem_cons.mp hv with heq | hmem
        · exact heq
        · exact absurd ⟨v, hmem⟩ hl
      subst he
      exact get?_setAll_congr (by rw [get?_set_self, get?_set_self])

/-- Entries with different keys can be stored in either order. -/
theorem setAll_comm (t : Table σ κ υ) {l l' : List (σ × κ × υ)}
    (h : ∀ e ∈ l, ∀ e' ∈ l', ¬ (e.1 = e'.1 ∧ e.2.1 = e'.2.1)) :
    (t.setAll l).setAll l' = (t.setAll l').setAll l := by
  refine ext_get? fun s k => ?_
  by_cases hmem : ∃ v, (s, k, v) ∈ l
  · -- The key is not among those of `l'`.
    obtain ⟨v, hv⟩ := hmem
    have hnone : ∀ v', (s, k, v') ∉ l' := fun v' hv' => h _ hv _ hv' ⟨rfl, rfl⟩
    rw [get?_setAll_of_not_mem hnone]
    exact get?_setAll_congr (get?_setAll_of_not_mem hnone).symm
  · -- The key is not among those of `l`.
    have hnone : ∀ v, (s, k, v) ∉ l := fun v hv => hmem ⟨v, hv⟩
    rw [get?_setAll_of_not_mem (l := l) hnone]
    exact get?_setAll_congr (get?_setAll_of_not_mem hnone)

/-- Storing a table's own entries into the empty table gives the table back. -/
theorem setAll_triples (t : Table σ κ υ) : (∅ : Table σ κ υ).setAll t.triples = t := by
  refine ext_get? fun s k => ?_
  cases h : t.get? s k with
  | some v =>
    refine get?_setAll_of_mem (mem_triples_iff.mpr h) fun v' hv' => ?_
    have hv := mem_triples_iff.mp hv'
    rw [h] at hv
    exact (Option.some.inj hv).symm
  | none =>
    rw [get?_setAll_of_not_mem, get?_empty]
    intro v hv
    rw [mem_triples_iff, h] at hv
    simp at hv

/-! ## Tables of certain entries -/

/-- All entries are in `F`. -/
def Within (F : σ → κ → υ → Prop) (t : Table σ κ υ) : Prop :=
  ∀ s k v, t.get? s k = some v → F s k v

section Within

variable {F : σ → κ → υ → Prop} {t : Table σ κ υ}

omit [LawfulEqOrd σ] [LawfulEqOrd κ] in
theorem within_empty (F : σ → κ → υ → Prop) : (∅ : Table σ κ υ).Within F := by
  intro s k v h
  simp at h

theorem Within.set (h : t.Within F) {s : σ} {k : κ} {v : υ} (hv : F s k v) :
    (t.set s k v).Within F := by
  intro s' k' v' hget
  by_cases hsame : s = s' ∧ k = k'
  · obtain ⟨rfl, rfl⟩ := hsame
    rw [get?_set_self] at hget
    exact Option.some.inj hget ▸ hv
  · rw [get?_set_of_ne hsame] at hget
    exact h s' k' v' hget

theorem Within.setAll {l : List (σ × κ × υ)} : ∀ {t : Table σ κ υ}, t.Within F →
    (∀ e ∈ l, F e.1 e.2.1 e.2.2) → (t.setAll l).Within F := by
  induction l with
  | nil => intro t h _; exact h
  | cons e l ih =>
    intro t h hl
    rw [setAll_cons]
    exact ih (h.set (hl e List.mem_cons_self)) fun e' he' => hl e' (List.mem_cons_of_mem e he')

/-- The first entries of a table are entries of the table. -/
theorem Within.take (h : t.Within F) (n : Nat) :
    ((∅ : Table σ κ υ).setAll (t.triples.take n)).Within F :=
  (within_empty F).setAll fun _ he => h _ _ _ (mem_triples_iff.mp (List.mem_of_mem_take he))

end Within

end Lawful

end Table

end BafangEmulator.Foundation
