/-
  Foundation/AppendLog.lean --- threads that append records to logs under one lock.

  There are logs `κ` of elements `α`.  What a thread does with the lock held is a script:
  pieces that it appends, one at a time, each to one of the logs.  The pieces that one
  script appends to a log are its record there.

      logs_of_run       at any moment of any interleaving, a log is what it was, then the
                        records of the threads that are through, whole and in the order
                        of their locks, then what the thread inside has appended so far
-/
import BafangEmulator.Foundation.CriticalSection

set_option autoImplicit false

namespace BafangEmulator.Foundation.AppendLog

variable {κ α ι β ξ ε ω : Type} [DecidableEq κ]

/-- Append the pieces of a script, one step each. -/
def writes : List (κ × List α) → Code ξ ((κ → List α) × β) Unit
  | [] => .ret ()
  | w :: ws => .step (fun s => (Function.update s.1 w.1 (s.1 w.1 ++ w.2), s.2)) fun _ => writes ws

/-- What a script appends to a log. -/
def record (ws : List (κ × List α)) (k : κ) : List α := (ws.filter (·.1 = k)).flatMap Prod.snd

@[simp] theorem record_nil (k : κ) : record ([] : List (κ × List α)) k = [] := rfl

theorem record_cons (w : κ × List α) (ws : List (κ × List α)) (k : κ) :
    record (w :: ws) k = (if w.1 = k then w.2 else []) ++ record ws k := by
  by_cases h : w.1 = k <;> simp [record, h]

theorem record_append (ws ws' : List (κ × List α)) (k : κ) :
    record (ws ++ ws') k = record ws k ++ record ws' k := by
  simp [record]

/-- The beginning of a script appends the beginning of its record. -/
theorem record_take_isPrefix (ws : List (κ × List α)) (n : Nat) (k : κ) :
    record (ws.take n) k <+: record ws k := by
  refine ⟨record (ws.drop n) k, ?_⟩
  rw [← record_append, List.take_append_drop]

/-- One piece. -/
theorem update_append (logs : κ → List α) (w : κ × List α) (ws : List (κ × List α)) (k : κ) :
    Function.update logs w.1 (logs w.1 ++ w.2) k ++ record ws k =
      logs k ++ record (w :: ws) k := by
  rw [record_cons]
  rcases eq_or_ne k w.1 with rfl | hne
  · rw [Function.update_self, if_pos rfl, List.append_assoc]
  · rw [Function.update_of_ne hne, if_neg hne.symm, List.nil_append]

/-- **A script appends its records.** -/
theorem writes_run : ∀ (ws : List (κ × List α)) (s : (κ → List α) × β),
    (writes ws : Code ξ ((κ → List α) × β) Unit).run s =
      .returned () (fun k => s.1 k ++ record ws k, s.2) := by
  intro ws
  induction ws with
  | nil =>
    intro s
    simp only [writes, Code.run_ret, record_nil, List.append_nil]
  | cons w ws ih =>
    intro s
    rw [writes, Code.run_step, ih]
    simp only [update_append]

/-- Scripts in sequence. -/
theorem writes_append (ws ws' : List (κ × List α)) :
    (writes (ws ++ ws') : Code ξ ((κ → List α) × β) Unit) = (do writes ws; writes ws') := by
  induction ws with
  | nil => rfl
  | cons w ws ih =>
    rw [List.cons_append, writes, ih]
    rfl

/-- The logs after the first pieces of a script. -/
def Begun (ws : List (κ × List α)) (logs logs' : κ → List α) : Prop :=
  ∃ n, ∀ k, logs' k = logs k ++ record (ws.take n) k

/-- Between the steps of a script, the first pieces have been appended. -/
theorem writes_always : ∀ (ws : List (κ × List α)) (s : (κ → List α) × β),
    (writes ws : Code ξ ((κ → List α) × β) Unit).Always (fun t => Begun ws s.1 t.1) s := by
  intro ws
  induction ws with
  | nil =>
    intro s
    exact ⟨0, fun k => by simp⟩
  | cons w ws ih =>
    intro s
    refine ⟨⟨0, fun k => by simp⟩, (ih _).mono fun t ht => ?_⟩
    obtain ⟨n, hn⟩ := ht
    refine ⟨n + 1, fun k => ?_⟩
    rw [hn k, List.take_succ_cons]
    exact update_append s.1 w (ws.take n) k

/-! ## The threads -/

variable [DecidableEq ι] {T : Threads ι (κ → List α) β ξ ε ω} {script : ε → List (κ × List α)}

/-- One event as one step appends its records. -/
theorem atomic_step (hbody : ∀ e, T.body e = writes (script e)) {a a' : (κ → List α) × (ι → β)}
    {e : ε} {w : ω} (h : T.atomic.step a e = some (a', w)) :
    a'.1 = fun k => a.1 k ++ record (script e) k := by
  simp only [Threads.atomic, hbody, writes_run, Outcome.state?_returned, Option.map_some,
    Option.some.injEq, Prod.mk.injEq] at h
  obtain ⟨rfl, -⟩ := h
  rfl

theorem atomic_run (hbody : ∀ e, T.body e = writes (script e)) (k : κ) :
    ∀ {es : List ε} {a a' : (κ → List α) × (ι → β)} {ws : List ω},
      T.atomic.run a es = some (a', ws) →
        a'.1 k = a.1 k ++ es.flatMap fun e => record (script e) k := by
  intro es
  induction es with
  | nil =>
    intro a a' ws h
    simp only [Machine.run_nil, Option.some.injEq, Prod.mk.injEq] at h
    rw [← h.1, List.flatMap_nil, List.append_nil]
  | cons e es ih =>
    intro a a' ws h
    obtain ⟨a₁, w, ws', hstep, hrest, -⟩ := Machine.run_cons_eq_some_iff.mp h
    rw [ih hrest, atomic_step hbody hstep, List.flatMap_cons, List.append_assoc]

/-- **Records stay whole.**  At any moment of any interleaving, a log is what it was before,
then the records of the events that are through, in the order of their locks; after which
there is nothing more while the lock is free, and what the first pieces of the event inside
come to while it is not. -/
theorem logs_of_run (hbody : ∀ e, T.body e = writes (script e)) {a : (κ → List α) × (ι → β)}
    {schedule : List (Threads.Action ι ε)} {c : Threads.Config ι (κ → List α) β ξ ε}
    {os : List (Option (ε × ω))}
    (hrun : T.interleaved.run (Threads.start a) schedule = some (c, os)) :
    ∃ part : κ → List α,
      (∀ k, c.shared k = a.1 k ++
        (os.reduceOption.flatMap fun x => record (script x.1) k) ++ part k) ∧
      (c.holder = none → ∀ k, part k = []) ∧
      ∀ i, c.holder = some i → ∃ e entry rest, c.phase i = .inside e entry rest ∧
        ∃ n, ∀ k, part k = record ((script e).take n) k := by
  obtain ⟨a', hatomic, hrep, -, hmoment⟩ := Threads.run_always (a := a) (I := fun _ => True)
    (P := fun e entry t => Begun (script e) entry.1 t.1) (fun _ _ => trivial)
    (fun {a} _ e => hbody e ▸ writes_always (script e) (T.entry a e)) trivial hrun
  have hthrough : ∀ k, a'.1 k = a.1 k ++
      os.reduceOption.flatMap fun x => record (script x.1) k := by
    intro k
    rw [atomic_run hbody k hatomic, List.flatMap_map]
  cases hholder : c.holder with
  | none =>
    refine ⟨fun _ => [], fun k => ?_, fun _ _ => rfl, fun i hi => by simp at hi⟩
    rw [hrep.shared_eq hholder, hthrough, List.append_nil]
  | some i =>
    have hinside := (hrep.inside_iff i).mpr hholder
    have hagrees := hrep.agrees i
    cases hphase : c.phase i with
    | outside => simp [hphase, Threads.Phase.isInside] at hinside
    | waiting e => simp [hphase, Threads.Phase.isInside] at hinside
    | inside e entry rest =>
      rw [hphase] at hagrees
      obtain ⟨-, rfl, -⟩ := hagrees
      obtain ⟨n, hn⟩ := hmoment i e _ rest hphase
      refine ⟨fun k => record ((script e).take n) k, fun k => ?_, fun h => by simp at h, ?_⟩
      · have hpart : c.shared k = a'.1 k ++ record ((script e).take n) k := hn k
        rw [hpart, hthrough]
      · intro j hj
        obtain rfl : i = j := Option.some.inj hj
        exact ⟨e, _, rest, hphase, n, fun _ => rfl⟩

end BafangEmulator.Foundation.AppendLog
