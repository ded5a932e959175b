/-
  Foundation/CriticalSection.lean --- threads that share a state under one lock.

  Each thread has a state of its own.  It takes an event in its own state without
  the lock, waits for the lock, runs the code of the event step by step on its own
  and the shared state, and releases the lock.  The steps of the threads interleave
  in any order.

      interleaved       the machine of all interleavings, one action at a time
      atomic            the machine that runs each event as one step
      run_atomic        every interleaving is, event by event in the order of the
                        locks, a run of the atomic machine
      run_interleaved   every run of the atomic machine is an interleaving
      history_iff       both machines show the same histories
      run_always        what the code of the events keeps to it keeps to at every
                        moment of every interleaving

  That the lock keeps the threads apart is not assumed: it is part of the relation
  between the two machines that every action keeps.
-/
import BafangEmulator.Foundation.Code
import BafangEmulator.Foundation.Machine

set_option autoImplicit false

namespace BafangEmulator.Foundation

/-- What the threads `ι` do with events: `γ` is the shared state and `κ` the own state
of a thread. -/
structure Threads (ι γ κ ξ ε ω : Type) where
  /-- The thread that takes the event. -/
  thread : ε → ι
  /-- What the thread does before it asks for the lock. -/
  arrive : ε → κ → κ
  /-- What it does with the lock held. -/
  body : ε → Code ξ (γ × κ) Unit
  /-- What there is to see, by the states at both ends of the body. -/
  observe : ε → γ × κ → γ × κ → ω

namespace Threads

/-- Where a thread is. -/
inductive Phase (γ κ ξ ε : Type) where
  /-- It has no event. -/
  | outside
  /-- It wants the lock. -/
  | waiting (e : ε)
  /-- It has taken the lock in the state `entry` and has `rest` left to do. -/
  | inside (e : ε) (entry : γ × κ) (rest : Code ξ (γ × κ) Unit)

/-- The state of the lock and of all threads. -/
structure Config (ι γ κ ξ ε : Type) where
  shared : γ
  own : ι → κ
  phase : ι → Phase γ κ ξ ε
  /-- The thread that has the lock. -/
  holder : Option ι

/-- What the scheduler lets happen next. -/
inductive Action (ι ε : Type) where
  /-- A thread takes an event. -/
  | arrive (e : ε)
  /-- A thread takes the lock. -/
  | lock (i : ι)
  /-- A thread takes a step of its code. -/
  | act (i : ι)
  /-- A thread releases the lock. -/
  | unlock (i : ι)

variable {ι γ κ ξ ε ω : Type} [DecidableEq ι] (T : Threads ι γ κ ξ ε ω)

/-- Every thread is outside. -/
def start (a : γ × (ι → κ)) : Config ι γ κ ξ ε where
  shared := a.1
  own := a.2
  phase _ := .outside
  holder := none

/-- The thread has done what it has to do with the lock held, by a return or a throw. -/
def finished : Code ξ (γ × κ) Unit → Bool
  | .ret _ => true
  | .throw _ => true
  | .undefined => false
  | .step _ _ => false

/-- One action of the threads. -/
def interleaved : Machine (Config ι γ κ ξ ε) (Action ι ε) (Option (ε × ω)) where
  step c
    | .arrive e =>
      match c.phase (T.thread e) with
      | .outside => some ({ c with
          own := Function.update c.own (T.thread e) (T.arrive e (c.own (T.thread e)))
          phase := Function.update c.phase (T.thread e) (.waiting e) }, none)
      | .waiting _ => none
      | .inside _ _ _ => none
    | .lock i =>
      match c.phase i with
      | .outside => none
      | .waiting e =>
        if c.holder = none then some ({ c with
          phase := Function.update c.phase i (.inside e (c.shared, c.own i) (T.body e))
          holder := some i }, none)
        else none
      | .inside _ _ _ => none
    | .act i =>
      match c.phase i with
      | .outside => none
      | .waiting _ => none
      | .inside e entry (.step next rest) => some ({ c with
          shared := (next (c.shared, c.own i)).1
          own := Function.update c.own i (next (c.shared, c.own i)).2
          phase := Function.update c.phase i (.inside e entry (rest (c.shared, c.own i))) }, none)
      | .inside _ _ _ => none
    | .unlock i =>
      match c.phase i with
      | .outside => none
      | .waiting _ => none
      | .inside e entry rest =>
        if finished rest then some ({ c with
          phase := Function.update c.phase i .outside
          holder := none }, some (e, T.observe e entry (c.shared, c.own i)))
        else none

/-- The states of a thread at both ends of an event: the lock is taken in the first. -/
def entry (a : γ × (ι → κ)) (e : ε) : γ × κ := (a.1, T.arrive e (a.2 (T.thread e)))

/-- The shared state and the own states after a thread has left `t` behind. -/
def leave (a : γ × (ι → κ)) (i : ι) (t : γ × κ) : γ × (ι → κ) :=
  (t.1, Function.update a.2 i t.2)

/-- One event as one step. -/
def atomic : Machine (γ × (ι → κ)) ε ω where
  step a e := ((T.body e).run (T.entry a e)).state?.map fun t =>
    (leave a (T.thread e) t, T.observe e (T.entry a e) t)

/-! ## What an action can do -/

variable {T}

/-- A thread takes an event from outside. -/
theorem arrive_cases {c c' : Config ι γ κ ξ ε} {e : ε} {o : Option (ε × ω)}
    (h : T.interleaved.step c (.arrive e) = some (c', o)) :
    c.phase (T.thread e) = .outside ∧ o = none ∧ c' = { c with
      own := Function.update c.own (T.thread e) (T.arrive e (c.own (T.thread e)))
      phase := Function.update c.phase (T.thread e) (.waiting e) } := by
  simp only [interleaved] at h
  cases hphase : c.phase (T.thread e) with
  | outside =>
    simp only [hphase, Option.some.injEq, Prod.mk.injEq] at h
    exact ⟨rfl, h.2.symm, h.1.symm⟩
  | waiting e' => simp [hphase] at h
  | inside e' entry rest => simp [hphase] at h

/-- A waiting thread takes the free lock. -/
theorem lock_cases {c c' : Config ι γ κ ξ ε} {i : ι} {o : Option (ε × ω)}
    (h : T.interleaved.step c (.lock i) = some (c', o)) :
    ∃ e, c.phase i = .waiting e ∧ c.holder = none ∧ o = none ∧ c' = { c with
      phase := Function.update c.phase i (.inside e (c.shared, c.own i) (T.body e))
      holder := some i } := by
  simp only [interleaved] at h
  cases hphase : c.phase i with
  | outside => simp [hphase] at h
  | waiting e =>
    simp only [hphase] at h
    split at h
    · rename_i hfree
      simp only [Option.some.injEq, Prod.mk.injEq] at h
      exact ⟨e, rfl, hfree, h.2.symm, h.1.symm⟩
    · simp at h
  | inside e entry rest => simp [hphase] at h

/-- A thread inside takes a step of its code. -/
theorem act_cases {c c' : Config ι γ κ ξ ε} {i : ι} {o : Option (ε × ω)}
    (h : T.interleaved.step c (.act i) = some (c', o)) :
    ∃ e entry next rest, c.phase i = .inside e entry (.step next rest) ∧ o = none ∧ c' = { c with
      shared := (next (c.shared, c.own i)).1
      own := Function.update c.own i (next (c.shared, c.own i)).2
      phase := Function.update c.phase i (.inside e entry (rest (c.shared, c.own i))) } := by
  simp only [interleaved] at h
  cases hphase : c.phase i with
  | outside => simp [hphase] at h
  | waiting e => simp [hphase] at h
  | inside e entry code =>
    cases code with
    | ret a => simp [hphase] at h
    | throw x => simp [hphase] at h
    | undefined => simp [hphase] at h
    | step next rest =>
      simp only [hphase, Option.some.injEq, Prod.mk.injEq] at h
      exact ⟨e, entry, next, rest, rfl, h.2.symm, h.1.symm⟩

/-- A thread whose code has ended releases the lock and shows its event. -/
theorem unlock_cases {c c' : Config ι γ κ ξ ε} {i : ι} {o : Option (ε × ω)}
    (h : T.interleaved.step c (.unlock i) = some (c', o)) :
    ∃ e entry rest, c.phase i = .inside e entry rest ∧ finished rest = true ∧
      o = some (e, T.observe e entry (c.shared, c.own i)) ∧ c' = { c with
        phase := Function.update c.phase i .outside
        holder := none } := by
  simp only [interleaved] at h
  cases hphase : c.phase i with
  | outside => simp [hphase] at h
  | waiting e => simp [hphase] at h
  | inside e entry rest =>
    simp only [hphase] at h
    split at h
    · rename_i hfinished
      simp only [Option.some.injEq, Prod.mk.injEq] at h
      exact ⟨e, entry, rest, rfl, hfinished, h.2.symm, h.1.symm⟩
    · simp at h

/-! ## Interleavings as runs of the atomic machine -/

/-- A thread is inside its code. -/
def Phase.isInside : Phase γ κ ξ ε → Bool
  | .outside => false
  | .waiting _ => false
  | .inside _ _ _ => true

/-- What the own state of a thread is, against the atomic machine that has not taken the
event of the thread yet. -/
def Agrees (T : Threads ι γ κ ξ ε ω) (c : Config ι γ κ ξ ε) (a : γ × (ι → κ)) (i : ι) :
    Phase γ κ ξ ε → Prop
  | .outside => c.own i = a.2 i
  | .waiting e => T.thread e = i ∧ c.own i = T.arrive e (a.2 i)
  | .inside e entry rest => T.thread e = i ∧ entry = T.entry a e ∧
      rest.run (c.shared, c.own i) = (T.body e).run entry

/-- **The relation between the two machines.**  The thread inside is the one that has the
lock, while the lock is free the shared states are equal, and each thread agrees. -/
structure Represents (T : Threads ι γ κ ξ ε ω) (c : Config ι γ κ ξ ε) (a : γ × (ι → κ)) :
    Prop where
  inside_iff : ∀ i, (c.phase i).isInside = true ↔ c.holder = some i
  shared_eq : c.holder = none → c.shared = a.1
  agrees : ∀ i, Agrees T c a i (c.phase i)

omit [DecidableEq ι] in
/-- Before anything happens the machines agree. -/
theorem represents_start (a : γ × (ι → κ)) : Represents T (start a) a where
  inside_iff i := by simp [start, Phase.isInside]
  shared_eq _ := rfl
  agrees _ := rfl

omit [DecidableEq ι] in
/-- Only one thread is inside. -/
theorem Represents.eq_of_inside {c : Config ι γ κ ξ ε} {a : γ × (ι → κ)}
    (h : Represents T c a) {i j : ι} (hi : (c.phase i).isInside = true)
    (hj : (c.phase j).isInside = true) : i = j := by
  rw [h.inside_iff] at hi hj
  exact Option.some.inj (hi.symm.trans hj)

omit [DecidableEq ι] in
/-- A thread that is not inside agrees whatever the shared state is. -/
theorem Agrees.congr {c c' : Config ι γ κ ξ ε} {a a' : γ × (ι → κ)} {i : ι}
    {p : Phase γ κ ξ ε} (hout : p.isInside = false) (hown : c'.own i = c.own i)
    (ha : a'.2 i = a.2 i) (h : Agrees T c a i p) : Agrees T c' a' i p := by
  cases p with
  | outside => exact hown.trans (h.trans ha.symm)
  | waiting e =>
    refine ⟨h.1, ?_⟩
    rw [hown, ha]
    exact h.2
  | inside e entry rest => simp [Phase.isInside] at hout

theorem represents_arrive {c c' : Config ι γ κ ξ ε} {a : γ × (ι → κ)} {e : ε}
    {o : Option (ε × ω)} (h : Represents T c a)
    (hstep : T.interleaved.step c (.arrive e) = some (c', o)) : Represents T c' a := by
  obtain ⟨hphase, -, rfl⟩ := arrive_cases hstep
  refine ⟨fun i => ?_, h.shared_eq, fun i => ?_⟩
  · rw [← h.inside_iff]
    rcases eq_or_ne i (T.thread e) with rfl | hne
    · simp [hphase, Phase.isInside]
    · simp [Function.update_of_ne hne]
  · rcases eq_or_ne i (T.thread e) with rfl | hne
    · have hagrees := h.agrees (T.thread e)
      rw [hphase] at hagrees
      simp only [Function.update_self]
      refine ⟨rfl, ?_⟩
      simp only [Function.update_self]
      exact congrArg (T.arrive e) hagrees
    · have hagrees := h.agrees i
      simp only [Function.update_of_ne hne]
      cases hp : c.phase i with
      | outside =>
        rw [hp] at hagrees
        exact Agrees.congr rfl (Function.update_of_ne hne _ _) rfl hagrees
      | waiting e' =>
        rw [hp] at hagrees
        exact Agrees.congr rfl (Function.update_of_ne hne _ _) rfl hagrees
      | inside e' entry rest =>
        rw [hp] at hagrees
        simp only [Agrees, Function.update_of_ne hne]
        exact hagrees

theorem represents_lock {c c' : Config ι γ κ ξ ε} {a : γ × (ι → κ)} {i : ι}
    {o : Option (ε × ω)} (h : Represents T c a)
    (hstep : T.interleaved.step c (.lock i) = some (c', o)) : Represents T c' a := by
  obtain ⟨e, hphase, hfree, -, rfl⟩ := lock_cases hstep
  have hshared := h.shared_eq hfree
  have hout : ∀ j, (c.phase j).isInside = false := by
    intro j
    rw [← Bool.not_eq_true, h.inside_iff, hfree]
    simp
  refine ⟨fun j => ?_, fun hnone => by simp at hnone, fun j => ?_⟩
  · rcases eq_or_ne j i with rfl | hne
    · simp [Phase.isInside]
    · simp [Function.update_of_ne hne, hout j, hne.symm]
  · rcases eq_or_ne j i with rfl | hne
    · have hagrees := h.agrees j
      rw [hphase] at hagrees
      simp only [Function.update_self]
      refine ⟨hagrees.1, ?_, rfl⟩
      rw [entry, hagrees.1, hshared, hagrees.2]
    · simp only [Function.update_of_ne hne]
      exact Agrees.congr (hout j) rfl rfl (h.agrees j)

theorem represents_act {c c' : Config ι γ κ ξ ε} {a : γ × (ι → κ)} {i : ι}
    {o : Option (ε × ω)} (h : Represents T c a)
    (hstep : T.interleaved.step c (.act i) = some (c', o)) : Represents T c' a := by
  obtain ⟨e, entry, next, rest, hphase, -, rfl⟩ := act_cases hstep
  have hinside : (c.phase i).isInside = true := by rw [hphase]; rfl
  have hholder := (h.inside_iff i).mp hinside
  refine ⟨fun j => ?_, fun hnone => ?_, fun j => ?_⟩
  · rw [← h.inside_iff]
    rcases eq_or_ne j i with rfl | hne
    · simp [hphase, Phase.isInside]
    · simp [Function.update_of_ne hne]
  · rw [hholder] at hnone
    simp at hnone
  · rcases eq_or_ne j i with rfl | hne
    · have hagrees := h.agrees j
      rw [hphase] at hagrees
      simp only [Function.update_self]
      refine ⟨hagrees.1, hagrees.2.1, ?_⟩
      simp only [Function.update_self]
      exact hagrees.2.2
    · -- No other thread is inside, so none reads what the step has changed.
      have hout : (c.phase j).isInside = false := by
        rw [← Bool.not_eq_true]
        exact fun hj => hne (h.eq_of_inside hj hinside)
      simp only [Function.update_of_ne hne]
      exact Agrees.congr hout (Function.update_of_ne hne _ _) rfl (h.agrees j)

/-- The states in which code has ended. -/
theorem state?_of_finished {rest : Code ξ (γ × κ) Unit} (h : finished rest = true)
    (s : γ × κ) : (rest.run s).state? = some s := by
  cases rest with
  | ret a => rfl
  | throw x => rfl
  | undefined => simp [finished] at h
  | step next rest => simp [finished] at h

/-- **A release is a step of the atomic machine.** -/
theorem represents_unlock {c c' : Config ι γ κ ξ ε} {a : γ × (ι → κ)} {i : ι} {e : ε} {w : ω}
    (h : Represents T c a)
    (hstep : T.interleaved.step c (.unlock i) = some (c', some (e, w))) :
    ∃ a', T.atomic.step a e = some (a', w) ∧ Represents T c' a' ∧ c'.holder = none := by
  obtain ⟨e', entry, rest, hphase, hfinished, ho, rfl⟩ := unlock_cases hstep
  obtain ⟨rfl, rfl⟩ := Prod.mk.inj (Option.some.inj ho)
  have hinside : (c.phase i).isInside = true := by rw [hphase]; rfl
  have hagrees := h.agrees i
  rw [hphase] at hagrees
  obtain ⟨rfl, rfl, hrun⟩ := hagrees
  have hstate : ((T.body e).run (T.entry a e)).state? =
      some (c.shared, c.own (T.thread e)) := by
    rw [← hrun]
    exact state?_of_finished hfinished _
  refine ⟨leave a (T.thread e) (c.shared, c.own (T.thread e)), ?_,
    ⟨fun j => ?_, fun _ => rfl, fun j => ?_⟩, rfl⟩
  · simp only [atomic, hstate, Option.map_some]
  · rcases eq_or_ne j (T.thread e) with rfl | hne
    · simp [Phase.isInside]
    · have hout : (c.phase j).isInside = false := by
        rw [← Bool.not_eq_true]
        exact fun hj => hne (h.eq_of_inside hj hinside)
      simp [Function.update_of_ne hne, hout]
  · rcases eq_or_ne j (T.thread e) with rfl | hne
    · simp only [Function.update_self]
      exact (Function.update_self (T.thread e) _ a.2).symm
    · have hout : (c.phase j).isInside = false := by
        rw [← Bool.not_eq_true]
        exact fun hj => hne (h.eq_of_inside hj hinside)
      simp only [Function.update_of_ne hne]
      exact Agrees.congr hout rfl (Function.update_of_ne hne _ _) (h.agrees j)

/-- An action that shows nothing leaves the atomic machine alone. -/
theorem represents_hidden {c c' : Config ι γ κ ξ ε} {a : γ × (ι → κ)} {action : Action ι ε}
    (h : Represents T c a) (hstep : T.interleaved.step c action = some (c', none)) :
    Represents T c' a := by
  cases action with
  | arrive e => exact represents_arrive h hstep
  | lock i => exact represents_lock h hstep
  | act i => exact represents_act h hstep
  | unlock i =>
    obtain ⟨e, entry, rest, -, -, ho, -⟩ := unlock_cases hstep
    simp at ho

/-- An action that shows an event is its release. -/
theorem represents_shown {c c' : Config ι γ κ ξ ε} {a : γ × (ι → κ)} {action : Action ι ε}
    {e : ε} {w : ω} (h : Represents T c a)
    (hstep : T.interleaved.step c action = some (c', some (e, w))) :
    ∃ a', T.atomic.step a e = some (a', w) ∧ Represents T c' a' ∧ c'.holder = none := by
  cases action with
  | arrive e' => simpa using (arrive_cases hstep).2.1
  | lock i =>
    obtain ⟨e', -, -, ho, -⟩ := lock_cases hstep
    simp at ho
  | act i =>
    obtain ⟨e', entry, next, rest, -, ho, -⟩ := act_cases hstep
    simp at ho
  | unlock i => exact represents_unlock h hstep

/-- **Every interleaving is a run of the atomic machine**: the events in the order of
their releases, with the same observations. -/
theorem run_atomic {c c' : Config ι γ κ ξ ε} {a : γ × (ι → κ)} {schedule : List (Action ι ε)}
    {os : List (Option (ε × ω))} (h : Represents T c a)
    (hrun : T.interleaved.run c schedule = some (c', os)) :
    ∃ a', T.atomic.run a (os.reduceOption.map Prod.fst) =
      some (a', os.reduceOption.map Prod.snd) ∧ Represents T c' a' := by
  refine Machine.run_stuttering ?_ ?_ h hrun
  · intro c c' action a h hstep
    exact represents_hidden h hstep
  · intro c c' action a e w h hstep
    obtain ⟨a', hatomic, hrep, -⟩ := represents_shown h hstep
    exact ⟨a', hatomic, hrep⟩

/-! ## At every moment -/

/-- The code of every thread that is inside always keeps to `P`. -/
def Safe (P : ε → γ × κ → γ × κ → Prop) (c : Config ι γ κ ξ ε) : Prop :=
  ∀ i e entry rest, c.phase i = .inside e entry rest →
    rest.Always (P e entry) (c.shared, c.own i)

omit [DecidableEq ι] in
/-- When the lock is free no thread is inside. -/
theorem Represents.safe_of_free {c : Config ι γ κ ξ ε} {a : γ × (ι → κ)}
    (h : Represents T c a) (hfree : c.holder = none) (P : ε → γ × κ → γ × κ → Prop) :
    Safe P c := by
  intro i e entry rest hphase
  have hinside := (h.inside_iff i).mp (by rw [hphase]; rfl)
  rw [hfree] at hinside
  simp at hinside

omit [DecidableEq ι] in
/-- Where one thread is inside, it is enough to look at that one. -/
theorem Represents.safe_of_inside {c : Config ι γ κ ξ ε} {a : γ × (ι → κ)}
    (h : Represents T c a) {P : ε → γ × κ → γ × κ → Prop} {i : ι} {e : ε} {entry : γ × κ}
    {rest : Code ξ (γ × κ) Unit} (hphase : c.phase i = .inside e entry rest)
    (hrest : rest.Always (P e entry) (c.shared, c.own i)) : Safe P c := by
  intro j e' entry' rest' hphase'
  obtain rfl : j = i := h.eq_of_inside (by rw [hphase']; rfl) (by rw [hphase]; rfl)
  rw [hphase] at hphase'
  simp only [Phase.inside.injEq] at hphase'
  obtain ⟨rfl, rfl, rfl⟩ := hphase'
  exact hrest

/-- An action other than a release keeps the threads inside safe. -/
theorem safe_of_hidden {P : ε → γ × κ → γ × κ → Prop} {c c' : Config ι γ κ ξ ε}
    {a : γ × (ι → κ)} {action : Action ι ε}
    (hbody : ∀ e, (T.body e).Always (P e (T.entry a e)) (T.entry a e)) (h : Represents T c a)
    (hsafe : Safe P c) (hstep : T.interleaved.step c action = some (c', none)) : Safe P c' := by
  cases action with
  | arrive e =>
    obtain ⟨hphase, -, rfl⟩ := arrive_cases hstep
    intro i e' entry rest hi
    rcases eq_or_ne i (T.thread e) with rfl | hne
    · simp at hi
    · simp only [Function.update_of_ne hne] at hi ⊢
      exact hsafe i e' entry rest hi
  | lock i =>
    have h' := represents_lock h hstep
    obtain ⟨e, hphase, hfree, -, rfl⟩ := lock_cases hstep
    have hin : Function.update c.phase i (.inside e (c.shared, c.own i) (T.body e)) i =
        .inside e (c.shared, c.own i) (T.body e) := Function.update_self _ _ _
    have hagrees := h'.agrees i
    simp only [hin] at hagrees
    refine h'.safe_of_inside hin ?_
    rw [hagrees.2.1]
    exact hbody e
  | act i =>
    have h' := represents_act h hstep
    obtain ⟨e, entry, next, rest, hphase, -, rfl⟩ := act_cases hstep
    refine h'.safe_of_inside (Function.update_self _ _ _) ?_
    simp only [Function.update_self]
    exact (hsafe i e entry _ hphase).2
  | unlock i =>
    obtain ⟨e, entry, rest, -, -, ho, -⟩ := unlock_cases hstep
    simp at ho

/-- **The rule for every moment.**  Where `I` is kept by the atomic machine, and the code of
an event that is taken in a state with `I` always keeps to `P`, every thread that is found
inside keeps to `P` at that moment. -/
theorem run_always {I : γ × (ι → κ) → Prop} {P : ε → γ × κ → γ × κ → Prop}
    (hI : ∀ {a a' : γ × (ι → κ)} {e : ε} {w : ω}, I a → T.atomic.step a e = some (a', w) → I a')
    (hbody : ∀ {a : γ × (ι → κ)}, I a → ∀ e,
      (T.body e).Always (P e (T.entry a e)) (T.entry a e))
    {a : γ × (ι → κ)} (ha : I a) {schedule : List (Action ι ε)} {c : Config ι γ κ ξ ε}
    {os : List (Option (ε × ω))} (hrun : T.interleaved.run (start a) schedule = some (c, os)) :
    ∃ a', T.atomic.run a (os.reduceOption.map Prod.fst) =
        some (a', os.reduceOption.map Prod.snd) ∧ Represents T c a' ∧ I a' ∧
      ∀ i e entry rest, c.phase i = .inside e entry rest → P e entry (c.shared, c.own i) := by
  have hstart : Represents T (start a : Config ι γ κ ξ ε) a := represents_start a
  have hhidden : ∀ {c c' : Config ι γ κ ξ ε} {action : Action ι ε} {a : γ × (ι → κ)},
      (Represents T c a ∧ I a ∧ Safe P c) → T.interleaved.step c action = some (c', none) →
        Represents T c' a ∧ I a ∧ Safe P c' := by
    rintro c c' action a ⟨hrep, ha, hsafe⟩ hstep
    exact ⟨represents_hidden hrep hstep, ha, safe_of_hidden (hbody ha) hrep hsafe hstep⟩
  have hshown : ∀ {c c' : Config ι γ κ ξ ε} {action : Action ι ε} {a : γ × (ι → κ)} {e : ε}
      {w : ω}, (Represents T c a ∧ I a ∧ Safe P c) →
      T.interleaved.step c action = some (c', some (e, w)) →
        ∃ a', T.atomic.step a e = some (a', w) ∧ Represents T c' a' ∧ I a' ∧ Safe P c' := by
    rintro c c' action a e w ⟨hrep, ha, -⟩ hstep
    obtain ⟨a', hatomic, hrep', hfree⟩ := represents_shown hrep hstep
    exact ⟨a', hatomic, hrep', hI ha hatomic, hrep'.safe_of_free hfree P⟩
  obtain ⟨a', hatomic, hrep, ha', hsafe⟩ :=
    Machine.run_stuttering (R := fun c a => Represents T c a ∧ I a ∧ Safe P c) hhidden hshown
      ⟨hstart, ha, hstart.safe_of_free rfl P⟩ hrun
  exact ⟨a', hatomic, hrep, ha', fun i e entry rest hphase => (hsafe i e entry rest hphase).now⟩

/-! ## Runs of the atomic machine as interleavings -/

/-- The lock is held by the one thread that is inside. -/
def busy (a : γ × (ι → κ)) (e : ε) (entry : γ × κ) (rest : Code ξ (γ × κ) Unit) (i : ι)
    (s : γ × κ) : Config ι γ κ ξ ε where
  shared := s.1
  own := Function.update a.2 i s.2
  phase := Function.update (fun _ => .outside) i (.inside e entry rest)
  holder := some i

/-- A thread left alone gets to the end of its code. -/
theorem exists_acts (a : γ × (ι → κ)) (e : ε) (entry : γ × κ) (i : ι) :
    ∀ (rest : Code ξ (γ × κ) Unit) {s t : γ × κ}, (rest.run s).state? = some t →
      ∃ n os rest', T.interleaved.run (busy a e entry rest i s) (List.replicate n (.act i)) =
        some (busy a e entry rest' i t, os) ∧ finished rest' = true ∧ os.reduceOption = [] := by
  intro rest
  induction rest with
  | ret x =>
    intro s t h
    obtain rfl := Option.some.inj h
    exact ⟨0, [], .ret x, rfl, rfl, rfl⟩
  | throw x =>
    intro s t h
    obtain rfl := Option.some.inj h
    exact ⟨0, [], .throw x, rfl, rfl, rfl⟩
  | undefined =>
    intro s t h
    simp at h
  | step next rest ih =>
    intro s t h
    obtain ⟨n, os, rest', hrun, hfinished, hnil⟩ := ih s h
    have hstep : T.interleaved.step (busy a e entry (.step next rest) i s) (.act i) =
        some (busy a e entry (rest s) i (next s), none) := by
      simp [interleaved, busy]
    exact ⟨n + 1, none :: os, rest', Machine.run_cons_eq_some_iff.mpr
      ⟨_, none, os, hstep, hrun, rfl⟩, hfinished, by rw [List.reduceOption_cons_of_none, hnil]⟩

/-- **A step of the atomic machine is an interleaving** of actions of one thread. -/
theorem exists_schedule_of_step {a a' : γ × (ι → κ)} {e : ε} {w : ω}
    (h : T.atomic.step a e = some (a', w)) :
    ∃ schedule os, T.interleaved.run (start a) schedule = some (start a', os) ∧
      os.reduceOption = [(e, w)] := by
  obtain ⟨t, ht, hresult⟩ := Option.map_eq_some_iff.mp h
  obtain ⟨rfl, rfl⟩ := Prod.mk.inj hresult
  have harrive : T.interleaved.run (start a) [.arrive e, .lock (T.thread e)] =
      some (busy a e (T.entry a e) (T.body e) (T.thread e) (T.entry a e), [none, none]) := by
    simp [Machine.run, interleaved, start, busy, entry, Function.update_idem]
  obtain ⟨n, os, rest', hacts, hfinished, hnil⟩ :=
    exists_acts (T := T) a e (T.entry a e) (T.thread e) (T.body e) ht
  have hunlock : T.interleaved.run (busy a e (T.entry a e) rest' (T.thread e) t)
      [.unlock (T.thread e)] =
      some (start (leave a (T.thread e) t), [some (e, T.observe e (T.entry a e) t)]) := by
    simp [Machine.run, interleaved, start, busy, leave, hfinished, Function.update_idem]
  refine ⟨_, _, Machine.run_append (Machine.run_append harrive hacts) hunlock, ?_⟩
  rw [List.reduceOption_append, List.reduceOption_append, hnil]
  rfl

/-- **Every run of the atomic machine is an interleaving.** -/
theorem run_interleaved {es : List ε} {a a' : γ × (ι → κ)} {ws : List ω}
    (h : T.atomic.run a es = some (a', ws)) :
    ∃ schedule os, T.interleaved.run (start a) schedule = some (start a', os) ∧
      os.reduceOption.map Prod.fst = es ∧ os.reduceOption.map Prod.snd = ws := by
  induction es generalizing a ws with
  | nil =>
    simp only [Machine.run_nil, Option.some.injEq, Prod.mk.injEq] at h
    obtain ⟨rfl, rfl⟩ := h
    exact ⟨[], [], rfl, rfl, rfl⟩
  | cons e es ih =>
    obtain ⟨a₁, w, ws', hstep, hrest, rfl⟩ := Machine.run_cons_eq_some_iff.mp h
    obtain ⟨schedule, os, hrun, hshown⟩ := exists_schedule_of_step hstep
    obtain ⟨schedule', os', hrun', hevents, hseen⟩ := ih hrest
    refine ⟨_, _, Machine.run_append hrun hrun', ?_, ?_⟩
    · rw [List.reduceOption_append, hshown, List.map_append, hevents]
      rfl
    · rw [List.reduceOption_append, hshown, List.map_append, hseen]
      rfl

/-! ## Histories and progress -/

/-- **Both machines show the same histories** between states in which no thread has an
event. -/
theorem history_iff (a a' : γ × (ι → κ)) (history : List (ε × ω)) :
    (∃ schedule os, T.interleaved.run (start a) schedule = some (start a', os) ∧
      os.reduceOption = history) ↔
    T.atomic.run a (history.map Prod.fst) = some (a', history.map Prod.snd) := by
  constructor
  · rintro ⟨schedule, os, hrun, rfl⟩
    obtain ⟨a'', hatomic, hrep⟩ := run_atomic (represents_start a) hrun
    have ha : a' = a'' := Prod.ext (hrep.shared_eq rfl) (funext hrep.agrees)
    rw [ha]
    exact hatomic
  · intro h
    obtain ⟨schedule, os, hrun, hevents, hseen⟩ := run_interleaved h
    refine ⟨schedule, os, hrun, ?_⟩
    rw [← List.zip_unzip os.reduceOption, ← List.zip_unzip history, List.unzip_eq_map,
      List.unzip_eq_map, hevents, hseen]

/-- The thread has come to undefined behaviour. -/
def Phase.IsUndefined : Phase γ κ ξ ε → Prop
  | .outside => False
  | .waiting _ => False
  | .inside _ _ rest => rest = .undefined

/-- **No deadlock.**  Where a thread has an event, some thread with an event can go on, or
one has come to undefined behaviour. -/
theorem Represents.progress {c : Config ι γ κ ξ ε} {a : γ × (ι → κ)} (h : Represents T c a)
    {i : ι} (hi : c.phase i ≠ .outside) :
    ∃ j, (c.phase j).IsUndefined ∨
      ∃ action ∈ [.lock j, .act j, .unlock j], (T.interleaved.step c action).isSome = true := by
  cases hholder : c.holder with
  | none =>
    cases hp : c.phase i with
    | outside => exact absurd hp hi
    | waiting e => exact ⟨i, Or.inr ⟨.lock i, by simp, by simp [interleaved, hp, hholder]⟩⟩
    | inside e entry rest =>
      have hinside := (h.inside_iff i).mp (by rw [hp]; rfl)
      rw [hholder] at hinside
      simp at hinside
  | some j =>
    have hinside := (h.inside_iff j).mpr hholder
    cases hp : c.phase j with
    | outside => simp [hp, Phase.isInside] at hinside
    | waiting e => simp [hp, Phase.isInside] at hinside
    | inside e entry rest =>
      cases rest with
      | ret x => exact ⟨j, Or.inr ⟨.unlock j, by simp, by simp [interleaved, hp, finished]⟩⟩
      | throw x => exact ⟨j, Or.inr ⟨.unlock j, by simp, by simp [interleaved, hp, finished]⟩⟩
      | undefined => exact ⟨j, Or.inl (by rw [hp]; rfl)⟩
      | step next rest => exact ⟨j, Or.inr ⟨.act j, by simp, by simp [interleaved, hp]⟩⟩

end Threads

end BafangEmulator.Foundation
