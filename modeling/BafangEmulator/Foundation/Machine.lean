/-
  Foundation/Machine.lean --- deterministic machines that answer events, and the
  rules for their runs.

  A machine takes an event in a state and either moves on, with an observation,
  or has no defined next step.  The rules below carry a fact about one step to
  every run of any length:

      run_invariant        what every step keeps holds at the end of the run
      run_observations     what every step shows, where an invariant holds, the run
                           shows throughout
      run_total            a run is defined when every step keeps what makes the
                           next one defined
      eachStep_iff_along   a run goes through, with something true of each step,
                           exactly when each step meets what it needs
      isSome_run_iff       a run is defined exactly when each of its steps is
      run_refinement       a machine whose steps are those of an abstract machine
                           runs as that one does
      run_simulation       steps that act on an abstract state as a function of
                           the observation does act so over runs
      run_fold             the same, where an invariant holds, for a function of the
                           event and the observation
      run_unwinding        two runs that agree on the visible events agree on
                           what is observed at them, when some relation survives
                           the hidden steps of either side and the visible steps
                           of both
      run_filter           events that are not visible can be deleted, when some
                           relation survives them
      isSome_run_filter_iff
                           and what events that are not visible need for the run to be
                           defined with them
      run_stuttering       a machine some of whose steps are steps of another one,
                           and whose other steps leave that one alone, runs as it
                           does
-/
import Mathlib

set_option autoImplicit false

namespace BafangEmulator.Foundation

/-- A machine: the next state and the observation, or no defined next step. -/
structure Machine (σ ε ω : Type) where
  /-- One step. -/
  step : σ → ε → Option (σ × ω)

namespace Machine

variable {σ ε ω τ : Type} (M : Machine σ ε ω)

/-- Take a list of events, collecting the observations. -/
def run : σ → List ε → Option (σ × List ω)
  | s, [] => some (s, [])
  | s, e :: es =>
    match M.step s e with
    | none => none
    | some (s', o) =>
      match run s' es with
      | none => none
      | some (s'', os) => some (s'', o :: os)

@[simp] theorem run_nil (s : σ) : M.run s [] = some (s, []) := rfl

variable {M}

/-- A run of one event and more is a step and a run. -/
theorem run_cons_eq_some_iff {s s' : σ} {e : ε} {es : List ε} {os : List ω} :
    M.run s (e :: es) = some (s', os) ↔
      ∃ s₁ o os', M.step s e = some (s₁, o) ∧ M.run s₁ es = some (s', os') ∧ os = o :: os' := by
  constructor
  · intro h
    unfold run at h
    split at h
    · simp at h
    · rename_i s₁ o hstep
      split at h
      · simp at h
      · rename_i s₂ os' hrun
        simp only [Option.some.injEq, Prod.mk.injEq] at h
        obtain ⟨rfl, rfl⟩ := h
        exact ⟨s₁, o, os', hstep, hrun, rfl⟩
  · rintro ⟨s₁, o, os', hstep, hrun, rfl⟩
    simp [run, hstep, hrun]

/-- A run that can be computed is there, and so is what can be computed of it. -/
theorem exists_run_of_map {s : σ} {es : List ε} {f : σ × List ω → τ} {x : τ}
    (h : (M.run s es).map f = some x) : ∃ s' os, M.run s es = some (s', os) ∧ f (s', os) = x := by
  obtain ⟨⟨s', os⟩, hrun, hx⟩ := Option.map_eq_some_iff.mp h
  exact ⟨s', os, hrun, hx⟩

theorem exists_run_of_isSome {s : σ} {es : List ε} (h : (M.run s es).isSome = true) :
    ∃ s' os, M.run s es = some (s', os) := by
  obtain ⟨⟨s', os⟩, hrun⟩ := Option.isSome_iff_exists.mp h
  exact ⟨s', os, hrun⟩

/-- Every event is observed. -/
theorem length_of_run {s s' : σ} {es : List ε} {os : List ω} (h : M.run s es = some (s', os)) :
    os.length = es.length := by
  induction es generalizing s os with
  | nil =>
    simp only [run_nil, Option.some.injEq, Prod.mk.injEq] at h
    rw [← h.2]
    rfl
  | cons e es ih =>
    obtain ⟨t, o, os', -, hrun, rfl⟩ := run_cons_eq_some_iff.mp h
    rw [List.length_cons, List.length_cons, ih hrun]

/-- A run of one event and more is defined when the step is and the rest is. -/
theorem isSome_run_cons_iff {s : σ} {e : ε} {es : List ε} :
    (M.run s (e :: es)).isSome = true ↔
      (M.step s e).isSome = true ∧ ∀ r ∈ M.step s e, (M.run r.1 es).isSome = true := by
  rw [run]
  cases M.step s e with
  | none => simp
  | some r => cases hrun : M.run r.1 es <;> simp [hrun]

/-- Runs of consecutive events compose. -/
theorem run_append {s s₁ s₂ : σ} {es fs : List ε} {os us : List ω}
    (h : M.run s es = some (s₁, os)) (h' : M.run s₁ fs = some (s₂, us)) :
    M.run s (es ++ fs) = some (s₂, os ++ us) := by
  induction es generalizing s os with
  | nil =>
    simp only [run_nil, Option.some.injEq, Prod.mk.injEq] at h
    obtain ⟨rfl, rfl⟩ := h
    exact h'
  | cons e es ih =>
    obtain ⟨t, o, os', hstep, hrun, rfl⟩ := run_cons_eq_some_iff.mp h
    exact run_cons_eq_some_iff.mpr ⟨t, o, os' ++ us, hstep, ih hrun, rfl⟩

/-- Every step taken is taken from a state, and at an event, that satisfy `P`. -/
def Along (M : Machine σ ε ω) (P : σ → ε → Prop) : σ → List ε → Prop
  | _, [] => True
  | s, e :: es => P s e ∧ ∀ s' o, M.step s e = some (s', o) → Along M P s' es

theorem along_cons_iff {P : σ → ε → Prop} {s : σ} {e : ε} {es : List ε} :
    M.Along P s (e :: es) ↔ P s e ∧ ∀ r ∈ M.step s e, M.Along P r.1 es :=
  and_congr_right fun _ => ⟨fun h r hr => h r.1 r.2 hr, fun h s' o hs' => h (s', o) hs'⟩

/-- What can be decided of every step can be decided along a run. -/
instance Along.decidable {P : σ → ε → Prop} [∀ s e, Decidable (P s e)] :
    ∀ (s : σ) (es : List ε), Decidable (M.Along P s es)
  | _, [] => .isTrue trivial
  | s, e :: es =>
    have : ∀ s', Decidable (M.Along P s' es) := fun s' => Along.decidable s' es
    decidable_of_iff (P s e ∧ ∀ r ∈ M.step s e, M.Along P r.1 es) along_cons_iff.symm

/-- The run goes through to its end, and every step of it satisfies `Q`. -/
def EachStep (M : Machine σ ε ω) (Q : σ → ε → σ → ω → Prop) : σ → List ε → Prop
  | _, [] => True
  | s, e :: es => ∃ s' o, M.step s e = some (s', o) ∧ Q s e s' o ∧ EachStep M Q s' es

/-- What holds of every event holds along every run. -/
theorem along_of_forall {P : ε → Prop} : ∀ {es : List ε} {s : σ}, (∀ e ∈ es, P e) →
    M.Along (fun _ e => P e) s es := by
  intro es
  induction es with
  | nil => intro s _; trivial
  | cons e es ih =>
    intro s h
    exact ⟨h e List.mem_cons_self,
      fun _ _ _ => ih fun e' he' => h e' (List.mem_cons_of_mem e he')⟩

/-- **The invariant rule.**  What every step of a run keeps holds at its end. -/
theorem run_invariant {Inv : σ → Prop} {P : σ → ε → Prop}
    (hstep : ∀ {s s' : σ} {e : ε} {o : ω}, Inv s → P s e → M.step s e = some (s', o) → Inv s') :
    ∀ {es : List ε} {s s' : σ} {os : List ω}, Inv s → M.Along P s es →
      M.run s es = some (s', os) → Inv s' := by
  intro es
  induction es with
  | nil =>
    intro s s' os hs _ hrun
    simp only [run_nil, Option.some.injEq, Prod.mk.injEq] at hrun
    rw [← hrun.1]
    exact hs
  | cons e es ih =>
    intro s s' os hs hP hrun
    obtain ⟨s₁, o, os', h₁, h₂, -⟩ := run_cons_eq_some_iff.mp hrun
    have hs₁ : Inv s₁ := hstep hs hP.1 h₁
    exact ih hs₁ (hP.2 s₁ o h₁) h₂

/-- **The observation rule.**  Where every step keeps `Inv` and shows a `Q`, a run shows
nothing else. -/
theorem run_observations (Inv : σ → Prop) {Q : ω → Prop}
    (hstep : ∀ {s s' : σ} {e : ε} {o : ω}, Inv s → M.step s e = some (s', o) → Inv s' ∧ Q o) :
    ∀ {es : List ε} {s s' : σ} {os : List ω}, Inv s → M.run s es = some (s', os) →
      ∀ o ∈ os, Q o := by
  intro es
  induction es with
  | nil =>
    intro s s' os _ hrun
    simp only [run_nil, Option.some.injEq, Prod.mk.injEq] at hrun
    rw [← hrun.2]
    simp
  | cons e es ih =>
    intro s s' os hs hrun
    obtain ⟨s₁, o, os', h₁, h₂, rfl⟩ := run_cons_eq_some_iff.mp hrun
    obtain ⟨hs₁, ho⟩ := hstep hs h₁
    exact List.forall_mem_cons.mpr ⟨ho, ih hs₁ h₂⟩

/-- **The totality rule.**  Where every step is defined and keeps `Inv`, so is and does
every run. -/
theorem run_total (Inv : σ → Prop)
    (hstep : ∀ {s : σ} (e : ε), Inv s → ∃ s' o, M.step s e = some (s', o) ∧ Inv s') :
    ∀ (es : List ε) {s : σ}, Inv s → ∃ s' os, M.run s es = some (s', os) ∧ Inv s' := by
  intro es
  induction es with
  | nil => intro s hs; exact ⟨s, [], rfl, hs⟩
  | cons e es ih =>
    intro s hs
    obtain ⟨s₁, o, h₁, hs₁⟩ := hstep e hs
    obtain ⟨s', os, h₂, hs'⟩ := ih hs₁
    exact ⟨s', o :: os, run_cons_eq_some_iff.mpr ⟨s₁, o, os, h₁, h₂, rfl⟩, hs'⟩

/-- **The progress rule.**  `Inv` relates the state to the events to come.  When
`P` is what a step needs to be defined and to satisfy `Q`, a run satisfies `Q` at
each step exactly when it meets `P` at each step. -/
theorem eachStep_iff_along {Inv : σ → List ε → Prop} {P : σ → ε → Prop}
    {Q : σ → ε → σ → ω → Prop}
    (hstep : ∀ {s : σ} {e : ε} {es : List ε}, Inv s (e :: es) → P s e →
      ∃ s' o, M.step s e = some (s', o) ∧ Q s e s' o ∧ Inv s' es)
    (hneeds : ∀ {s s' : σ} {e : ε} {es : List ε} {o : ω}, Inv s (e :: es) →
      M.step s e = some (s', o) → P s e) :
    ∀ {es : List ε} {s : σ}, Inv s es → (M.EachStep Q s es ↔ M.Along P s es) := by
  intro es
  induction es with
  | nil => intro s _; exact Iff.rfl
  | cons e es ih =>
    intro s hs
    constructor
    · rintro ⟨s₁, o₁, h₁, -, hrest⟩
      have hP : P s e := hneeds hs h₁
      obtain ⟨s', o', h', -, hInv⟩ := hstep hs hP
      rw [h₁, Option.some.injEq, Prod.mk.injEq] at h'
      obtain ⟨rfl, rfl⟩ := h'
      refine ⟨hP, fun s₂ o₂ h₂ => ?_⟩
      rw [h₁, Option.some.injEq, Prod.mk.injEq] at h₂
      obtain ⟨rfl, rfl⟩ := h₂
      exact (ih hInv).mp hrest
    · rintro ⟨hP, hrest⟩
      obtain ⟨s', o', h', hQ, hInv⟩ := hstep hs hP
      exact ⟨s', o', h', hQ, (ih hInv).mpr (hrest s' o' h')⟩

/-- **The definedness rule.**  Where `P` says which steps are defined, a run is defined
exactly when each of its steps meets `P`. -/
theorem isSome_run_iff {P : σ → ε → Prop}
    (hstep : ∀ s e, (M.step s e).isSome = true ↔ P s e) :
    ∀ {es : List ε} {s : σ}, (M.run s es).isSome = true ↔ M.Along P s es := by
  intro es
  induction es with
  | nil => intro s; exact iff_of_true rfl trivial
  | cons e es ih =>
    intro s
    rw [along_cons_iff, isSome_run_cons_iff, hstep]
    exact and_congr_right fun _ => forall₂_congr fun _ _ => ih

theorem along_and_iff {P Q : σ → ε → Prop} : ∀ {es : List ε} {s : σ},
    M.Along (fun s e => P s e ∧ Q s e) s es ↔ M.Along P s es ∧ M.Along Q s es := by
  intro es
  induction es with
  | nil => intro s; exact (and_self_iff (a := True)).symm
  | cons e es ih =>
    intro s
    simp only [along_cons_iff, ih]
    grind

/-- **The refinement rule.**  A machine each of whose steps is, seen through `abs`,
the step of another machine runs as that machine does. -/
theorem run_refinement {A : Machine τ ε ω} {P : σ → ε → Prop} {abs : σ → τ}
    (hstep : ∀ {s : σ} {e : ε}, P s e →
      (M.step s e).map (Prod.map abs id) = A.step (abs s) e) :
    ∀ {es : List ε} {s : σ}, M.Along P s es →
      (M.run s es).map (Prod.map abs id) = A.run (abs s) es := by
  intro es
  induction es with
  | nil => intro s _; rfl
  | cons e es ih =>
    intro s hP
    have hhead := hstep hP.1
    rw [run, run, ← hhead]
    cases hnext : M.step s e with
    | none => rfl
    | some next =>
      obtain ⟨s₁, o⟩ := next
      simp only [Option.map_some, Prod.map_apply, id_eq]
      rw [← ih (hP.2 s₁ o hnext)]
      cases M.run s₁ es <;> rfl

/-- **The simulation rule.**  A step that acts on an abstract state as `apply` does
acts so over runs. -/
theorem run_simulation (abs : σ → τ) {apply : τ → ω → τ}
    (hstep : ∀ {s s' : σ} {e : ε} {o : ω}, M.step s e = some (s', o) →
      abs s' = apply (abs s) o) :
    ∀ {es : List ε} {s s' : σ} {os : List ω}, M.run s es = some (s', os) →
      abs s' = os.foldl apply (abs s) := by
  intro es
  induction es with
  | nil =>
    intro s s' os hrun
    simp only [run_nil, Option.some.injEq, Prod.mk.injEq] at hrun
    obtain ⟨rfl, rfl⟩ := hrun
    rfl
  | cons e es ih =>
    intro s s' os hrun
    obtain ⟨s₁, o, os', h₁, h₂, rfl⟩ := run_cons_eq_some_iff.mp hrun
    rw [List.foldl_cons, ← hstep h₁]
    exact ih h₂

/-- **The fold rule.**  Where every step keeps `Inv`, and acts on an abstract state as
`apply` does with its event and its observation, a run acts as all of them in turn. -/
theorem run_fold (abs : σ → τ) (apply : τ → ε × ω → τ) {Inv : σ → Prop}
    (hstep : ∀ {s s' : σ} {e : ε} {o : ω}, Inv s → M.step s e = some (s', o) →
      Inv s' ∧ abs s' = apply (abs s) (e, o)) :
    ∀ {es : List ε} {s s' : σ} {os : List ω}, Inv s → M.run s es = some (s', os) →
      Inv s' ∧ abs s' = (es.zip os).foldl apply (abs s) := by
  intro es
  induction es with
  | nil =>
    intro s s' os hs hrun
    simp only [run_nil, Option.some.injEq, Prod.mk.injEq] at hrun
    obtain ⟨rfl, rfl⟩ := hrun
    exact ⟨hs, rfl⟩
  | cons e es ih =>
    intro s s' os hs hrun
    obtain ⟨s₁, o, os', h₁, h₂, rfl⟩ := run_cons_eq_some_iff.mp hrun
    obtain ⟨hs₁, habs⟩ := hstep hs h₁
    rw [List.zip_cons_cons, List.foldl_cons, ← habs]
    exact ih hs₁ h₂

/-- The conditions of the unwinding rule.  The events that `visible` selects are those
whose observations `shown` selects; `quiet` is what is known of the others. -/
structure Unwinding (M : Machine σ ε ω) (visible : ε → Bool) (shown : ω → Bool)
    (quiet : ω → Prop) (R : σ → σ → Prop) : Prop where
  /-- An observation is shown when its event is visible. -/
  shown_eq : ∀ {s s' : σ} {e : ε} {o : ω}, M.step s e = some (s', o) → shown o = visible e
  /-- A hidden step of the left run keeps the relation. -/
  left : ∀ {s s' t : σ} {e : ε} {o : ω}, R s t → visible e = false → quiet o →
    M.step s e = some (s', o) → R s' t
  /-- A hidden step of the right run keeps the relation. -/
  right : ∀ {s t t' : σ} {e : ε} {o : ω}, R s t → visible e = false → quiet o →
    M.step t e = some (t', o) → R s t'
  /-- A visible step of both keeps the relation and shows the same. -/
  both : ∀ {s s' t t' : σ} {e : ε} {o o' : ω}, R s t → visible e = true →
    M.step s e = some (s', o) → M.step t e = some (t', o') → R s' t' ∧ o = o'

/-- Nothing is shown by a run without visible events. -/
theorem shown_eq_nil {visible : ε → Bool} {shown : ω → Bool} {quiet : ω → Prop}
    {R : σ → σ → Prop} (U : Unwinding M visible shown quiet R) :
    ∀ {es : List ε} {s s' : σ} {os : List ω}, es.filter visible = [] →
      M.run s es = some (s', os) → os.filter shown = [] := by
  intro es
  induction es with
  | nil =>
    intro s s' os _ hrun
    simp only [run_nil, Option.some.injEq, Prod.mk.injEq] at hrun
    rw [← hrun.2, List.filter_nil]
  | cons e es ih =>
    intro s s' os hfilter hrun
    obtain ⟨s₁, o, os', h₁, h₂, rfl⟩ := run_cons_eq_some_iff.mp hrun
    have hhidden : visible e = false := by
      cases he : visible e with
      | false => rfl
      | true => rw [List.filter_cons_of_pos he] at hfilter; simp at hfilter
    rw [List.filter_cons_of_neg (by simp [hhidden])] at hfilter
    rw [List.filter_cons_of_neg (by rw [U.shown_eq h₁, hhidden]; simp)]
    exact ih hfilter h₂

/-- **The unwinding rule.**  Two runs from related states whose events become
equal once the hidden ones are deleted show the same. -/
theorem run_unwinding {visible : ε → Bool} {shown : ω → Bool} {quiet : ω → Prop}
    {R : σ → σ → Prop} (U : Unwinding M visible shown quiet R) :
    ∀ {es fs : List ε} {s s' t t' : σ} {os us : List ω}, R s t →
      es.filter visible = fs.filter visible →
      M.run s es = some (s', os) → M.run t fs = some (t', us) →
      (∀ o ∈ os, shown o = false → quiet o) → (∀ u ∈ us, shown u = false → quiet u) →
      os.filter shown = us.filter shown := by
  intro es
  induction es with
  | nil =>
    intro fs s s' t t' os us _ hfilter hrun hrun' _ _
    rw [shown_eq_nil U List.filter_nil hrun, shown_eq_nil U hfilter.symm hrun']
  | cons e es ih =>
    intro fs s s' t t' os us hR hfilter hrun hrun' hquiet hquiet'
    obtain ⟨s₁, o, os, h₁, h₂, rfl⟩ := run_cons_eq_some_iff.mp hrun
    have hshown : shown o = visible e := U.shown_eq h₁
    have hquiets : ∀ o' ∈ os, shown o' = false → quiet o' := fun o' ho' =>
      hquiet o' (List.mem_cons_of_mem o ho')
    cases he : visible e with
    | false =>
      have ho : shown o = false := by rw [hshown, he]
      have hR₁ : R s₁ t := U.left hR he (hquiet o List.mem_cons_self ho) h₁
      rw [List.filter_cons_of_neg (by simp [he])] at hfilter
      rw [List.filter_cons_of_neg (by simp [ho])]
      exact ih hR₁ hfilter h₂ hrun' hquiets hquiet'
    | true =>
      rw [List.filter_cons_of_pos he] at hfilter
      -- The right run may first take hidden events of its own.
      induction fs generalizing t us with
      | nil => simp at hfilter
      | cons f fs ihf =>
        obtain ⟨t₁, u, us, k₁, k₂, rfl⟩ := run_cons_eq_some_iff.mp hrun'
        have hquiets' : ∀ u' ∈ us, shown u' = false → quiet u' := fun u' hu' =>
          hquiet' u' (List.mem_cons_of_mem u hu')
        cases hf : visible f with
        | false =>
          have hu : shown u = false := by rw [U.shown_eq k₁, hf]
          have hR₁ : R s t₁ := U.right hR hf (hquiet' u List.mem_cons_self hu) k₁
          rw [List.filter_cons_of_neg (by simp [hf])] at hfilter
          rw [ihf hR₁ hfilter k₂ hquiets', List.filter_cons_of_neg (by simp [hu])]
        | true =>
          rw [List.filter_cons_of_pos hf, List.cons.injEq] at hfilter
          obtain ⟨rfl, hfilter⟩ := hfilter
          obtain ⟨hR₁, rfl⟩ := U.both hR he h₁ k₁
          rw [List.filter_cons, List.filter_cons, ih hR₁ hfilter h₂ k₂ hquiets hquiets']

/-- **The deletion rule.**  When some relation survives the hidden steps of a run, and its
visible steps are those of another run, the hidden events can be deleted. -/
theorem run_filter {visible : ε → Bool} {shown : ω → Bool} {R : σ → σ → Prop}
    (hidden : ∀ {s s' t : σ} {e : ε} {o : ω}, R s t → visible e = false →
      M.step s e = some (s', o) → R s' t ∧ shown o = false)
    (seen : ∀ {s s' t : σ} {e : ε} {o : ω}, R s t → visible e = true →
      M.step s e = some (s', o) → ∃ t', M.step t e = some (t', o) ∧ R s' t' ∧ shown o = true) :
    ∀ {es : List ε} {s s' t : σ} {os : List ω}, R s t → M.run s es = some (s', os) →
      ∃ t', M.run t (es.filter visible) = some (t', os.filter shown) ∧ R s' t' := by
  intro es
  induction es with
  | nil =>
    intro s s' t os hR hrun
    simp only [run_nil, Option.some.injEq, Prod.mk.injEq] at hrun
    obtain ⟨rfl, rfl⟩ := hrun
    exact ⟨t, rfl, hR⟩
  | cons e es ih =>
    intro s s' t os hR hrun
    obtain ⟨s₁, o, os', h₁, h₂, rfl⟩ := run_cons_eq_some_iff.mp hrun
    cases he : visible e with
    | false =>
      obtain ⟨hR₁, ho⟩ := hidden hR he h₁
      rw [List.filter_cons_of_neg (by simp [he]), List.filter_cons_of_neg (by simp [ho])]
      exact ih hR₁ h₂
    | true =>
      obtain ⟨t₁, k₁, hR₁, ho⟩ := seen hR he h₁
      obtain ⟨t', k₂, hR'⟩ := ih hR₁ h₂
      rw [List.filter_cons_of_pos he, List.filter_cons_of_pos ho]
      exact ⟨t', run_cons_eq_some_iff.mpr ⟨t₁, o, _, k₁, k₂, rfl⟩, hR'⟩

/-- **The insertion rule.**  Where hidden events are defined exactly when they meet `P`, a run
is defined exactly when the run of its visible events is and each hidden event meets `P`. -/
theorem isSome_run_filter_iff {visible : ε → Bool} {P : σ → ε → Prop} {R : σ → σ → Prop}
    (needs : ∀ {s t : σ} {e : ε}, R s t → visible e = false →
      ((M.step s e).isSome = true ↔ P s e))
    (hidden : ∀ {s s' t : σ} {e : ε} {o : ω}, R s t → visible e = false →
      M.step s e = some (s', o) → R s' t)
    (same : ∀ {s t : σ} {e : ε}, R s t → visible e = true →
      (M.step s e).isSome = (M.step t e).isSome)
    (seen : ∀ {s s' t : σ} {e : ε} {o : ω}, R s t → visible e = true →
      M.step s e = some (s', o) → ∃ t', M.step t e = some (t', o) ∧ R s' t') :
    ∀ {es : List ε} {s t : σ}, R s t → ((M.run s es).isSome = true ↔
      (M.run t (es.filter visible)).isSome = true ∧
        M.Along (fun s e => visible e = false → P s e) s es) := by
  intro es
  induction es with
  | nil => intro s t _; exact iff_of_true rfl ⟨rfl, trivial⟩
  | cons e es ih =>
    intro s t hR
    cases he : visible e with
    | false =>
      rw [List.filter_cons_of_neg (by simp [he]), along_cons_iff, isSome_run_cons_iff,
        needs hR he, forall_prop_of_true he, and_left_comm]
      refine and_congr_right fun hP => ?_
      obtain ⟨⟨s₁, o⟩, h₁⟩ := Option.isSome_iff_exists.mp ((needs hR he).mpr hP)
      simp only [h₁, Option.mem_def, Option.some.injEq, forall_eq']
      exact ih (hidden hR he h₁)
    | true =>
      rw [List.filter_cons_of_pos he, along_cons_iff, isSome_run_cons_iff, isSome_run_cons_iff,
        same hR he, and_assoc]
      refine and_congr_right fun hsome => ?_
      rw [← same hR he] at hsome
      obtain ⟨⟨s₁, o⟩, h₁⟩ := Option.isSome_iff_exists.mp hsome
      obtain ⟨t₁, k₁, hR₁⟩ := seen hR he h₁
      simp only [h₁, k₁, Option.mem_def, Option.some.injEq, forall_eq']
      simpa [he] using ih hR₁

/-- **The stuttering rule.**  A step that shows nothing leaves the abstract machine
alone; a step that shows an event and an observation is its step at that event. -/
theorem run_stuttering {α β : Type} {C : Machine σ ε (Option (α × ω))} {A : Machine β α ω}
    {R : σ → β → Prop}
    (hidden : ∀ {s s' : σ} {e : ε} {t : β}, R s t → C.step s e = some (s', none) → R s' t)
    (shown : ∀ {s s' : σ} {e : ε} {t : β} {a : α} {o : ω}, R s t →
      C.step s e = some (s', some (a, o)) → ∃ t', A.step t a = some (t', o) ∧ R s' t') :
    ∀ {es : List ε} {s s' : σ} {os : List (Option (α × ω))} {t : β}, R s t →
      C.run s es = some (s', os) →
      ∃ t', A.run t (os.reduceOption.map Prod.fst) = some (t', os.reduceOption.map Prod.snd) ∧
        R s' t' := by
  intro es
  induction es with
  | nil =>
    intro s s' os t hR hrun
    simp only [run_nil, Option.some.injEq, Prod.mk.injEq] at hrun
    obtain ⟨rfl, rfl⟩ := hrun
    exact ⟨t, rfl, hR⟩
  | cons e es ih =>
    intro s s' os t hR hrun
    obtain ⟨s₁, o, os', h₁, h₂, rfl⟩ := run_cons_eq_some_iff.mp hrun
    cases o with
    | none =>
      rw [List.reduceOption_cons_of_none]
      exact ih (hidden hR h₁) h₂
    | some ao =>
      obtain ⟨a, o⟩ := ao
      obtain ⟨t₁, k₁, hR₁⟩ := shown hR h₁
      obtain ⟨t', k₂, hR'⟩ := ih hR₁ h₂
      rw [List.reduceOption_cons_of_some, List.map_cons, List.map_cons]
      exact ⟨t', run_cons_eq_some_iff.mpr ⟨t₁, o, _, k₁, k₂, rfl⟩, hR'⟩

end Machine

end BafangEmulator.Foundation
