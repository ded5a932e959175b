/-
  Foundation/Code.lean --- imperative code, step by step.

  `Exec` says what a piece of code comes to; `Code` says which steps it takes on the
  way, so that other code can run between them.  A step changes the state, and what
  it read of the state decides how the code goes on.

  `Code.run` takes the steps without interruption, and the lemmas below say that it
  turns every construct into the one of `Exec`.  `Code.Always` is what holds before,
  between and after the steps.
-/
import BafangEmulator.Foundation.Effect

set_option autoImplicit false

namespace BafangEmulator.Foundation

/-- Code over the state `σ` that may throw an `ε`, by its steps. -/
inductive Code (ε σ α : Type) : Type where
  /-- It returns. -/
  | ret (a : α)
  /-- It throws. -/
  | throw (e : ε)
  /-- Its behaviour is undefined. -/
  | undefined
  /-- One step: the new state, and the rest of the code by the state found. -/
  | step (next : σ → σ) (rest : σ → Code ε σ α)

namespace Code

variable {ε σ τ α β : Type}

/-- Run `c`, then `f` on its value. -/
protected def bind (c : Code ε σ α) (f : α → Code ε σ β) : Code ε σ β :=
  match c with
  | ret a => f a
  | throw e => .throw e
  | undefined => .undefined
  | step next rest => .step next fun s => (rest s).bind f

instance : Monad (Code ε σ) where
  pure := ret
  bind := Code.bind

/-- Code that is one step. -/
def lift (m : Exec ε σ α) : Code ε σ α :=
  step (fun s => (m s).state?.getD s) fun s =>
    match m s with
    | .returned a _ => ret a
    | .threw e _ => throw e
    | .undefined => undefined

/-- Swallow every fault. -/
def catchAll : Code ε σ Unit → Code ε σ Unit
  | ret a => ret a
  | throw _ => ret ()
  | undefined => undefined
  | step next rest => step next fun s => catchAll (rest s)

/-- Run code on a part of the state. -/
def zoom (view : σ → τ) (put : τ → σ → σ) : Code ε τ α → Code ε σ α
  | ret a => ret a
  | throw e => throw e
  | undefined => undefined
  | step next rest => step (fun s => put (next (view s)) s) fun s => zoom view put (rest (view s))

/-- Code for each element of a list, in order. -/
def forEach (f : β → Code ε σ Unit) : List β → Code ε σ Unit
  | [] => pure ()
  | x :: xs => do
    f x
    forEach f xs

/-! ## Running without interruption -/

/-- All the steps, one after the other. -/
def run : Code ε σ α → Exec ε σ α
  | ret a => fun s => .returned a s
  | throw e => fun s => .threw e s
  | undefined => fun _ => .undefined
  | step next rest => fun s => (rest s).run (next s)

@[simp] theorem run_ret (a : α) (s : σ) : (ret a : Code ε σ α).run s = .returned a s := rfl

@[simp] theorem run_throw (e : ε) (s : σ) : (throw e : Code ε σ α).run s = .threw e s := rfl

@[simp] theorem run_undefined (s : σ) : (undefined : Code ε σ α).run s = .undefined := rfl

@[simp] theorem run_step (next : σ → σ) (rest : σ → Code ε σ α) (s : σ) :
    (step next rest).run s = (rest s).run (next s) := rfl

theorem run_pure (a : α) : (pure a : Code ε σ α).run = pure a := rfl

/-- One step runs as the code it was made from. -/
theorem run_lift (m : Exec ε σ α) : (lift m).run = m := by
  funext s
  rw [lift, run_step]
  cases h : m s <;> simp

/-- Code in sequence runs in sequence. -/
theorem run_bind (c : Code ε σ α) (f : α → Code ε σ β) :
    (c >>= f).run = c.run >>= fun a => (f a).run := by
  funext s
  induction c generalizing s with
  | ret a => rfl
  | throw e => rfl
  | undefined => rfl
  | step next rest ih => exact ih s (next s)

theorem run_catchAll (c : Code ε σ Unit) : c.catchAll.run = Exec.catchAll c.run := by
  funext s
  induction c generalizing s with
  | ret a => rfl
  | throw e => rfl
  | undefined => rfl
  | step next rest ih => exact ih s (next s)

/-- The part of the state that `view` reads is the part that `put` replaces. -/
structure Lens (view : σ → τ) (put : τ → σ → σ) : Prop where
  view_put : ∀ t s, view (put t s) = t
  put_view : ∀ s, put (view s) s = s
  put_put : ∀ t t' s, put t (put t' s) = put t s

/-- Code on a part of the state runs there. -/
theorem run_zoom {view : σ → τ} {put : τ → σ → σ} (hlens : Lens view put) (c : Code ε τ α) :
    (c.zoom view put).run = Exec.zoom view put c.run := by
  funext s
  induction c generalizing s with
  | ret a => rw [zoom, run_ret, Exec.zoom_of_returned (run_ret a (view s)), hlens.put_view]
  | throw e => rw [zoom, run_throw, Exec.zoom_of_threw (run_throw e (view s)), hlens.put_view]
  | undefined => rfl
  | step next rest ih =>
    rw [zoom, run_step, ih (view s), Exec.zoom_run, Exec.zoom_run, run_step, hlens.view_put]
    cases (rest (view s)).run (next (view s)) with
    | returned a t => simp only [hlens.put_put]
    | threw e t => simp only [hlens.put_put]
    | undefined => rfl

/-! ## Between the steps -/

/-- `P` holds now and after every step. -/
def Always (P : σ → Prop) : Code ε σ α → σ → Prop
  | ret _, s => P s
  | throw _, s => P s
  | undefined, s => P s
  | step next rest, s => P s ∧ Always P (rest s) (next s)

theorem Always.now {P : σ → Prop} {c : Code ε σ α} {s : σ} (h : c.Always P s) : P s := by
  cases c with
  | ret a => exact h
  | throw e => exact h
  | undefined => exact h
  | step next rest => exact h.1

/-- What always holds holds at the end. -/
theorem Always.state {P : σ → Prop} {c : Code ε σ α} {s s' : σ} (h : c.Always P s)
    (hrun : (c.run s).state? = some s') : P s' := by
  induction c generalizing s with
  | ret a => exact Option.some.inj hrun ▸ h
  | throw e => exact Option.some.inj hrun ▸ h
  | undefined => simp at hrun
  | step next rest ih => exact ih s h.2 hrun

theorem Always.mono {P Q : σ → Prop} (hPQ : ∀ s, P s → Q s) {c : Code ε σ α} {s : σ}
    (h : c.Always P s) : c.Always Q s := by
  induction c generalizing s with
  | ret a => exact hPQ s h
  | throw e => exact hPQ s h
  | undefined => exact hPQ s h
  | step next rest ih => exact ⟨hPQ s h.1, ih s h.2⟩

/-- **The sequence rule.** -/
theorem Always.bind {P : σ → Prop} {c : Code ε σ α} {f : α → Code ε σ β} {s : σ}
    (hc : c.Always P s) (hf : ∀ a s', c.run s = .returned a s' → (f a).Always P s') :
    (c >>= f).Always P s := by
  induction c generalizing s with
  | ret a => exact hf a s rfl
  | throw e => exact hc
  | undefined => exact hc
  | step next rest ih => exact ⟨hc.1, ih s hc.2 hf⟩

theorem Always.catchAll {P : σ → Prop} {c : Code ε σ Unit} {s : σ} (h : c.Always P s) :
    c.catchAll.Always P s := by
  induction c generalizing s with
  | ret a => exact h
  | throw e => exact h
  | undefined => exact h
  | step next rest ih => exact ⟨h.1, ih s h.2⟩

/-- What always holds of a part of the state gives what always holds of the whole. -/
theorem Always.zoom {view : σ → τ} {put : τ → σ → σ} (hlens : Lens view put) {P : τ → Prop}
    {Q : σ → Prop} {c : Code ε τ α} {s : σ} (h : c.Always P (view s))
    (hPQ : ∀ t, P t → Q (put t s)) : (c.zoom view put).Always Q s := by
  induction c generalizing s with
  | ret a => exact hlens.put_view s ▸ hPQ _ h
  | throw e => exact hlens.put_view s ▸ hPQ _ h
  | undefined => exact hlens.put_view s ▸ hPQ _ h
  | step next rest ih =>
    refine ⟨hlens.put_view s ▸ hPQ _ h.1, ih (view s) ?_ fun t ht => ?_⟩
    · rw [hlens.view_put]
      exact h.2
    · rw [hlens.put_put]
      exact hPQ t ht

/-- No step of the code breaks `P`. -/
def Keeps (P : σ → Prop) (c : Code ε σ α) : Prop := ∀ s, P s → c.Always P s

/-- Code that breaks nothing can go on after any code. -/
theorem Always.bind_keeps {P : σ → Prop} {c : Code ε σ α} {f : α → Code ε σ β} {s : σ}
    (hc : c.Always P s) (hf : ∀ a, Keeps P (f a)) : (c >>= f).Always P s :=
  hc.bind fun a s' hrun => hf a s' (hc.state (by rw [hrun]; rfl))

theorem Keeps.bind {P : σ → Prop} {c : Code ε σ α} {f : α → Code ε σ β} (hc : Keeps P c)
    (hf : ∀ a, Keeps P (f a)) : Keeps P (c >>= f) := fun s hs => (hc s hs).bind_keeps hf

end Code

end BafangEmulator.Foundation
