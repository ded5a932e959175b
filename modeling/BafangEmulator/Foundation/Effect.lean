/-
  Foundation/Effect.lean --- imperative code with exceptions and undefined
  behaviour.

  A piece of code runs from a state and comes to one of three outcomes: it
  returns a value, it throws a fault, or its behaviour is undefined.  A throw
  keeps the state reached so far: what was assigned before it stays assigned.
  After undefined behaviour there is no state to speak of, and no handler gets
  hold of it.
-/
import Mathlib

set_option autoImplicit false

namespace BafangEmulator.Foundation

/-- What running a piece of code comes to. -/
inductive Outcome (ε σ α : Type) where
  /-- It returned `value`. -/
  | returned (value : α) (state : σ)
  /-- It threw `fault`; the state is the one at the throw. -/
  | threw (fault : ε) (state : σ)
  /-- Its behaviour is undefined. -/
  | undefined
  deriving DecidableEq, Repr

namespace Outcome

variable {ε σ α : Type}

/-- The value returned, if any was. -/
def value? : Outcome ε σ α → Option α
  | returned a _ => some a
  | threw _ _ => none
  | undefined => none

/-- The state left behind, by a return or by a throw. -/
def state? : Outcome ε σ α → Option σ
  | returned _ s => some s
  | threw _ s => some s
  | undefined => none

@[simp] theorem value?_returned (a : α) (s : σ) :
    (returned a s : Outcome ε σ α).value? = some a := rfl

@[simp] theorem value?_threw (e : ε) (s : σ) :
    (threw e s : Outcome ε σ α).value? = none := rfl

@[simp] theorem value?_undefined : (undefined : Outcome ε σ α).value? = none := rfl

@[simp] theorem state?_returned (a : α) (s : σ) :
    (returned a s : Outcome ε σ α).state? = some s := rfl

@[simp] theorem state?_threw (e : ε) (s : σ) :
    (threw e s : Outcome ε σ α).state? = some s := rfl

@[simp] theorem state?_undefined : (undefined : Outcome ε σ α).state? = none := rfl

end Outcome

/-- Code over the state `σ` that may throw an `ε`. -/
def Exec (ε σ α : Type) : Type := σ → Outcome ε σ α

namespace Exec

variable {ε σ τ α β : Type}

/-- Run `m`, then `f` on its value. -/
protected def bind (m : Exec ε σ α) (f : α → Exec ε σ β) : Exec ε σ β := fun s =>
  match m s with
  | .returned a s' => f a s'
  | .threw e s' => .threw e s'
  | .undefined => .undefined

instance : Monad (Exec ε σ) where
  pure a := fun s => .returned a s
  bind := Exec.bind

/-- The current state. -/
def get : Exec ε σ σ := fun s => .returned s s

/-- Change the state. -/
def modify (f : σ → σ) : Exec ε σ Unit := fun s => .returned () (f s)

/-- Throw a fault. -/
def throw (e : ε) : Exec ε σ α := fun s => .threw e s

/-- Code that only computes a value or a fault. -/
def ofExcept : Except ε α → Exec ε σ α
  | .ok a => fun s => .returned a s
  | .error e => fun s => .threw e s

/-- A value that is there unless the behaviour is undefined. -/
def ofOption : Option α → Exec ε σ α
  | some a => fun s => .returned a s
  | none => fun _ => .undefined

/-- Swallow every fault. -/
def catchAll (m : Exec ε σ Unit) : Exec ε σ Unit := fun s =>
  match m s with
  | .threw _ s' => .returned () s'
  | .returned a s' => .returned a s'
  | .undefined => .undefined

/-- Run code on a part of the state. -/
def zoom (view : σ → τ) (put : τ → σ → σ) (m : Exec ε τ α) : Exec ε σ α := fun s =>
  match m (view s) with
  | .returned a t => .returned a (put t s)
  | .threw e t => .threw e (put t s)
  | .undefined => .undefined

/-! ## Running -/

@[simp] theorem pure_run (a : α) (s : σ) : (pure a : Exec ε σ α) s = .returned a s := rfl

@[simp] theorem get_run (s : σ) : (get : Exec ε σ σ) s = .returned s s := rfl

@[simp] theorem modify_run (f : σ → σ) (s : σ) :
    (modify f : Exec ε σ Unit) s = .returned () (f s) := rfl

@[simp] theorem throw_run (e : ε) (s : σ) : (throw e : Exec ε σ α) s = .threw e s := rfl

@[simp] theorem ofExcept_ok_run (a : α) (s : σ) :
    (ofExcept (.ok a) : Exec ε σ α) s = .returned a s := rfl

@[simp] theorem ofExcept_error_run (e : ε) (s : σ) :
    (ofExcept (.error e) : Exec ε σ α) s = .threw e s := rfl

@[simp] theorem ofOption_some_run (a : α) (s : σ) :
    (ofOption (some a) : Exec ε σ α) s = .returned a s := rfl

@[simp] theorem ofOption_none_run (s : σ) :
    (ofOption none : Exec ε σ α) s = .undefined := rfl

theorem bind_run (m : Exec ε σ α) (f : α → Exec ε σ β) (s : σ) :
    (m >>= f) s = match m s with
      | .returned a s' => f a s'
      | .threw e s' => .threw e s'
      | .undefined => .undefined := rfl

/-- A step that returns hands its value and state on. -/
theorem bind_of_returned {m : Exec ε σ α} {f : α → Exec ε σ β} {s s' : σ} {a : α}
    (h : m s = .returned a s') : (m >>= f) s = f a s' := by
  rw [bind_run, h]

/-- A throw ends the code where it happens. -/
theorem bind_of_threw {m : Exec ε σ α} {f : α → Exec ε σ β} {s s' : σ} {e : ε}
    (h : m s = .threw e s') : (m >>= f) s = .threw e s' := by
  rw [bind_run, h]

theorem bind_of_undefined {m : Exec ε σ α} {f : α → Exec ε σ β} {s : σ}
    (h : m s = .undefined) : (m >>= f) s = .undefined := by
  rw [bind_run, h]

theorem catchAll_run (m : Exec ε σ Unit) (s : σ) :
    catchAll m s = match m s with
      | .threw _ s' => .returned () s'
      | .returned a s' => .returned a s'
      | .undefined => .undefined := rfl

/-- A handler around two steps takes effect in the second when the first returns. -/
theorem catchAll_bind_of_returned {m : Exec ε σ α} {f : α → Exec ε σ Unit} {s s' : σ} {a : α}
    (h : m s = .returned a s') : catchAll (m >>= f) s = catchAll (f a) s' := by
  rw [catchAll_run, bind_of_returned h, catchAll_run]

/-- A handler swallows the throw of the first of two steps. -/
theorem catchAll_bind_of_threw {m : Exec ε σ α} {f : α → Exec ε σ Unit} {s s' : σ} {e : ε}
    (h : m s = .threw e s') : catchAll (m >>= f) s = .returned () s' := by
  rw [catchAll_run, bind_of_threw h]

/-- No handler takes effect after undefined behaviour. -/
theorem catchAll_bind_of_undefined {m : Exec ε σ α} {f : α → Exec ε σ Unit} {s : σ}
    (h : m s = .undefined) : catchAll (m >>= f) s = .undefined := by
  rw [catchAll_run, bind_of_undefined h]

theorem zoom_run (view : σ → τ) (put : τ → σ → σ) (m : Exec ε τ α) (s : σ) :
    zoom view put m s = match m (view s) with
      | .returned a t => .returned a (put t s)
      | .threw e t => .threw e (put t s)
      | .undefined => .undefined := rfl

theorem zoom_of_returned {view : σ → τ} {put : τ → σ → σ} {m : Exec ε τ α} {s : σ} {a : α}
    {t : τ} (h : m (view s) = .returned a t) : zoom view put m s = .returned a (put t s) := by
  rw [zoom_run, h]

theorem zoom_of_threw {view : σ → τ} {put : τ → σ → σ} {m : Exec ε τ α} {s : σ} {e : ε}
    {t : τ} (h : m (view s) = .threw e t) : zoom view put m s = .threw e (put t s) := by
  rw [zoom_run, h]

theorem zoom_of_undefined {view : σ → τ} {put : τ → σ → σ} {m : Exec ε τ α} {s : σ}
    (h : m (view s) = .undefined) : zoom view put m s = .undefined := by
  rw [zoom_run, h]

end Exec

end BafangEmulator.Foundation
