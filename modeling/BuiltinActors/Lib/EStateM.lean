import Mathlib.Logic.Basic

/-! # Computations with state and errors

Rewriting lemmas for `EStateM`, the monad of methods that write their state
in place: a computation applied to a state returns its result or its error,
each with the state as the writes so far have left it. With these as simp
lemmas a method written in `do` notation runs by `simp` on a symbolic state,
one statement at a time. -/

namespace EStateM

variable {ε σ α β : Type}

@[simp] theorem bind_apply (x : EStateM ε σ α) (f : α → EStateM ε σ β) (s : σ) :
    (x >>= f) s = match x s with
      | .ok a s => f a s
      | .error e s => .error e s := rfl

@[simp] theorem map_apply (f : α → β) (x : EStateM ε σ α) (s : σ) :
    (f <$> x) s = match x s with
      | .ok a s => .ok (f a) s
      | .error e s => .error e s := rfl

@[simp] theorem get_apply (s : σ) : (get : EStateM ε σ σ) s = .ok s s := rfl

@[simp] theorem set_apply (s' s : σ) : (set s' : EStateM ε σ PUnit) s = .ok ⟨⟩ s' := rfl

@[simp] theorem modify_apply (g : σ → σ) (s : σ) :
    (modify g : EStateM ε σ PUnit) s = .ok ⟨⟩ (g s) := rfl

@[simp] theorem throw_apply (e : ε) (s : σ) : (throw e : EStateM ε σ α) s = .error e s := rfl

@[simp] theorem pure_apply (a : α) (s : σ) : (pure a : EStateM ε σ α) s = .ok a s := rfl

/-- A branch of the method applied to a state: `EStateM` is not unfolded to a
function type, so the general `ite_apply` does not fire on it. -/
@[simp] theorem ite_apply (c : Prop) [Decidable c] (x y : EStateM ε σ α) (s : σ) :
    (if c then x else y) s = if c then x s else y s := by
  split <;> rfl

@[simp] theorem adaptExcept_apply {ε' : Type} (f : ε → ε') (x : EStateM ε σ α) (s : σ) :
    x.adaptExcept f s = match x s with
      | .ok a s => .ok a s
      | .error e s => .error (f e) s := by
  simp only [EStateM.adaptExcept]
  cases x s <;> rfl

end EStateM
