import Mathlib.Logic.Basic

/-! # Reading successful `Except` computations

What a successful computation in `Except` establishes, step by step: a bind
succeeded in both of its parts, a guard that throws held, a mapped error
changed no success. Proofs about fallible functions take their `do` blocks
apart with these instead of unfolding the monad. -/

namespace Except

variable {ε ε' α β : Type}

@[simp] theorem bind_eq_ok {x : Except ε α} {f : α → Except ε β} {b : β} :
    x >>= f = .ok b ↔ ∃ a, x = .ok a ∧ f a = .ok b := by
  cases x <;> simp [bind, Except.bind]

@[simp] theorem pure_eq_ok {a b : α} : (pure a : Except ε α) = .ok b ↔ a = b := by
  simp [pure, Except.pure]

/-- A success that returns a pair, such as a state beside a result. -/
theorem pure_pair_eq_ok {a a' : α} {b b' : β} (h : (pure (a, b) : Except ε (α × β)) = .ok (a', b')) :
    a' = a ∧ b' = b :=
  Prod.mk.inj (pure_eq_ok.mp h).symm

@[simp] theorem throw_ne_ok {e : ε} {a : α} : (throw e : Except ε α) ≠ .ok a := by
  simp [throw, throwThe, MonadExceptOf.throw]

/-- A thrown error short-circuits the rest of a sequence. -/
@[simp] theorem throw_bind {e : ε} {f : α → Except ε β} : (throw e >>= f : Except ε β) = throw e :=
  rfl

@[simp] theorem error_bind {e : ε} {f : α → Except ε β} :
    (Except.error e >>= f : Except ε β) = .error e :=
  rfl

@[simp] theorem ok_bind {a : α} {f : α → Except ε β} : (Except.ok a >>= f : Except ε β) = f a :=
  rfl

@[simp] theorem map_throw {e : ε} {f : α → β} : (f <$> throw e : Except ε β) = throw e :=
  rfl

@[simp] theorem map_eq_ok {x : Except ε α} {f : α → β} {b : β} :
    f <$> x = .ok b ↔ ∃ a, x = .ok a ∧ f a = b := by
  cases x <;> simp [Functor.map, Except.map]

@[simp] theorem mapError_eq_ok {x : Except ε α} {f : ε → ε'} {a : α} :
    x.mapError f = .ok a ↔ x = .ok a := by
  cases x with
  | error e => exact ⟨fun h => (nomatch h), fun h => (nomatch h)⟩
  | ok b => constructor <;> intro h <;> cases h <;> rfl

/-- A guard that throws succeeds exactly when its condition fails. -/
@[simp] theorem ite_throw_eq_ok {p : Prop} [Decidable p] {e : ε} {x : Except ε α} {a : α} :
    (if p then throw e else x) = .ok a ↔ ¬ p ∧ x = .ok a := by
  by_cases hp : p <;> simp [hp]

@[simp] theorem error_ne_ok {e : ε} {a : α} : (Except.error e : Except ε α) ≠ .ok a := by
  simp

/-! ### Failures

Where a failed computation's error came from: the first part of a sequence, or
the rest after the first part succeeded; a guard that threw; a mapped error. -/

@[simp] theorem bind_eq_error {x : Except ε α} {f : α → Except ε β} {e : ε} :
    x >>= f = .error e ↔ x = .error e ∨ ∃ a, x = .ok a ∧ f a = .error e := by
  cases x <;> simp [bind, Except.bind]

@[simp] theorem pure_ne_error {a : α} {e : ε} : (pure a : Except ε α) ≠ .error e := by
  simp [pure, Except.pure]

@[simp] theorem ite_throw_eq_error {p : Prop} [Decidable p] {e e' : ε} {x : Except ε α} :
    (if p then throw e else x) = .error e' ↔ (p ∧ e = e') ∨ (¬ p ∧ x = .error e') := by
  by_cases hp : p <;> simp [hp, throw, throwThe, MonadExceptOf.throw]

@[simp] theorem mapError_eq_error {x : Except ε α} {f : ε → ε'} {e : ε'} :
    x.mapError f = .error e ↔ ∃ e₀, x = .error e₀ ∧ f e₀ = e := by
  cases x with
  | error e₀ =>
    show Except.error (f e₀) = .error e ↔ _
    simp
  | ok a =>
    show Except.ok a = .error e ↔ _
    simp

/-- A walk over a list whose every step succeeds returns the list of results. -/
theorem mapM_eq_ok_map {f : α → Except ε β} {g : α → β} :
    ∀ {l : List α}, (∀ a ∈ l, f a = .ok (g a)) → l.mapM f = .ok (l.map g)
  | [], _ => rfl
  | a :: l, h => by
    rw [List.mapM_cons, h a List.mem_cons_self,
      mapM_eq_ok_map fun b hb => h b (List.mem_cons_of_mem a hb)]
    rfl

/-- A computation that evaluates to a success has a result. -/
theorem exists_eq_ok_of_toBool {x : Except ε α} (h : x.toBool = true) : ∃ a, x = .ok a := by
  cases x with
  | error e => cases h
  | ok a => exact ⟨a, rfl⟩

/-- Refinement of a sequence by an optional computation: when the first part
refines `X` through `p`, and the rest refines `K` of the image of every
result the first part gives, the sequence refines `X.bind K`. -/
theorem toOption_map_bind {γ δ : Type} {x : Except ε α} {f : α → Except ε β} {p : α → δ}
    {g : β → γ} {X : Option δ} {K : δ → Option γ} (hx : x.toOption.map p = X)
    (hf : ∀ a, x = .ok a → (f a).toOption.map g = K (p a)) :
    (x >>= f).toOption.map g = X.bind K := by
  cases x with
  | error e =>
    subst hx
    rfl
  | ok a =>
    subst hx
    exact hf a rfl

/-- A computation followed by a pure function is refined through their composition. -/
theorem toOption_map_bind_pure {γ : Type} {x : Except ε α} {f : α → β} {g : β → γ} :
    (x >>= fun a => pure (f a)).toOption.map g = x.toOption.map (g ∘ f) := by
  cases x <;> rfl

end Except
