import Mathlib.Logic.Basic

/-! # Runs of a fallible step function

A component whose calls either fail or return a new state and a result. A
failed call leaves the state as it was (the transaction is dropped), so a run
is a sequence of successful calls. `Reachable` collects the states of all
runs from an initial set; `Reachable.rec_inv` is the invariant rule over
runs. -/

namespace Run

variable {σ α ε ρ : Type} (step : σ → α → Except ε (σ × ρ)) (Init : σ → Prop)

/-- The states reachable from `Init` by successful calls. -/
inductive Reachable : σ → Prop
  | init {s : σ} : Init s → Reachable s
  | step {s s' : σ} {a : α} {r : ρ} : Reachable s → step s a = .ok (s', r) → Reachable s'

/-- A run of calls from `s`, stopping at the first failure; returns the last
state and the result of each call. -/
def runAll : σ → List α → Except ε (σ × List ρ)
  | s, [] => .ok (s, [])
  | s, a :: as =>
    match step s a with
    | .error e => .error e
    | .ok (s', r) =>
      match runAll s' as with
      | .error e => .error e
      | .ok (s'', rs) => .ok (s'', r :: rs)

variable {step Init}

/-- An invariant that holds initially and that every successful call keeps
holds of every reachable state. -/
theorem Reachable.rec_inv {I : σ → Prop} (hinit : ∀ s, Init s → I s)
    (hstep : ∀ s a s' r, I s → step s a = .ok (s', r) → I s') {s : σ}
    (h : Reachable step Init s) : I s := by
  induction h with
  | init hs => exact hinit _ hs
  | step _ hst ih => exact hstep _ _ _ _ ih hst

/-- The last state of a successful run from a reachable state is reachable. -/
theorem Reachable.runAll {s s' : σ} {as : List α} {rs : List ρ} (hs : Reachable step Init s)
    (h : runAll step s as = .ok (s', rs)) : Reachable step Init s' := by
  induction as generalizing s rs with
  | nil =>
    simp only [Run.runAll, Except.ok.injEq, Prod.mk.injEq] at h
    exact h.1 ▸ hs
  | cons a as ih =>
    simp only [Run.runAll] at h
    split at h
    · cases h
    · rename_i s₁ r₁ hst
      split at h
      · cases h
      · rename_i s₂ rs₂ hrun
        simp only [Except.ok.injEq, Prod.mk.injEq] at h
        obtain ⟨rfl, -⟩ := h
        exact ih (hs.step hst) hrun

end Run
