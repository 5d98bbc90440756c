import Mathlib.Data.List.Basic
import Mathlib.Data.List.Nodup
import BuiltinActors.Lib.Except

/-! # Walks over key-ordered entries

The iteration primitives of an ordered key-value store, over its entries in
key order, in a fallible monad: a read-only walk that may stop early
(`foldWhile`), and a walk that may also rewrite each value it visits
(`mapWhile`). A walk that never stops early is `foldWhile` with a body that
always asks to continue.

Proofs about a loop body never unfold the walk: they pick an invariant over
the entries already visited and the entries still to come, show one step
keeps it, and read the outcome off `foldWhile_cases` or `mapWhile_cases`. -/

namespace Loop

variable {ε σ κ ν : Type}

/-- Walks `l` in order, threading `s` through `f`, until `f` asks to stop. -/
def foldWhile (f : σ → κ → ν → Except ε (σ × Bool)) : σ → List (κ × ν) → Except ε σ
  | s, [] => .ok s
  | s, (k, v) :: rest =>
    match f s k v with
    | .error e => .error e
    | .ok (s', true) => foldWhile f s' rest
    | .ok (s', false) => .ok s'

/-- Walks `l` in order like `foldWhile`, replacing each visited value with the
one `f` returns. Entries after the stop are kept as they are. -/
def mapWhile (f : σ → κ → ν → Except ε (σ × ν × Bool)) :
    σ → List (κ × ν) → Except ε (σ × List (κ × ν))
  | s, [] => .ok (s, [])
  | s, (k, v) :: rest =>
    match f s k v with
    | .error e => .error e
    | .ok (s', v', true) =>
      match mapWhile f s' rest with
      | .error e => .error e
      | .ok (s'', rest') => .ok (s'', (k, v') :: rest')
    | .ok (s', v', false) => .ok (s', (k, v') :: rest)

/-- Walks the keys of `l` in order, threading `s` through `f`, until `f` asks
to stop: a `for` loop over a set's elements with a `break`. -/
def forWhile (f : σ → κ → Except ε (σ × Bool)) : σ → List κ → Except ε σ
  | s, [] => .ok s
  | s, k :: rest =>
    match f s k with
    | .error e => .error e
    | .ok (s', true) => forWhile f s' rest
    | .ok (s', false) => .ok s'

/-- A body that never stops early. -/
def always (f : σ → κ → ν → Except ε σ) : σ → κ → ν → Except ε (σ × Bool) :=
  fun s k v => (f s k v).map fun s' => (s', true)

section Rules

variable (I : σ → List (κ × ν) → List (κ × ν) → Prop)

/-- **Invariant rule for `foldWhile`.** If `I s done todo` is kept by every
step that asks to go on, then a walk that returns either visited every entry,
or stopped at one entry whose step asked to stop, with `I` holding before it. -/
theorem foldWhile_cases {f : σ → κ → ν → Except ε (σ × Bool)}
    (step : ∀ s done k v rest s', I s done ((k, v) :: rest) → f s k v = .ok (s', true) →
      I s' (done ++ [(k, v)]) rest) :
    ∀ (l done : List (κ × ν)) (s s' : σ), I s done l → foldWhile f s l = .ok s' →
      I s' (done ++ l) [] ∨ ∃ pre k v rest s₀, l = pre ++ (k, v) :: rest ∧
        I s₀ (done ++ pre) ((k, v) :: rest) ∧ f s₀ k v = .ok (s', false)
  | [], done, s, s', h0, h => by
    simp only [foldWhile, Except.ok.injEq] at h
    subst h
    exact .inl (by simpa using h0)
  | (k, v) :: rest, done, s, s', h0, h => by
    simp only [foldWhile] at h
    split at h
    · cases h
    · rename_i s₁ hf
      have h1 := step s done k v rest s₁ h0 hf
      rcases foldWhile_cases step rest (done ++ [(k, v)]) s₁ s' h1 h with hend | ⟨pre, k', v', rest', s₀, hl, hI, hf'⟩
      · exact .inl (by simpa using hend)
      · refine .inr ⟨(k, v) :: pre, k', v', rest', s₀, by simp [hl], by simpa using hI, hf'⟩
    · rename_i s₁ hf
      cases h
      exact .inr ⟨[], k, v, rest, s, by simp, by simpa using h0, hf⟩

/-- **Invariant rule for `mapWhile`.** `I s out todo` relates the state to the
rewritten prefix `out` and the entries still to visit. -/
theorem mapWhile_cases {f : σ → κ → ν → Except ε (σ × ν × Bool)}
    (step : ∀ s out k v rest s' v', I s out ((k, v) :: rest) → f s k v = .ok (s', v', true) →
      I s' (out ++ [(k, v')]) rest) :
    ∀ (l out : List (κ × ν)) (s s' : σ) (l' : List (κ × ν)), I s out l →
      mapWhile f s l = .ok (s', l') →
      I s' (out ++ l') [] ∨ ∃ pre k v v' rest s₀, l' = pre ++ (k, v') :: rest ∧
        I s₀ (out ++ pre) ((k, v) :: rest) ∧ f s₀ k v = .ok (s', v', false) ∧
        ∃ pre₀, l = pre₀ ++ (k, v) :: rest ∧ pre₀.map Prod.fst = pre.map Prod.fst
  | [], out, s, s', l', h0, h => by
    simp only [mapWhile, Except.ok.injEq, Prod.mk.injEq] at h
    obtain ⟨rfl, rfl⟩ := h
    exact .inl (by simpa using h0)
  | (k, v) :: rest, out, s, s', l', h0, h => by
    simp only [mapWhile] at h
    split at h
    · cases h
    · rename_i s₁ v₁ hf
      split at h
      · cases h
      · rename_i s₂ rest₂ hrest
        simp only [Except.ok.injEq, Prod.mk.injEq] at h
        obtain ⟨rfl, rfl⟩ := h
        have h1 := step s out k v rest s₁ v₁ h0 hf
        rcases mapWhile_cases step rest (out ++ [(k, v₁)]) s₁ s₂ rest₂ h1 hrest with
          hend | ⟨pre, k', w, w', rest', s₀, hl, hI, hf', pre₀, hl₀, hkeys⟩
        · exact .inl (by simpa using hend)
        · refine .inr ⟨(k, v₁) :: pre, k', w, w', rest', s₀, by simp [hl], by simpa using hI, hf',
            (k, v) :: pre₀, by simp [hl₀], by simp [hkeys]⟩
    · rename_i s₁ v₁ hf
      simp only [Except.ok.injEq, Prod.mk.injEq] at h
      obtain ⟨rfl, rfl⟩ := h
      exact .inr ⟨[], k, v, v₁, rest, s, by simp, by simpa using h0, hf, [], by simp, by simp⟩

end Rules

section ListRules

variable (I : σ → List κ → List κ → Prop)

/-- **Invariant rule for `forWhile`**, as `foldWhile_cases` for a walk over keys. -/
theorem forWhile_cases {f : σ → κ → Except ε (σ × Bool)}
    (step : ∀ s done k rest s', I s done (k :: rest) → f s k = .ok (s', true) →
      I s' (done ++ [k]) rest) :
    ∀ (l done : List κ) (s s' : σ), I s done l → forWhile f s l = .ok s' →
      I s' (done ++ l) [] ∨ ∃ pre k rest s₀, l = pre ++ k :: rest ∧
        I s₀ (done ++ pre) (k :: rest) ∧ f s₀ k = .ok (s', false)
  | [], done, s, s', h0, h => by
    simp only [forWhile, Except.ok.injEq] at h
    subst h
    exact .inl (by simpa using h0)
  | k :: rest, done, s, s', h0, h => by
    simp only [forWhile] at h
    split at h
    · cases h
    · rename_i s₁ hf
      have h1 := step s done k rest s₁ h0 hf
      rcases forWhile_cases step rest (done ++ [k]) s₁ s' h1 h with hend | ⟨pre, k', rest', s₀, hl, hI, hf'⟩
      · exact .inl (by simpa using hend)
      · exact .inr ⟨k :: pre, k', rest', s₀, by simp [hl], by simpa using hI, hf'⟩
    · rename_i s₁ hf
      cases h
      exact .inr ⟨[], k, rest, s, by simp, by simpa using h0, hf⟩

/-- The element a walk over a list without repetitions visits was not
visited before. -/
theorem notMem_prefix {l done rest : List κ} {k : κ} (hnd : l.Nodup) (h : done ++ k :: rest = l) :
    k ∉ done :=
  fun hk => (List.nodup_cons.mp (List.nodup_middle.mp (h ▸ hnd))).1 (List.mem_append_left _ hk)

/-- **Invariant rule for a `for` loop without `break`**, a `foldlM` in `Except`:
a loop that returns visited every element. -/
theorem foldlM_inv {f : σ → κ → Except ε σ}
    (step : ∀ s done k rest s', I s done (k :: rest) → f s k = .ok s' →
      I s' (done ++ [k]) rest) :
    ∀ (l done : List κ) (s s' : σ), I s done l → l.foldlM f s = .ok s' → I s' (done ++ l) []
  | [], done, s, s', h0, h => by
    simp only [List.foldlM_nil, Except.pure_eq_ok] at h
    subst h
    simpa using h0
  | k :: rest, done, s, s', h0, h => by
    simp only [List.foldlM_cons, Except.bind_eq_ok] at h
    obtain ⟨s₁, hf, h⟩ := h
    simpa using foldlM_inv step rest (done ++ [k]) s₁ s' (step s done k rest s₁ h0 hf) h

end ListRules

/-- A rewriting walk keeps the keys in place. -/
theorem mapWhile_keys {f : σ → κ → ν → Except ε (σ × ν × Bool)} :
    ∀ (l : List (κ × ν)) (s s' : σ) (l' : List (κ × ν)), mapWhile f s l = .ok (s', l') →
      l'.map Prod.fst = l.map Prod.fst
  | [], s, s', l', h => by
    simp only [mapWhile, Except.ok.injEq, Prod.mk.injEq] at h
    rw [← h.2]
  | (k, v) :: rest, s, s', l', h => by
    simp only [mapWhile] at h
    split at h
    · cases h
    · split at h
      · cases h
      · rename_i hrest
        simp only [Except.ok.injEq, Prod.mk.injEq] at h
        rw [← h.2]
        simp [mapWhile_keys rest _ _ _ hrest]
    · simp only [Except.ok.injEq, Prod.mk.injEq] at h
      rw [← h.2]
      simp

theorem always_ok {f : σ → κ → ν → Except ε σ} {s s' : σ} {k : κ} {v : ν} {go : Bool}
    (h : always f s k v = .ok (s', go)) : f s k v = .ok s' ∧ go = true := by
  unfold always at h
  cases hf : f s k v with
  | error e => rw [hf] at h; cases h
  | ok t =>
    rw [hf] at h
    simp only [Except.map, Except.ok.injEq, Prod.mk.injEq] at h
    exact ⟨by rw [h.1], h.2.symm⟩

/-- **Invariant rule for a walk that never stops early**: it visits every entry. -/
theorem foldWhile_always (I : σ → List (κ × ν) → List (κ × ν) → Prop)
    {f : σ → κ → ν → Except ε σ}
    (step : ∀ s done k v rest s', I s done ((k, v) :: rest) → f s k v = .ok s' →
      I s' (done ++ [(k, v)]) rest)
    {l : List (κ × ν)} {s s' : σ} (h0 : I s [] l) (h : foldWhile (always f) s l = .ok s') :
    I s' l [] := by
  rcases foldWhile_cases I (fun s done k v rest s' hI hf => step s done k v rest s' hI
      (always_ok hf).1) l [] s s' h0 h with hend | ⟨_, _, _, _, _, _, _, hf⟩
  · simpa using hend
  · cases (always_ok hf).2

/-- A walk whose body takes each entry whose key satisfies `p` and stops at the
first that does not folds over the longest prefix of entries that satisfy `p`. -/
theorem foldWhile_takeWhile {f : σ → κ → ν → Except ε (σ × Bool)} (p : κ → Bool)
    (g : σ → κ → ν → σ) (hgo : ∀ s k v, p k = true → f s k v = .ok (g s k v, true))
    (hstop : ∀ s k v, p k = false → f s k v = .ok (s, false)) :
    ∀ (l : List (κ × ν)) (s : σ),
      foldWhile f s l = .ok ((l.takeWhile fun e => p e.1).foldl (fun s e => g s e.1 e.2) s)
  | [], s => rfl
  | (k, v) :: rest, s => by
    cases hk : p k with
    | true =>
      simp only [foldWhile, hgo s k v hk, List.takeWhile_cons, hk, if_true, List.foldl_cons]
      exact foldWhile_takeWhile p g hgo hstop rest (g s k v)
    | false =>
      simp only [foldWhile, hstop s k v hk, List.takeWhile_cons, hk]
      rfl

/-- A body that never fails and never stops rewrites every value. -/
theorem mapWhile_map {f : σ → κ → ν → Except ε (σ × ν × Bool)} (g : σ → κ → ν → σ)
    (h : κ → ν → ν) (hf : ∀ s k v, f s k v = .ok (g s k v, h k v, true)) :
    ∀ (l : List (κ × ν)) (s : σ),
      mapWhile f s l = .ok (l.foldl (fun s e => g s e.1 e.2) s, l.map fun e => (e.1, h e.1 e.2))
  | [], s => rfl
  | (k, v) :: rest, s => by
    simp only [mapWhile, hf, mapWhile_map g h hf rest, List.foldl_cons, List.map_cons]

end Loop
