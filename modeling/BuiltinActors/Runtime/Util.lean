import BuiltinActors.Lib.OrdMap
import BuiltinActors.Runtime

/-! # Maps of maps and batch returns

Two collections of the runtime library that the verified registry builds on.

`MapMap` is a HAMT of HAMTs: an outer map from a first key to the root of an
inner map. It is modelled as what `flush` stores: an outer map of inner maps
in which no inner map is empty. Every operation writes its inner map back at
once, dropping it when it has become empty, which is what `flush` makes of
the cached inner maps; a lookup sees the same entries either way. The walk
over an inner map visits it in key order, not in the HAMT's hash order.

A `BatchReturn` records the outcome of each item of a batch: how many
succeeded, and the index and exit code of each failure. -/

namespace BuiltinActors

/-- The flushed contents of a `MapMap` over actor IDs and 64-bit inner keys. -/
structure MapMap (ν : Type) where
  outer : OrdMap Nat (OrdMap Nat ν)

namespace MapMap

variable {ν : Type}

def empty : MapMap ν := ⟨.empty⟩

/-- The inner map under `k₁`, empty when there is none (`load_inner_map`). -/
def inner (m : MapMap ν) (k₁ : Nat) : OrdMap Nat ν := (m.outer.get? k₁).getD .empty

def get (m : MapMap ν) (k₁ k₂ : Nat) : Option ν := (m.inner k₁).get? k₂

/-- Writes an inner map back to the outer map, dropping it when it is empty
as `flush` does. -/
def setInner (m : MapMap ν) (k₁ : Nat) (inner : OrdMap Nat ν) : MapMap ν :=
  ⟨if inner.entries.isEmpty then m.outer.erase k₁ else m.outer.set k₁ inner⟩

def put (m : MapMap ν) (k₁ k₂ : Nat) (v : ν) : MapMap ν :=
  m.setInner k₁ ((m.inner k₁).set k₂ v)

/-- Writes the value unless the key holds one; says whether it wrote. -/
def putIfAbsent (m : MapMap ν) (k₁ k₂ : Nat) (v : ν) : Bool × MapMap ν :=
  match m.get k₁ k₂ with
  | some _ => (false, m)
  | none => (true, m.put k₁ k₂ v)

def putMany (m : MapMap ν) (k₁ : Nat) (values : List (Nat × ν)) : MapMap ν :=
  values.foldl (fun m e => m.put k₁ e.1 e.2) m

/-- Deletes the value under both keys and returns what it was. -/
def remove (m : MapMap ν) (k₁ k₂ : Nat) : Option ν × MapMap ν :=
  (m.get k₁ k₂, m.setInner k₁ ((m.inner k₁).erase k₂))

/-- The entries under `k₁`, as `for_each_in` visits them. -/
def entriesIn (m : MapMap ν) (k₁ : Nat) : List (Nat × ν) := (m.inner k₁).entries

/-- The total of `f` over an inner map. -/
def innerTotal (inner : OrdMap Nat ν) (f : ν → Int) : Int := inner.sumBy fun _ => f

/-- The total of `f` over every value of the map. -/
def total (m : MapMap ν) (f : ν → Int) : Int := m.outer.sumBy fun _ inner => innerTotal inner f

@[simp] theorem get_empty (k₁ k₂ : Nat) : (empty : MapMap ν).get k₁ k₂ = none := rfl

theorem get_setInner (m : MapMap ν) (k₁ : Nat) (inner : OrdMap Nat ν) (a b : Nat) :
    (m.setInner k₁ inner).get a b = if a = k₁ then inner.get? b else m.get a b := by
  unfold setInner
  by_cases hemp : inner.entries.isEmpty
  · have hnil : inner.entries = [] := List.isEmpty_iff.mp hemp
    rw [if_pos hemp]
    by_cases ha : a = k₁
    · simp [get, MapMap.inner, ha, OrdMap.get?_of_entries_eq_nil hnil]
    · simp [get, MapMap.inner, ha]
  · rw [if_neg hemp]
    by_cases ha : a = k₁ <;> simp [get, MapMap.inner, ha]

@[simp] theorem get_put (m : MapMap ν) (k₁ k₂ : Nat) (v : ν) (a b : Nat) :
    (m.put k₁ k₂ v).get a b = if a = k₁ ∧ b = k₂ then some v else m.get a b := by
  rw [put, get_setInner]
  by_cases ha : a = k₁
  · subst ha
    by_cases hb : b = k₂ <;> simp [hb, get]
  · simp [ha]

@[simp] theorem remove_fst (m : MapMap ν) (k₁ k₂ : Nat) : (m.remove k₁ k₂).1 = m.get k₁ k₂ :=
  rfl

@[simp] theorem get_remove (m : MapMap ν) (k₁ k₂ : Nat) (a b : Nat) :
    (m.remove k₁ k₂).2.get a b = if a = k₁ ∧ b = k₂ then none else m.get a b := by
  rw [remove, get_setInner]
  by_cases ha : a = k₁
  · subst ha
    by_cases hb : b = k₂ <;> simp [hb, get]
  · simp [ha]

theorem putIfAbsent_of_get_none {m : MapMap ν} {k₁ k₂ : Nat} (h : m.get k₁ k₂ = none) (v : ν) :
    m.putIfAbsent k₁ k₂ v = (true, m.put k₁ k₂ v) := by
  simp [putIfAbsent, h]

theorem putIfAbsent_of_get_some {m : MapMap ν} {k₁ k₂ : Nat} {v₀ : ν}
    (h : m.get k₁ k₂ = some v₀) (v : ν) : m.putIfAbsent k₁ k₂ v = (false, m) := by
  simp [putIfAbsent, h]

/-- Writing values at consecutive inner keys from `s` on: each written key
holds its value, every other key what it held. -/
theorem get_putMany_range' (k₁ : Nat) (vs : List ν) (s : Nat) (m : MapMap ν) (a b : Nat) :
    (m.putMany k₁ ((List.range' s vs.length).zip vs)).get a b =
      if a = k₁ ∧ s ≤ b ∧ b < s + vs.length then vs[b - s]? else m.get a b := by
  induction vs generalizing s m with
  | nil =>
    simp only [putMany, List.length_nil, List.range'_zero, List.zip_nil_left, List.foldl_nil]
    rw [if_neg (by omega)]
  | cons v vs ih =>
    simp only [putMany] at ih ⊢
    rw [List.length_cons, List.range'_succ, List.zip_cons_cons, List.foldl_cons, ih, get_put]
    by_cases ha : a = k₁
    · rcases lt_trichotomy b s with hb | rfl | hb
      · simp [ha, hb.ne, show ¬ s + 1 ≤ b by omega, show ¬ s ≤ b by omega]
      · simp [ha]
      · have hsub : b - s = b - (s + 1) + 1 := by omega
        simp [ha, hb.ne', hsub, show s + 1 ≤ b by omega, show s ≤ b by omega,
          Nat.add_right_comm s 1, Nat.add_assoc]
    · simp [ha]

/-! ### Totals -/

theorem innerTotal_of_entries_eq_nil {inner : OrdMap Nat ν} (h : inner.entries = [])
    (f : ν → Int) : innerTotal inner f = 0 := by
  simp [innerTotal, OrdMap.sumBy, h]

theorem total_setInner (m : MapMap ν) (k₁ : Nat) (inner : OrdMap Nat ν) (f : ν → Int) :
    (m.setInner k₁ inner).total f + innerTotal (m.inner k₁) f =
      m.total f + innerTotal inner f := by
  have hagree : ∀ k, k ≠ k₁ → (m.setInner k₁ inner).outer.get? k = m.outer.get? k := by
    intro k hk
    unfold setInner
    by_cases hemp : inner.entries.isEmpty
    · rw [if_pos hemp]
      simp [hk]
    · rw [if_neg hemp]
      simp [hk]
  have h := OrdMap.sumBy_add_of_agree (m := m.outer) (m.setInner k₁ inner).outer
    (fun _ inner => innerTotal inner f) k₁ hagree
  -- the outer entry at `k₁`, read as the total of the inner map it holds
  have hold : (m.outer.get? k₁).elim 0 (fun inner => innerTotal inner f) =
      innerTotal (m.inner k₁) f := by
    cases hg : m.outer.get? k₁ with
    | none => simp [MapMap.inner, hg, innerTotal, OrdMap.sumBy, OrdMap.empty]
    | some i => simp [MapMap.inner, hg]
  have hnew : ((m.setInner k₁ inner).outer.get? k₁).elim 0 (fun inner => innerTotal inner f) =
      innerTotal inner f := by
    unfold setInner
    by_cases hemp : inner.entries.isEmpty
    · rw [if_pos hemp]
      simp [innerTotal_of_entries_eq_nil (List.isEmpty_iff.mp hemp)]
    · rw [if_neg hemp]
      simp
  rw [hold, hnew] at h
  exact h

/-- Writing a value takes the one it replaces off the total and adds its own. -/
theorem total_put (m : MapMap ν) (k₁ k₂ : Nat) (v : ν) (f : ν → Int) :
    (m.put k₁ k₂ v).total f + (m.get k₁ k₂).elim 0 f = m.total f + f v := by
  have hinner : innerTotal ((m.inner k₁).set k₂ v) f + ((m.inner k₁).get? k₂).elim 0 f =
      innerTotal (m.inner k₁) f + f v :=
    OrdMap.sumBy_set (m.inner k₁) (fun _ => f) k₂ v
  have houter := total_setInner m k₁ ((m.inner k₁).set k₂ v) f
  simp only [put, get]
  omega

/-- Removing a value takes it off the total. -/
theorem total_remove (m : MapMap ν) (k₁ k₂ : Nat) (f : ν → Int) :
    (m.remove k₁ k₂).2.total f + (m.get k₁ k₂).elim 0 f = m.total f := by
  have hinner : innerTotal ((m.inner k₁).erase k₂) f + ((m.inner k₁).get? k₂).elim 0 f =
      innerTotal (m.inner k₁) f :=
    OrdMap.sumBy_erase (m.inner k₁) (fun _ => f) k₂
  have houter := total_setInner m k₁ ((m.inner k₁).erase k₂) f
  simp only [remove, get]
  omega

/-- Writing values at consecutive fresh inner keys adds their total. -/
theorem total_putMany_range' (k₁ : Nat) (f : ν → Int) (vs : List ν) (s : Nat) (m : MapMap ν)
    (hfresh : ∀ b, s ≤ b → b < s + vs.length → m.get k₁ b = none) :
    (m.putMany k₁ ((List.range' s vs.length).zip vs)).total f = m.total f + (vs.map f).sum := by
  induction vs generalizing s m with
  | nil => simp [putMany]
  | cons v vs ih =>
    simp only [putMany] at ih ⊢
    rw [List.length_cons, List.range'_succ, List.zip_cons_cons, List.foldl_cons, ih]
    · have h := total_put m k₁ s v f
      rw [hfresh s le_rfl (by simp), Option.elim_none] at h
      simp only [List.map_cons, List.sum_cons]
      omega
    · intro b hb hb'
      rw [get_put, if_neg (by omega)]
      exact hfresh b (by omega) (by simp only [List.length_cons]; omega)

end MapMap

/-! ## Batch returns -/

structure FailCode where
  idx : Nat
  code : ExitCode
deriving DecidableEq, Repr

structure BatchReturn where
  successCount : Nat
  failCodes : List FailCode
deriving DecidableEq, Repr

namespace BatchReturn

def empty : BatchReturn := ⟨0, []⟩

def ok (n : Nat) : BatchReturn := ⟨n, []⟩

def size (b : BatchReturn) : Nat := b.successCount + b.failCodes.length

def allOk (b : BatchReturn) : Bool := b.failCodes.isEmpty

/-- The loop of `successes` from index `idx`, with the failures not yet
passed. -/
def successesFrom {α : Type} : List FailCode → Nat → List α → List α
  | _, _, [] => []
  | [], idx, item :: rest => item :: successesFrom [] (idx + 1) rest
  | f :: fs, idx, item :: rest =>
    if idx = f.idx then successesFrom fs (idx + 1) rest
    else item :: successesFrom (f :: fs) (idx + 1) rest

/-- The items at the indices that did not fail. The source panics when the
items are not as many as the batch; its callers pass a batch of their items. -/
def successes {α : Type} (b : BatchReturn) (items : List α) : List α :=
  successesFrom b.failCodes 0 items

/-- How a batch return prints: its successes, then each failure. -/
instance : ToString BatchReturn := ⟨fun b =>
  let succStr := s!"Batch successes {b.successCount} / {b.size}"
  if b.allOk then succStr
  else
    let strs := b.failCodes.map fun fail => s!"code={fail.code.value} at idx={fail.idx}"
    succStr ++ ", Batch failing: [" ++ ", ".intercalate strs ++ "]"⟩

end BatchReturn

/-- A batch return under construction. -/
structure BatchReturnGen where
  successCount : Nat
  failCodes : List FailCode
  expectCount : Nat
deriving DecidableEq, Repr

namespace BatchReturnGen

def new (expectCount : Nat) : BatchReturnGen := ⟨0, [], expectCount⟩

def addSuccess (g : BatchReturnGen) : BatchReturnGen :=
  { g with successCount := g.successCount + 1 }

def addFail (g : BatchReturnGen) (code : ExitCode) : BatchReturnGen :=
  { g with failCodes := g.failCodes ++ [⟨g.successCount + g.failCodes.length, code⟩] }

/-- The batch return; the source asserts that every expected item was
recorded, which its callers do one item at a time. -/
def generate (g : BatchReturnGen) : BatchReturn := ⟨g.successCount, g.failCodes⟩

/-! ### Batches recorded one item at a time

A caller that records each item's outcome in order, a success or a failure
code, builds a batch whose failures sit at the failing items' indices; so
`successes` hands back exactly the items that succeeded. -/

/-- Records one outcome: no code is a success. -/
def record (g : BatchReturnGen) : Option ExitCode → BatchReturnGen
  | none => g.addSuccess
  | some code => g.addFail code

/-- The failures recording `outcome` of each item adds, from index `idx` on. -/
def failsFrom {α : Type} (outcome : α → Option ExitCode) : Nat → List α → List FailCode
  | _, [] => []
  | idx, x :: xs =>
    match outcome x with
    | none => failsFrom outcome (idx + 1) xs
    | some code => ⟨idx, code⟩ :: failsFrom outcome (idx + 1) xs

variable {α : Type} (outcome : α → Option ExitCode)

theorem foldl_record : ∀ (items : List α) (g : BatchReturnGen),
    items.foldl (fun g x => g.record (outcome x)) g =
      ⟨g.successCount + (items.filter fun x => (outcome x).isNone).length,
        g.failCodes ++ failsFrom outcome (g.successCount + g.failCodes.length) items,
        g.expectCount⟩
  | [], g => by simp [failsFrom]
  | x :: xs, g => by
    rw [List.foldl_cons, foldl_record xs]
    cases hx : outcome x with
    | none =>
      simp only [record, addSuccess, failsFrom, hx, List.filter_cons, Option.isNone_none,
        if_true, List.length_cons, mk.injEq, List.append_cancel_left_eq, and_true]
      constructor
      · omega
      · congr 1
        omega
    | some code =>
      simp only [record, addFail, failsFrom, hx, List.filter_cons, Option.isNone_some,
        Bool.false_eq_true, if_false, List.length_append, List.length_singleton,
        List.append_assoc, List.singleton_append]
      rw [Nat.add_assoc]

theorem idx_le_of_mem_failsFrom : ∀ {idx : Nat} {items : List α} {f : FailCode},
    f ∈ failsFrom outcome idx items → idx ≤ f.idx
  | _, [], _, h => nomatch h
  | idx, x :: xs, f, h => by
    simp only [failsFrom] at h
    split at h
    · exact Nat.le_of_succ_le (idx_le_of_mem_failsFrom h)
    · rcases List.mem_cons.mp h with rfl | h
      · exact le_rfl
      · exact Nat.le_of_succ_le (idx_le_of_mem_failsFrom h)

/-- An item at an index no failure names is a success. -/
theorem successesFrom_cons_of_lt {fails : List FailCode} {idx : Nat} (x : α) (xs : List α)
    (h : ∀ f ∈ fails, idx < f.idx) :
    BatchReturn.successesFrom fails idx (x :: xs) =
      x :: BatchReturn.successesFrom fails (idx + 1) xs := by
  cases fails with
  | nil => rfl
  | cons f fs =>
    have hne : idx ≠ f.idx := Nat.ne_of_lt (h f List.mem_cons_self)
    simp [BatchReturn.successesFrom, hne]

theorem successesFrom_failsFrom : ∀ (idx : Nat) (items : List α),
    BatchReturn.successesFrom (failsFrom outcome idx items) idx items =
      items.filter fun x => (outcome x).isNone
  | _, [] => by simp [BatchReturn.successesFrom]
  | idx, x :: xs => by
    cases hx : outcome x with
    | none =>
      have hlt : ∀ f ∈ failsFrom outcome (idx + 1) xs, idx < f.idx :=
        fun f hf => idx_le_of_mem_failsFrom outcome hf
      simp only [failsFrom, hx, List.filter_cons, Option.isNone_none, if_true]
      rw [successesFrom_cons_of_lt x xs hlt, successesFrom_failsFrom (idx + 1) xs]
    | some code =>
      simp only [failsFrom, hx, BatchReturn.successesFrom, if_true, List.filter_cons,
        Option.isNone_some, Bool.false_eq_true, if_false]
      exact successesFrom_failsFrom (idx + 1) xs

/-- A batch of every item's outcome gives back, as its successes, the items
that succeeded. -/
theorem successes_foldl_record (items : List α) (n : Nat) :
    ((items.foldl (fun g x => g.record (outcome x)) (new n)).generate).successes items =
      items.filter fun x => (outcome x).isNone := by
  rw [foldl_record]
  exact successesFrom_failsFrom outcome 0 items

end BatchReturnGen

end BuiltinActors
