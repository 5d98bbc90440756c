import BuiltinActors.Runtime.Util
import BuiltinActors.Lib.Run

/-! # `MapMap` with its cache

`MapMap` works in memory on the inner maps it has loaded since `from_root`,
kept in a cache, and writes them back to the outer map only at `flush`,
deleting there those that became empty. The HAMTs are modelled by their
contents: a flushed root loads back the map that was flushed, and no HAMT
operation fails.

What the map holds (`view`) is, under a key loaded since `from_root`, the
cached inner map and, under any other key, the stored one. Every call reads
and writes `view` as a two-level finite map, whatever the cache holds; `flush`
and a reload of the flushed root leave it as it was. Over the runs of a table
of the verified registry (calls on the map loaded from the state's root, and
`flush` into that root) no stored inner map is ever empty. -/

namespace BuiltinActors

namespace MapMap

/-- A `MapMap` as it runs: the stored outer map, each inner HAMT by its
contents, and the inner maps loaded since `from_root`. -/
structure Cached (ν : Type) where
  outer : OrdMap Nat (OrdMap Nat ν)
  cache : OrdMap Nat (OrdMap Nat ν)

namespace Cached

variable {ν : Type}

def new : Cached ν := ⟨.empty, .empty⟩

def fromRoot (root : OrdMap Nat (OrdMap Nat ν)) : Cached ν := ⟨root, .empty⟩

/-- One cached inner map written back by `flush`: deleted when empty. -/
def flushEntry (outer : OrdMap Nat (OrdMap Nat ν)) (e : Nat × OrdMap Nat ν) :
    OrdMap Nat (OrdMap Nat ν) :=
  if e.2.entries.isEmpty then outer.erase e.1 else outer.set e.1 e.2

/-- `flush`: the cache written back into the outer map, whose root it
returns; the cache is kept. -/
def flush (m : Cached ν) : OrdMap Nat (OrdMap Nat ν) × Cached ν :=
  let outer := m.cache.entries.foldl flushEntry m.outer
  (outer, { m with outer := outer })

/-- `load_inner_map`: the cached inner map, or else the stored one (an empty
one when there is none) put in the cache; with whether it is empty. A stored
map counts as not empty: the source relies on `flush` writing only non-empty
ones. -/
def loadInnerMap (m : Cached ν) (k : Nat) : (Bool × OrdMap Nat ν) × Cached ν :=
  match m.cache.get? k with
  | some inner => ((inner.entries.isEmpty, inner), m)
  | none =>
    match m.outer.get? k with
    | some inner => ((false, inner), { m with cache := m.cache.set k inner })
    | none => ((true, .empty), { m with cache := m.cache.set k .empty })

/-- A write through the cached inner map under `k`, the `&mut` that
`load_inner_map` hands out. -/
def setCached (m : Cached ν) (k : Nat) (inner : OrdMap Nat ν) : Cached ν :=
  { m with cache := m.cache.set k inner }

def get (m : Cached ν) (k₁ k₂ : Nat) : Option ν × Cached ν :=
  let ((isEmpty, inner), m) := m.loadInnerMap k₁
  (if isEmpty then none else inner.get? k₂, m)

/-- `for_each_in`: the entries under `k₁` the callback runs on, in key
order. -/
def forEachIn (m : Cached ν) (k₁ : Nat) : List (Nat × ν) × Cached ν :=
  let ((isEmpty, inner), m) := m.loadInnerMap k₁
  (if isEmpty then [] else inner.entries, m)

/-- `put`: returns the value it replaced. -/
def put (m : Cached ν) (k₁ k₂ : Nat) (v : ν) : Option ν × Cached ν :=
  let ((_, inner), m) := m.loadInnerMap k₁
  (inner.get? k₂, m.setCached k₁ (inner.set k₂ v))

/-- `put_if_absent`: whether it wrote. -/
def putIfAbsent (m : Cached ν) (k₁ k₂ : Nat) (v : ν) : Bool × Cached ν :=
  let ((_, inner), m) := m.loadInnerMap k₁
  match inner.get? k₂ with
  | some _ => (false, m)
  | none => (true, m.setCached k₁ (inner.set k₂ v))

def putMany (m : Cached ν) (k₁ : Nat) (values : List (Nat × ν)) : Cached ν :=
  let ((_, inner), m) := m.loadInnerMap k₁
  m.setCached k₁ (values.foldl (fun inner e => inner.set e.1 e.2) inner)

/-- `remove`: returns the value it deleted. -/
def remove (m : Cached ν) (k₁ k₂ : Nat) : Option ν × Cached ν :=
  let ((isEmpty, inner), m) := m.loadInnerMap k₁
  if isEmpty then (none, m) else (inner.get? k₂, m.setCached k₁ (inner.erase k₂))

/-! ## What the map holds -/

/-- The inner map under `k`: the cached one when loaded, else the stored one,
else an empty one. -/
def inner (m : Cached ν) (k : Nat) : OrdMap Nat ν :=
  match m.cache.get? k with
  | some inner => inner
  | none => (m.outer.get? k).getD .empty

/-- The partial map from both keys to the value the map holds. -/
def view (m : Cached ν) (k₁ k₂ : Nat) : Option ν := (m.inner k₁).get? k₂

/-- Loading caches the inner map and says it is empty only when it is. -/
theorem loadInnerMap_spec (m : Cached ν) (k : Nat) :
    ∃ b, (b = true → (m.inner k).entries = []) ∧
      m.loadInnerMap k = ((b, m.inner k), m.setCached k (m.inner k)) := by
  unfold loadInnerMap inner
  cases hc : m.cache.get? k with
  | some i =>
    refine ⟨i.entries.isEmpty, List.isEmpty_iff.mp, ?_⟩
    simp only [setCached, OrdMap.set_of_get?_eq_some hc]
  | none =>
    cases ho : m.outer.get? k with
    | some i => exact ⟨false, nofun, rfl⟩
    | none => exact ⟨true, fun _ => rfl, rfl⟩

theorem inner_setCached (m : Cached ν) (k : Nat) (i : OrdMap Nat ν) (k' : Nat) :
    (m.setCached k i).inner k' = if k' = k then i else m.inner k' := by
  by_cases hk : k' = k <;> simp [inner, setCached, hk]

@[simp] theorem setCached_setCached (m : Cached ν) (k : Nat) (i i' : OrdMap Nat ν) :
    (m.setCached k i).setCached k i' = m.setCached k i' := by
  simp only [setCached, OrdMap.set_set]

/-- Loading an inner map leaves what the map holds. -/
theorem inner_load (m : Cached ν) (k : Nat) : (m.setCached k (m.inner k)).inner = m.inner := by
  funext k'
  rw [inner_setCached]
  split_ifs with hk
  · rw [hk]
  · rfl

theorem view_of_inner {m m' : Cached ν} (h : m'.inner = m.inner) : m'.view = m.view := by
  funext k₁ k₂
  simp only [view, h]

/-- The inner map an empty flag is given for holds nothing. -/
theorem get?_of_isEmpty {m : Cached ν} {k : Nat} {b : Bool}
    (hb : b = true → (m.inner k).entries = []) (k₂ : Nat) :
    (if b then none else (m.inner k).get? k₂) = (m.inner k).get? k₂ := by
  cases b with
  | false => rfl
  | true => rw [if_pos rfl, OrdMap.get?_of_entries_eq_nil (hb rfl)]

theorem view_setCached (m : Cached ν) (k : Nat) (i : OrdMap Nat ν) :
    (m.setCached k i).view = Function.update m.view k i.get? := by
  funext a b
  by_cases ha : a = k
  · subst ha
    simp [view, inner_setCached]
  · simp [view, inner_setCached, ha]

/-! ## Each call, on the inner map it loads -/

theorem get_eq (m : Cached ν) (k₁ k₂ : Nat) :
    m.get k₁ k₂ = ((m.inner k₁).get? k₂, m.setCached k₁ (m.inner k₁)) := by
  obtain ⟨b, hb, hload⟩ := m.loadInnerMap_spec k₁
  simp only [get, hload, get?_of_isEmpty hb]

theorem forEachIn_eq (m : Cached ν) (k₁ : Nat) :
    m.forEachIn k₁ = ((m.inner k₁).entries, m.setCached k₁ (m.inner k₁)) := by
  obtain ⟨b, hb, hload⟩ := m.loadInnerMap_spec k₁
  simp only [forEachIn, hload]
  cases b with
  | false => rfl
  | true => rw [if_pos rfl, hb rfl]

theorem put_eq (m : Cached ν) (k₁ k₂ : Nat) (v : ν) :
    m.put k₁ k₂ v = ((m.inner k₁).get? k₂, m.setCached k₁ ((m.inner k₁).set k₂ v)) := by
  obtain ⟨b, -, hload⟩ := m.loadInnerMap_spec k₁
  simp only [put, hload, setCached_setCached]

theorem putIfAbsent_eq (m : Cached ν) (k₁ k₂ : Nat) (v : ν) :
    m.putIfAbsent k₁ k₂ v = match (m.inner k₁).get? k₂ with
      | some _ => (false, m.setCached k₁ (m.inner k₁))
      | none => (true, m.setCached k₁ ((m.inner k₁).set k₂ v)) := by
  obtain ⟨b, -, hload⟩ := m.loadInnerMap_spec k₁
  simp only [putIfAbsent, hload, setCached_setCached]

theorem putMany_eq (m : Cached ν) (k₁ : Nat) (values : List (Nat × ν)) :
    m.putMany k₁ values =
      m.setCached k₁ (values.foldl (fun inner e => inner.set e.1 e.2) (m.inner k₁)) := by
  obtain ⟨b, -, hload⟩ := m.loadInnerMap_spec k₁
  simp only [putMany, hload, setCached_setCached]

/-- `remove` on an inner map flagged empty deletes nothing from it. -/
theorem remove_eq (m : Cached ν) (k₁ k₂ : Nat) :
    m.remove k₁ k₂ = ((m.inner k₁).get? k₂, m.setCached k₁ ((m.inner k₁).erase k₂)) := by
  obtain ⟨b, hb, hload⟩ := m.loadInnerMap_spec k₁
  simp only [remove, hload, setCached_setCached]
  cases b with
  | false => rfl
  | true =>
    have hnone := OrdMap.get?_of_entries_eq_nil (hb rfl) k₂
    rw [if_pos rfl, hnone, OrdMap.erase_of_get?_none hnone]

/-- A run of `put`s under one key writes their values into its inner map. -/
theorem inner_foldl_put (k₁ : Nat) : ∀ (values : List (Nat × ν)) (m : Cached ν),
    (values.foldl (fun m e => (m.put k₁ e.1 e.2).2) m).inner =
      (m.setCached k₁ (values.foldl (fun inner e => inner.set e.1 e.2) (m.inner k₁))).inner
  | [], m => (inner_load m k₁).symm
  | (k₂, v) :: rest, m => by
    rw [List.foldl_cons, inner_foldl_put k₁ rest, List.foldl_cons, put_eq]
    funext k
    simp only [inner_setCached]
    split_ifs <;> rfl

/-! ## Each call on what the map holds -/

theorem view_put (m : Cached ν) (k₁ k₂ : Nat) (v : ν) :
    (m.put k₁ k₂ v).2.view =
      Function.update m.view k₁ (Function.update (m.view k₁) k₂ (some v)) := by
  rw [put_eq, view_setCached, OrdMap.get?_set_eq_update]
  rfl

theorem view_remove (m : Cached ν) (k₁ k₂ : Nat) :
    (m.remove k₁ k₂).2.view = Function.update m.view k₁ (Function.update (m.view k₁) k₂ none) := by
  rw [remove_eq, view_setCached, OrdMap.get?_erase_eq_update]
  rfl

/-- `put_if_absent` writes exactly when nothing is held at both keys. -/
theorem putIfAbsent_view (m : Cached ν) (k₁ k₂ : Nat) (v : ν) :
    (m.putIfAbsent k₁ k₂ v).1 = (m.view k₁ k₂).isNone ∧
      (m.putIfAbsent k₁ k₂ v).2.view = if (m.view k₁ k₂).isNone then
        Function.update m.view k₁ (Function.update (m.view k₁) k₂ (some v)) else m.view := by
  rw [putIfAbsent_eq]
  cases h : (m.inner k₁).get? k₂ with
  | some w =>
    have hv : m.view k₁ k₂ = some w := h
    simp only [hv, Option.isNone_some, Bool.false_eq_true, if_false]
    exact ⟨trivial, view_of_inner (inner_load m k₁)⟩
  | none =>
    have hv : m.view k₁ k₂ = none := h
    simp only [hv, Option.isNone_none, if_true]
    refine ⟨trivial, ?_⟩
    rw [view_setCached, OrdMap.get?_set_eq_update]
    rfl

theorem view_putMany (m : Cached ν) (k₁ : Nat) (values : List (Nat × ν)) :
    (m.putMany k₁ values).view = (values.foldl (fun m e => (m.put k₁ e.1 e.2).2) m).view :=
  view_of_inner (by rw [putMany_eq, inner_foldl_put])

theorem mem_forEachIn (m : Cached ν) (k₁ k₂ : Nat) (v : ν) :
    (k₂, v) ∈ (m.forEachIn k₁).1 ↔ m.view k₁ k₂ = some v := by
  rw [forEachIn_eq]
  exact OrdMap.get?_eq_some_iff.symm

theorem nodup_forEachIn (m : Cached ν) (k₁ : Nat) : ((m.forEachIn k₁).1.map Prod.fst).Nodup := by
  rw [forEachIn_eq]
  exact OrdMap.keys_nodup _

/-! ## `flush` and reloading -/

/-- The outer map `flush` writes: under a loaded key the cached inner map,
deleted when empty; under any other the stored one. -/
theorem get?_flush (m : Cached ν) (k : Nat) :
    (m.flush).1.get? k = (m.cache.get? k).elim (m.outer.get? k)
      fun i => if i.entries.isEmpty then none else some i := by
  have hat : ∀ (outer : OrdMap Nat (OrdMap Nat ν)) (e : Nat × OrdMap Nat ν),
      (flushEntry outer e).get? e.1 =
        (fun (_ : Nat) (i : OrdMap Nat ν) => if i.entries.isEmpty then none else some i) e.1 e.2 := by
    intro outer e
    unfold flushEntry
    split <;> simp_all
  have hoff : ∀ (outer : OrdMap Nat (OrdMap Nat ν)) (e : Nat × OrdMap Nat ν) (k : Nat),
      k ≠ e.1 → (flushEntry outer e).get? k = outer.get? k := by
    intro outer e k hk
    unfold flushEntry
    split <;> simp [hk]
  exact @OrdMap.get?_foldl_local _ _ _ (fun _ i => if i.entries.isEmpty then none else some i)
    flushEntry hat hoff m.cache.entries m.outer (OrdMap.keys_nodup m.cache) k

theorem inner_flush (m : Cached ν) : (m.flush).2.inner = m.inner := by
  funext k
  have hcache : (m.flush).2.cache = m.cache := rfl
  have houter : (m.flush).2.outer = (m.flush).1 := rfl
  unfold inner
  rw [hcache, houter, get?_flush]
  cases m.cache.get? k <;> rfl

/-- Reloading the root `flush` wrote gives back what the map held. -/
theorem inner_fromRoot_flush (m : Cached ν) : (fromRoot (m.flush).1).inner = m.inner := by
  funext k
  simp only [inner, fromRoot, OrdMap.get?_empty, get?_flush]
  cases hc : m.cache.get? k with
  | none => rfl
  | some i =>
    by_cases hi : i.entries.isEmpty
    · simp only [Option.elim, hi, if_true, Option.getD_none]
      exact (OrdMap.eq_empty_of_entries_eq_nil (List.isEmpty_iff.mp hi)).symm
    · simp only [Option.elim, hi, Bool.false_eq_true, if_false, Option.getD_some]

/-! ## Stored inner maps are never empty -/

/-- No stored inner map is empty. -/
def NoEmptyInner (outer : OrdMap Nat (OrdMap Nat ν)) : Prop :=
  ∀ k i, outer.get? k = some i → i.entries ≠ []

theorem noEmptyInner_empty : NoEmptyInner (.empty : OrdMap Nat (OrdMap Nat ν)) := by
  intro k i h
  rw [OrdMap.get?_empty] at h
  cases h

/-- `flush` stores no empty inner map, keeping those stored before. -/
theorem noEmptyInner_flush {m : Cached ν} (h : NoEmptyInner m.outer) :
    NoEmptyInner (m.flush).1 := by
  intro k i hi
  rw [get?_flush] at hi
  cases hc : m.cache.get? k with
  | none =>
    rw [hc] at hi
    exact h k i hi
  | some j =>
    rw [hc] at hi
    by_cases hj : j.entries.isEmpty
    · simp [Option.elim, hj] at hi
    · simp only [Option.elim, hj, Bool.false_eq_true, if_false, Option.some.injEq] at hi
      subst hi
      exact fun he => hj (List.isEmpty_iff.mpr he)

end Cached

/-- A table of the verified registry: the root its state stores, and the
`MapMap` its methods load from that root and flush back into it
(`load_claims`, `save_claims`). -/
structure Table (ν : Type) where
  root : OrdMap Nat (OrdMap Nat ν)
  map : Cached ν

namespace Table

variable {ν : Type}

/-- A call on a table. -/
inductive Call (ν : Type)
  | get (k₁ k₂ : Nat)
  | forEachIn (k₁ : Nat)
  | put (k₁ k₂ : Nat) (v : ν)
  | putIfAbsent (k₁ k₂ : Nat) (v : ν)
  | putMany (k₁ : Nat) (values : List (Nat × ν))
  | remove (k₁ k₂ : Nat)
  /-- `flush` into the state's root. -/
  | save
  /-- `from_root` of the state's root. -/
  | load

/-- What a call returns. -/
inductive Output (ν : Type)
  | value (v : Option ν)
  | written (b : Bool)
  | visited (entries : List (Nat × ν))
  | done

/-- One call. None fails: the HAMTs are finite maps. -/
def step (t : Table ν) : Call ν → Except Empty (Table ν × Output ν)
  | .get k₁ k₂ => let (r, m) := t.map.get k₁ k₂; .ok (⟨t.root, m⟩, .value r)
  | .forEachIn k₁ => let (es, m) := t.map.forEachIn k₁; .ok (⟨t.root, m⟩, .visited es)
  | .put k₁ k₂ v => let (r, m) := t.map.put k₁ k₂ v; .ok (⟨t.root, m⟩, .value r)
  | .putIfAbsent k₁ k₂ v =>
    let (b, m) := t.map.putIfAbsent k₁ k₂ v; .ok (⟨t.root, m⟩, .written b)
  | .putMany k₁ values => .ok (⟨t.root, t.map.putMany k₁ values⟩, .done)
  | .remove k₁ k₂ => let (r, m) := t.map.remove k₁ k₂; .ok (⟨t.root, m⟩, .value r)
  | .save => let (root, m) := t.map.flush; .ok (⟨root, m⟩, .done)
  | .load => .ok (⟨t.root, .fromRoot t.root⟩, .done)

/-- A table as the constructor makes it, with an empty root. -/
def Init (t : Table ν) : Prop := t.root = .empty ∧ t.map = .new

/-- Neither the root nor the loaded map stores an empty inner map. -/
def Inv (t : Table ν) : Prop := Cached.NoEmptyInner t.root ∧ Cached.NoEmptyInner t.map.outer

theorem inv_init {t : Table ν} (h : Init t) : Inv t := by
  obtain ⟨hroot, hmap⟩ := h
  rw [Inv, hroot, hmap]
  exact ⟨Cached.noEmptyInner_empty, Cached.noEmptyInner_empty⟩

/-- Calls on the loaded map write only its cache; `save` and `load` store
what `flush` wrote. -/
theorem inv_step {t t' : Table ν} {c : Call ν} {o : Output ν} (h : Inv t)
    (hs : t.step c = .ok (t', o)) : Inv t' := by
  cases c with
  | get k₁ k₂ =>
    simp only [step, Cached.get_eq, Except.ok.injEq, Prod.mk.injEq] at hs
    obtain ⟨rfl, -⟩ := hs
    exact h
  | forEachIn k₁ =>
    simp only [step, Cached.forEachIn_eq, Except.ok.injEq, Prod.mk.injEq] at hs
    obtain ⟨rfl, -⟩ := hs
    exact h
  | put k₁ k₂ v =>
    simp only [step, Cached.put_eq, Except.ok.injEq, Prod.mk.injEq] at hs
    obtain ⟨rfl, -⟩ := hs
    exact h
  | putIfAbsent k₁ k₂ v =>
    simp only [step, Cached.putIfAbsent_eq, Except.ok.injEq] at hs
    split at hs <;>
    · obtain ⟨rfl, -⟩ := Prod.mk.inj hs
      exact h
  | putMany k₁ values =>
    simp only [step, Cached.putMany_eq, Except.ok.injEq, Prod.mk.injEq] at hs
    obtain ⟨rfl, -⟩ := hs
    exact h
  | remove k₁ k₂ =>
    simp only [step, Cached.remove_eq, Except.ok.injEq, Prod.mk.injEq] at hs
    obtain ⟨rfl, -⟩ := hs
    exact h
  | save =>
    simp only [step, Except.ok.injEq, Prod.mk.injEq] at hs
    obtain ⟨rfl, -⟩ := hs
    exact ⟨Cached.noEmptyInner_flush h.2, Cached.noEmptyInner_flush h.2⟩
  | load =>
    simp only [step, Except.ok.injEq, Prod.mk.injEq] at hs
    obtain ⟨rfl, -⟩ := hs
    exact ⟨h.1, h.1⟩

theorem inv_of_reachable {t : Table ν} (h : Run.Reachable step Init t) : Inv t :=
  Run.Reachable.rec_inv (fun _ hi => inv_init hi) (fun _ _ _ _ hi hs => inv_step hi hs) h

end Table

open Cached in
/-- The cached `MapMap` is a two-level finite map: each call reads and
writes what it holds (`view`) as such a map does, whatever it has cached;
`put_many` does what its `put`s do; `flush`, and reloading its root, change
nothing it holds; and over the runs of a table, `flush` stores no empty inner
map. -/
theorem cached_mapmap_refines_view {ν : Type} :
    (∀ (m : Cached ν) (k₁ k₂ : Nat),
      (m.get k₁ k₂).1 = m.view k₁ k₂ ∧ (m.get k₁ k₂).2.view = m.view) ∧
    (∀ (m : Cached ν) (k₁ k₂ : Nat) (v : ν), (m.put k₁ k₂ v).1 = m.view k₁ k₂ ∧
      (m.put k₁ k₂ v).2.view =
        Function.update m.view k₁ (Function.update (m.view k₁) k₂ (some v))) ∧
    (∀ (m : Cached ν) (k₁ k₂ : Nat) (v : ν),
      (m.putIfAbsent k₁ k₂ v).1 = (m.view k₁ k₂).isNone ∧
      (m.putIfAbsent k₁ k₂ v).2.view = if (m.view k₁ k₂).isNone then
        Function.update m.view k₁ (Function.update (m.view k₁) k₂ (some v)) else m.view) ∧
    (∀ (m : Cached ν) (k₁ : Nat) (values : List (Nat × ν)),
      (m.putMany k₁ values).view = (values.foldl (fun m e => (m.put k₁ e.1 e.2).2) m).view) ∧
    (∀ (m : Cached ν) (k₁ k₂ : Nat), (m.remove k₁ k₂).1 = m.view k₁ k₂ ∧
      (m.remove k₁ k₂).2.view = Function.update m.view k₁ (Function.update (m.view k₁) k₂ none)) ∧
    (∀ (m : Cached ν) (k₁ : Nat),
      (∀ k₂ v, (k₂, v) ∈ (m.forEachIn k₁).1 ↔ m.view k₁ k₂ = some v) ∧
      ((m.forEachIn k₁).1.map Prod.fst).Nodup ∧ (m.forEachIn k₁).2.view = m.view) ∧
    (∀ m : Cached ν, (m.flush).2.view = m.view ∧ (fromRoot (m.flush).1).view = m.view) ∧
    (∀ t : Table ν, Run.Reachable Table.step Table.Init t →
      ∀ k i, (t.map.flush).1.get? k = some i → i.entries ≠ []) := by
  refine ⟨fun m k₁ k₂ => ⟨by rw [get_eq]; rfl, by rw [get_eq]; exact view_of_inner (inner_load m k₁)⟩,
    fun m k₁ k₂ v => ⟨by rw [put_eq]; rfl, view_put m k₁ k₂ v⟩, putIfAbsent_view, view_putMany,
    fun m k₁ k₂ => ⟨by rw [remove_eq]; rfl, view_remove m k₁ k₂⟩,
    fun m k₁ => ⟨mem_forEachIn m k₁, nodup_forEachIn m k₁, ?_⟩,
    fun m => ⟨view_of_inner (inner_flush m), view_of_inner (inner_fromRoot_flush m)⟩,
    fun t ht => noEmptyInner_flush (Table.inv_of_reachable ht).2⟩
  rw [forEachIn_eq]
  exact view_of_inner (inner_load m k₁)

/-- A value put into a fresh map is what a `get` of both keys returns. -/
theorem cached_mapmap_refines_view_put_get :
    (((Cached.new : Cached Nat).put 1 2 7).2.get 1 2).1 = some 7 := by
  rw [((@cached_mapmap_refines_view Nat).1 _ 1 2).1,
    ((@cached_mapmap_refines_view Nat).2.1 _ 1 2 7).2]
  simp

end MapMap

end BuiltinActors
