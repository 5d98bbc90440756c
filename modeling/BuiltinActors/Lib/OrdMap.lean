import BuiltinActors.Lib.Loop
import Mathlib.Algebra.BigOperators.Group.Finset.Basic
import Mathlib.Algebra.Order.BigOperators.Group.List
import Mathlib.Tactic.Abel

/-! # Ordered finite maps

A finite map over a linear order, kept as its entries in strictly increasing
key order. It is the observable meaning of a sparse persistent array (lookups,
writes, deletes, and walks in index order) and of an ordered in-memory map:
every lawful implementation of either is determined by the entries it holds.

Proofs read a map through `get?` only; `ext_get?` turns equal lookups back
into equal maps, and `sumBy_eq_sum` turns a walk's total into a finite sum. -/

/-- Entries in strictly increasing key order. -/
structure OrdMap (κ : Type) [LinearOrder κ] (ν : Type) where
  entries : List (κ × ν)
  sorted : entries.Pairwise (fun a b => a.1 < b.1)

namespace OrdMap

variable {κ ν : Type} [LinearOrder κ]

def lookup (k : κ) : List (κ × ν) → Option ν
  | [] => none
  | (k', v) :: rest => if k = k' then some v else lookup k rest

theorem lookup_nil (k : κ) : lookup k ([] : List (κ × ν)) = none := rfl

theorem lookup_cons (k k' : κ) (v : ν) (rest : List (κ × ν)) :
    lookup k ((k', v) :: rest) = if k = k' then some v else lookup k rest := rfl

def insertSorted (k : κ) (v : ν) : List (κ × ν) → List (κ × ν)
  | [] => [(k, v)]
  | (k', v') :: rest =>
    if k < k' then (k, v) :: (k', v') :: rest
    else if k = k' then (k, v) :: rest
    else (k', v') :: insertSorted k v rest

theorem mem_insertSorted {k : κ} {v : ν} {e : κ × ν} :
    ∀ {l : List (κ × ν)}, e ∈ insertSorted k v l → e = (k, v) ∨ e ∈ l
  | [], h => by simpa [insertSorted] using h
  | (k', v') :: rest, h => by
    simp only [insertSorted] at h
    split_ifs at h
    · simpa using h
    · simp only [List.mem_cons] at h ⊢
      tauto
    · simp only [List.mem_cons] at h ⊢
      rcases h with h | h
      · exact .inr (.inl h)
      · rcases mem_insertSorted h with h | h
        · exact .inl h
        · exact .inr (.inr h)

theorem insertSorted_sorted (k : κ) (v : ν) :
    ∀ {l : List (κ × ν)}, l.Pairwise (fun a b => a.1 < b.1) →
      (insertSorted k v l).Pairwise (fun a b => a.1 < b.1)
  | [], _ => by simp [insertSorted]
  | (k', v') :: rest, h => by
    obtain ⟨hhd, htl⟩ := List.pairwise_cons.mp h
    simp only [insertSorted]
    split_ifs with hlt heq
    · refine List.Pairwise.cons (fun e he => ?_) h
      rcases List.mem_cons.mp he with rfl | he
      · exact hlt
      · exact hlt.trans (hhd e he)
    · subst heq
      exact List.Pairwise.cons (fun e he => hhd e he) htl
    · have hgt : k' < k := lt_of_le_of_ne (not_lt.mp hlt) (Ne.symm heq)
      refine List.Pairwise.cons (fun e he => ?_) (insertSorted_sorted k v htl)
      rcases mem_insertSorted he with rfl | he
      · exact hgt
      · exact hhd e he

def empty : OrdMap κ ν := ⟨[], .nil⟩

def get? (m : OrdMap κ ν) (k : κ) : Option ν := lookup k m.entries

def set (m : OrdMap κ ν) (k : κ) (v : ν) : OrdMap κ ν :=
  ⟨insertSorted k v m.entries, insertSorted_sorted k v m.sorted⟩

def erase (m : OrdMap κ ν) (k : κ) : OrdMap κ ν :=
  ⟨m.entries.filter (fun e => e.1 ≠ k), m.sorted.filter _⟩

def keys (m : OrdMap κ ν) : List κ := m.entries.map Prod.fst

def count (m : OrdMap κ ν) : Nat := m.entries.length

/-! ## Lookup -/

theorem lookup_insertSorted (k k' : κ) (v : ν) :
    ∀ l : List (κ × ν), lookup k' (insertSorted k v l) = if k' = k then some v else lookup k' l
  | [] => rfl
  | (k₀, v₀) :: rest => by
    have ih := lookup_insertSorted k k' v rest
    unfold insertSorted
    by_cases hlt : k < k₀
    · rw [if_pos hlt]
      simp only [lookup_cons]
    · rw [if_neg hlt]
      by_cases heq : k = k₀
      · rw [if_pos heq]
        subst heq
        by_cases hk : k' = k <;> simp [lookup_cons, hk]
      · rw [if_neg heq]
        simp only [lookup_cons, ih]
        by_cases hk : k' = k
        · subst hk; simp [heq]
        · simp [hk]

theorem lookup_filter (k k' : κ) :
    ∀ l : List (κ × ν), lookup k' (l.filter (fun e => e.1 ≠ k)) = if k' = k then none else lookup k' l
  | [] => by simp [lookup_nil]
  | (k₀, v₀) :: rest => by
    have ih := lookup_filter k k' rest
    by_cases h₀ : k₀ = k
    · subst h₀
      rw [List.filter_cons_of_neg (by simp), ih]
      by_cases hk : k' = k₀ <;> simp [lookup_cons, hk]
    · rw [List.filter_cons_of_pos (by simpa using h₀)]
      simp only [lookup_cons, ih]
      by_cases hk : k' = k
      · subst hk; simp [Ne.symm h₀]
      · simp [hk]

theorem lookup_eq_some_of_mem {k : κ} {v : ν} :
    ∀ {l : List (κ × ν)}, l.Pairwise (fun a b => a.1 < b.1) → (k, v) ∈ l → lookup k l = some v
  | [], _, h => by cases h
  | (k₀, v₀) :: rest, hs, h => by
    obtain ⟨hhd, htl⟩ := List.pairwise_cons.mp hs
    rcases List.mem_cons.mp h with h | h
    · cases h; simp [lookup_cons]
    · have hne : k ≠ k₀ := (ne_of_lt (hhd (k, v) h)).symm
      simp [lookup_cons, hne, lookup_eq_some_of_mem htl h]

theorem mem_of_lookup_eq_some {k : κ} {v : ν} :
    ∀ {l : List (κ × ν)}, lookup k l = some v → (k, v) ∈ l
  | [], h => by cases h
  | (k₀, v₀) :: rest, h => by
    simp only [lookup_cons] at h
    split_ifs at h with hk
    · cases h; subst hk; simp
    · exact List.mem_cons_of_mem _ (mem_of_lookup_eq_some h)

theorem lookup_append (k : κ) :
    ∀ l₁ l₂ : List (κ × ν), lookup k (l₁ ++ l₂) = (lookup k l₁).or (lookup k l₂)
  | [], _ => rfl
  | (k₀, v₀) :: rest, l₂ => by
    simp only [List.cons_append, lookup_cons]
    split_ifs
    · rfl
    · exact lookup_append k rest l₂

theorem lookup_eq_none {k : κ} : ∀ {l : List (κ × ν)}, k ∉ l.map Prod.fst → lookup k l = none
  | [], _ => rfl
  | (k₀, v₀) :: rest, h => by
    simp only [List.map_cons, List.mem_cons, not_or] at h
    simp only [lookup_cons, if_neg h.1]
    exact lookup_eq_none h.2

@[simp] theorem get?_empty (k : κ) : (empty : OrdMap κ ν).get? k = none := rfl

@[simp] theorem get?_set (m : OrdMap κ ν) (k k' : κ) (v : ν) :
    (m.set k v).get? k' = if k' = k then some v else m.get? k' :=
  lookup_insertSorted k k' v m.entries

@[simp] theorem get?_erase (m : OrdMap κ ν) (k k' : κ) :
    (m.erase k).get? k' = if k' = k then none else m.get? k' :=
  lookup_filter k k' m.entries

theorem get?_of_entries_eq_nil {m : OrdMap κ ν} (h : m.entries = []) (k : κ) : m.get? k = none := by
  simp [get?, h, lookup_nil]

theorem get?_eq_some_iff {m : OrdMap κ ν} {k : κ} {v : ν} :
    m.get? k = some v ↔ (k, v) ∈ m.entries :=
  ⟨mem_of_lookup_eq_some, lookup_eq_some_of_mem m.sorted⟩

theorem mem_keys {m : OrdMap κ ν} {k : κ} : k ∈ m.keys ↔ (m.get? k).isSome := by
  constructor
  · intro h
    obtain ⟨⟨k', v⟩, he, rfl⟩ := List.mem_map.mp h
    simp [get?_eq_some_iff.mpr he]
  · intro h
    obtain ⟨v, hv⟩ := Option.isSome_iff_exists.mp h
    exact List.mem_map.mpr ⟨(k, v), get?_eq_some_iff.mp hv, rfl⟩

theorem keys_nodup (m : OrdMap κ ν) : m.keys.Nodup :=
  (List.pairwise_map.mpr m.sorted).imp ne_of_lt

/-- The keys of the entries a predicate selects. -/
theorem mem_keys_filter {m : OrdMap κ ν} {p : κ × ν → Bool} {k : κ} :
    k ∈ (m.entries.filter p).map Prod.fst ↔ ∃ v, m.get? k = some v ∧ p (k, v) = true := by
  simp only [List.mem_map, List.mem_filter, get?_eq_some_iff]
  constructor
  · rintro ⟨⟨k', v⟩, ⟨he, hp⟩, rfl⟩
    exact ⟨v, he, hp⟩
  · rintro ⟨v, he, hp⟩
    exact ⟨(k, v), ⟨he, hp⟩, rfl⟩

theorem keys_filter_nodup (m : OrdMap κ ν) (p : κ × ν → Bool) :
    ((m.entries.filter p).map Prod.fst).Nodup :=
  List.Nodup.sublist (List.filter_sublist.map _) (keys_nodup m)

/-- A map has entries exactly when some key holds a value. -/
theorem count_pos_iff {m : OrdMap κ ν} : 0 < m.count ↔ ∃ k v, m.get? k = some v := by
  unfold count
  constructor
  · intro h
    obtain ⟨e, he⟩ := List.exists_mem_of_length_pos h
    exact ⟨e.1, e.2, get?_eq_some_iff.mpr he⟩
  · rintro ⟨k, v, hkv⟩
    exact List.length_pos_of_mem (get?_eq_some_iff.mp hkv)

theorem entries_eq_nil_of_get? {m : OrdMap κ ν} (h : ∀ k, m.get? k = none) : m.entries = [] := by
  have hcount : ¬ 0 < m.count := fun hpos => by
    obtain ⟨k, v, hkv⟩ := count_pos_iff.mp hpos
    rw [h k] at hkv
    cases hkv
  exact List.eq_nil_of_length_eq_zero (Nat.eq_zero_of_not_pos hcount)

/-- A key met while walking the entries in order was not met before. -/
theorem key_notMem_prefix {m : OrdMap κ ν} {done rest : List (κ × ν)} {k : κ} {v : ν}
    (h : done ++ (k, v) :: rest = m.entries) : k ∉ done.map Prod.fst := by
  have hs := m.sorted
  rw [← h, List.pairwise_append] at hs
  intro hk
  obtain ⟨e, he, rfl⟩ := List.mem_map.mp hk
  exact lt_irrefl _ (hs.2.2 e he (e.1, v) List.mem_cons_self)

/-- Looking a key up in a prefix of the entries finds the map's value if the
prefix holds the key, and nothing otherwise. -/
theorem lookup_prefix {m : OrdMap κ ν} {done todo : List (κ × ν)} (h : done ++ todo = m.entries)
    (k : κ) : lookup k done = if k ∈ done.map Prod.fst then m.get? k else none := by
  split_ifs with hk
  · obtain ⟨⟨k', v⟩, he, rfl⟩ := List.mem_map.mp hk
    have hs : done.Pairwise (fun a b => a.1 < b.1) := by
      have hsorted := m.sorted
      rw [← h] at hsorted
      exact (List.pairwise_append.mp hsorted).1
    rw [lookup_eq_some_of_mem hs he, get?_eq_some_iff.mpr (h ▸ List.mem_append_left todo he)]
  · exact lookup_eq_none hk

/-- Two maps with the same lookups are the same map. -/
theorem ext_get? {m₁ m₂ : OrdMap κ ν} (h : ∀ k, m₁.get? k = m₂.get? k) : m₁ = m₂ := by
  obtain ⟨l₁, s₁⟩ := m₁
  obtain ⟨l₂, s₂⟩ := m₂
  have hmem : ∀ e, e ∈ l₁ ↔ e ∈ l₂ := fun ⟨k, v⟩ => by
    have := h k
    simp only [get?] at this
    exact ⟨fun he => mem_of_lookup_eq_some (this ▸ lookup_eq_some_of_mem s₁ he),
      fun he => mem_of_lookup_eq_some (this.symm ▸ lookup_eq_some_of_mem s₂ he)⟩
  have hperm : l₁.Perm l₂ := (List.perm_ext_iff_of_nodup
    (s₁.imp (fun h => ne_of_apply_ne Prod.fst (ne_of_lt h)))
    (s₂.imp (fun h => ne_of_apply_ne Prod.fst (ne_of_lt h)))).mpr hmem
  have heq : l₁ = l₂ := hperm.eq_of_pairwise
    (fun a b _ _ hab hba => absurd (hab.trans hba) (lt_irrefl _)) s₁ s₂
  subst heq
  rfl

@[simp] theorem set_set (m : OrdMap κ ν) (k : κ) (v v' : ν) : (m.set k v).set k v' = m.set k v' :=
  ext_get? fun k' => by by_cases h : k' = k <;> simp [h]

/-- A property of every entry survives writing an entry that has it. -/
theorem forall_get?_set {P : ν → Prop} {m : OrdMap κ ν} (h : ∀ k v, m.get? k = some v → P v)
    {k : κ} {v : ν} (hv : P v) : ∀ k' v', (m.set k v).get? k' = some v' → P v' := by
  intro k' v' h'
  rw [get?_set] at h'
  split_ifs at h'
  · cases h'
    exact hv
  · exact h k' v' h'

theorem forall_get?_erase {P : ν → Prop} {m : OrdMap κ ν} (h : ∀ k v, m.get? k = some v → P v)
    (k : κ) : ∀ k' v', (m.erase k).get? k' = some v' → P v' := by
  intro k' v' h'
  rw [get?_erase] at h'
  split_ifs at h'
  exact h k' v' h'

theorem erase_of_get?_none {m : OrdMap κ ν} {k : κ} (h : m.get? k = none) : m.erase k = m :=
  ext_get? fun k' => by by_cases hk : k' = k <;> simp [hk, h]

theorem get?_set_eq_update (m : OrdMap κ ν) (k : κ) (v : ν) :
    (m.set k v).get? = Function.update m.get? k (some v) := by
  funext k'
  rw [get?_set, Function.update_apply]

theorem get?_erase_eq_update (m : OrdMap κ ν) (k : κ) :
    (m.erase k).get? = Function.update m.get? k none := by
  funext k'
  rw [get?_erase, Function.update_apply]

theorem set_of_get?_eq_some {m : OrdMap κ ν} {k : κ} {v : ν} (h : m.get? k = some v) :
    m.set k v = m :=
  ext_get? fun k' => by by_cases hk : k' = k <;> simp [hk, h]

theorem eq_empty_of_entries_eq_nil {m : OrdMap κ ν} (h : m.entries = []) : m = empty :=
  ext_get? fun k => by rw [get?_of_entries_eq_nil h, get?_empty]

@[simp] theorem erase_set (m : OrdMap κ ν) (k : κ) (v : ν) : (m.set k v).erase k = m.erase k :=
  ext_get? fun k' => by by_cases h : k' = k <;> simp [h]

/-- Folding updates that each touch only their own key, over a list with
distinct keys: a listed key ends with its own update, any other key as it was. -/
theorem get?_foldl_local {f : κ → ν → Option ν} {upd : OrdMap κ ν → κ × ν → OrdMap κ ν}
    (hat : ∀ m e, (upd m e).get? e.1 = f e.1 e.2)
    (hoff : ∀ m e k, k ≠ e.1 → (upd m e).get? k = m.get? k) :
    ∀ (l : List (κ × ν)) (m : OrdMap κ ν), (l.map Prod.fst).Nodup → ∀ k,
      (l.foldl upd m).get? k = (lookup k l).elim (m.get? k) (f k)
  | [], _, _, _ => rfl
  | (k₀, v₀) :: rest, m, hnd, k => by
    rw [List.map_cons, List.nodup_cons] at hnd
    rw [List.foldl_cons, get?_foldl_local hat hoff rest _ hnd.2 k]
    by_cases hk : k = k₀
    · subst hk
      rw [lookup_eq_none hnd.1, hat]
      simp [lookup_cons]
    · rw [hoff _ _ _ hk]
      simp [lookup_cons, hk]

/-- Writing `vs` at the consecutive keys from `s` on: each written key holds
its value, every other key what it held. -/
theorem get?_foldl_set_range' (vs : List ν) (s k : Nat) (m : OrdMap Nat ν) :
    (((List.range' s vs.length).zip vs).foldl (fun m e => m.set e.1 e.2) m).get? k =
      if s ≤ k ∧ k < s + vs.length then vs[k - s]? else m.get? k := by
  induction vs generalizing s m with
  | nil => simp
  | cons v vs ih =>
    rw [List.length_cons, List.range'_succ, List.zip_cons_cons, List.foldl_cons, ih]
    rcases lt_trichotomy k s with hk | rfl | hk
    · simp [hk.ne, show ¬ s + 1 ≤ k by omega, show ¬ s ≤ k by omega]
    · simp
    · have hsub : k - s = k - (s + 1) + 1 := by omega
      simp [hk.ne', hsub, show s + 1 ≤ k by omega, show s ≤ k by omega, Nat.add_right_comm s 1,
        Nat.add_assoc]

/-! ## Totals over the entries -/

/-- The key set. -/
def keySet (m : OrdMap κ ν) : Finset κ := m.keys.toFinset

theorem mem_keySet {m : OrdMap κ ν} {k : κ} : k ∈ m.keySet ↔ (m.get? k).isSome := by
  simp [keySet, mem_keys]

/-- The total of `f` over all entries, in walk order. -/
def sumBy {M : Type} [AddCommMonoid M] (m : OrdMap κ ν) (f : κ → ν → M) : M :=
  (m.entries.map fun e => f e.1 e.2).sum

theorem sumBy_eq_sum {M : Type} [AddCommMonoid M] (m : OrdMap κ ν) (f : κ → ν → M) :
    m.sumBy f = ∑ k ∈ m.keySet, (m.get? k).elim 0 (f k) := by
  obtain ⟨l, hs⟩ := m
  simp only [sumBy, keySet, keys, get?]
  induction l with
  | nil => simp
  | cons e rest ih =>
    obtain ⟨hhd, htl⟩ := List.pairwise_cons.mp hs
    obtain ⟨k, v⟩ := e
    have hk : k ∉ (rest.map Prod.fst).toFinset := by
      simp only [List.mem_toFinset, List.mem_map, not_exists, not_and]
      intro e he hek
      exact absurd hek (ne_of_lt (hhd e he)).symm
    rw [List.map_cons, List.map_cons, List.sum_cons, List.toFinset_cons, Finset.sum_insert hk,
      ih htl]
    simp only [lookup_cons, if_true, Option.elim]
    congr 1
    refine Finset.sum_congr rfl fun k' hk' => ?_
    have hne : k' ≠ k := fun h => hk (h ▸ hk')
    simp [hne]

section Totals

variable {M : Type} [AddCommMonoid M]

/-- A total split into one key's entry and a sum over the rest of any key set
that covers the map. -/
theorem sumBy_eq_add_sum_erase (m : OrdMap κ ν) (f : κ → ν → M) (k : κ) {S : Finset κ}
    (hS : m.keySet ⊆ S) (hk : k ∈ S) :
    m.sumBy f = (m.get? k).elim 0 (f k) + ∑ k' ∈ S.erase k, (m.get? k').elim 0 (f k') := by
  rw [Finset.add_sum_erase S (fun k' => (m.get? k').elim 0 (f k')) hk, sumBy_eq_sum]
  refine Finset.sum_subset hS fun k' _ hk' => ?_
  -- outside the key set there is no entry
  cases h : m.get? k' with
  | none => rfl
  | some v => exact absurd (mem_keySet.mpr (by simp [h])) hk'

/-- Two maps that differ at one key only: their totals differ by that key's
entries. -/
theorem sumBy_add_of_agree {m : OrdMap κ ν} (m' : OrdMap κ ν) (f : κ → ν → M) (k : κ)
    (h : ∀ k', k' ≠ k → m'.get? k' = m.get? k') :
    m'.sumBy f + (m.get? k).elim 0 (f k) = m.sumBy f + (m'.get? k).elim 0 (f k) := by
  have hS : insert k (m.keySet ∪ m'.keySet) ⊇ m.keySet ∪ m'.keySet := Finset.subset_insert _ _
  rw [sumBy_eq_add_sum_erase m' f k (Finset.union_subset_right hS) (Finset.mem_insert_self _ _),
    sumBy_eq_add_sum_erase m f k (Finset.union_subset_left hS) (Finset.mem_insert_self _ _)]
  have hrest : ∑ k' ∈ (insert k (m.keySet ∪ m'.keySet)).erase k, (m'.get? k').elim 0 (f k') =
      ∑ k' ∈ (insert k (m.keySet ∪ m'.keySet)).erase k, (m.get? k').elim 0 (f k') :=
    Finset.sum_congr rfl fun k' hk' => by rw [h k' (Finset.ne_of_mem_erase hk')]
  rw [hrest]
  abel

theorem sumBy_set (m : OrdMap κ ν) (f : κ → ν → M) (k : κ) (v : ν) :
    (m.set k v).sumBy f + (m.get? k).elim 0 (f k) = m.sumBy f + f k v := by
  simpa using sumBy_add_of_agree (m.set k v) f k fun k' hk' => by simp [hk']

theorem sumBy_erase (m : OrdMap κ ν) (f : κ → ν → M) (k : κ) :
    (m.erase k).sumBy f + (m.get? k).elim 0 (f k) = m.sumBy f := by
  simpa using sumBy_add_of_agree (m.erase k) f k fun k' hk' => by simp [hk']

theorem sumBy_set_of_get?_none {m : OrdMap κ ν} {f : κ → ν → M} {k : κ} (hk : m.get? k = none)
    (v : ν) : (m.set k v).sumBy f = m.sumBy f + f k v := by
  simpa [hk] using sumBy_set m f k v

/-- A total over any key set that covers the map. -/
theorem sumBy_eq_sum_of_subset (m : OrdMap κ ν) (f : κ → ν → M) {S : Finset κ} (hS : m.keySet ⊆ S) :
    m.sumBy f = ∑ k ∈ S, (m.get? k).elim 0 (f k) := by
  rw [sumBy_eq_sum]
  refine Finset.sum_subset hS fun k _ hk => ?_
  cases h : m.get? k with
  | none => rfl
  | some v => exact absurd (mem_keySet.mpr (by simp [h])) hk

/-- Two maps whose entries have the same image under `f` have the same total
of `f`. -/
theorem sumBy_congr_map {m m' : OrdMap κ ν} {f : ν → M} (h : ∀ k, (m'.get? k).map f = (m.get? k).map f) :
    m'.sumBy (fun _ v => f v) = m.sumBy (fun _ v => f v) := by
  rw [sumBy_eq_sum_of_subset m' _ Finset.subset_union_left,
    sumBy_eq_sum_of_subset m _ (Finset.subset_union_right : m.keySet ⊆ m'.keySet ∪ m.keySet)]
  refine Finset.sum_congr rfl fun k _ => ?_
  have hk := h k
  cases h₁ : m'.get? k <;> cases h₂ : m.get? k <;> simp_all

end Totals

theorem keySet_set (m : OrdMap κ ν) (k : κ) (v : ν) : (m.set k v).keySet = insert k m.keySet := by
  ext k'
  by_cases hk : k' = k <;> simp [mem_keySet, hk]

/-- The count is the number of keys. -/
theorem count_eq_card_keySet (m : OrdMap κ ν) : m.count = m.keySet.card := by
  rw [keySet, List.toFinset_card_of_nodup (keys_nodup m), keys, List.length_map]
  rfl

section GroupTotals

variable {M : Type} [AddCommGroup M] {m : OrdMap κ ν} {f : κ → ν → M} {k : κ} {v₀ : ν}

theorem sumBy_set_of_get? (hk : m.get? k = some v₀) (v : ν) :
    (m.set k v).sumBy f = m.sumBy f - f k v₀ + f k v := by
  have h := sumBy_set m f k v
  rw [hk, Option.elim_some] at h
  rw [sub_add_eq_add_sub, ← h, add_sub_cancel_right]

theorem sumBy_erase_of_get? (hk : m.get? k = some v₀) :
    (m.erase k).sumBy f = m.sumBy f - f k v₀ := by
  have h := sumBy_erase m f k
  rw [hk, Option.elim_some] at h
  rw [← h, add_sub_cancel_right]

/-- Erasing distinct keys one after another takes each one's entry off the
total; a key without an entry takes nothing. -/
theorem sumBy_foldl_erase : ∀ (l : List κ) (m : OrdMap κ ν), l.Nodup →
    (l.foldl erase m).sumBy f = m.sumBy f - (l.map fun k => (m.get? k).elim 0 (f k)).sum
  | [], _, _ => by simp
  | k₀ :: rest, m, hnd => by
    obtain ⟨hk₀, hrest⟩ := List.nodup_cons.mp hnd
    rw [List.foldl_cons, sumBy_foldl_erase rest (m.erase k₀) hrest, List.map_cons, List.sum_cons]
    -- the later keys read the same entries after `k₀` is erased
    have hsame : (rest.map fun k => ((m.erase k₀).get? k).elim 0 (f k)) =
        rest.map fun k => (m.get? k).elim 0 (f k) :=
      List.map_congr_left fun k hk => by
        have hne : k ≠ k₀ := fun h => hk₀ (h ▸ hk)
        rw [get?_erase, if_neg hne]
    rw [hsame, ← sumBy_erase m f k₀]
    abel

end GroupTotals

theorem sumBy_nonneg {M : Type} [AddCommMonoid M] [Preorder M] [AddLeftMono M]
    (m : OrdMap κ ν) {f : κ → ν → M} (hf : ∀ k v, m.get? k = some v → 0 ≤ f k v) :
    0 ≤ m.sumBy f :=
  List.sum_nonneg fun x hx => by
    obtain ⟨⟨k, v⟩, he, rfl⟩ := List.mem_map.mp hx
    exact hf k v (get?_eq_some_iff.mpr he)

/-! ## Walks in key order -/

section Walks

variable {ε σ : Type}

theorem sorted_of_keys_eq {l l' : List (κ × ν)} (hk : l'.map Prod.fst = l.map Prod.fst)
    (hs : l.Pairwise (fun a b => a.1 < b.1)) : l'.Pairwise (fun a b => a.1 < b.1) := by
  have h : (l.map Prod.fst).Pairwise (· < ·) := List.pairwise_map.mpr hs
  rw [← hk] at h
  exact List.pairwise_map.mp h

/-- A read-only walk in key order that may stop early. -/
def forEachWhile (m : OrdMap κ ν) (f : σ → κ → ν → Except ε (σ × Bool)) (s : σ) : Except ε σ :=
  Loop.foldWhile f s m.entries

/-- A read-only walk over every entry. -/
def forEach (m : OrdMap κ ν) (f : σ → κ → ν → Except ε σ) (s : σ) : Except ε σ :=
  Loop.foldWhile (Loop.always f) s m.entries

/-- A walk in key order that may rewrite the values it visits and stop early. -/
def forEachWhileMut (m : OrdMap κ ν) (f : σ → κ → ν → Except ε (σ × ν × Bool)) (s : σ) :
    Except ε (σ × OrdMap κ ν) :=
  match h : Loop.mapWhile f s m.entries with
  | .error e => .error e
  | .ok (s', l') => .ok (s', ⟨l', sorted_of_keys_eq (Loop.mapWhile_keys _ _ _ _ h) m.sorted⟩)

theorem forEachWhileMut_ok {m m' : OrdMap κ ν} {f : σ → κ → ν → Except ε (σ × ν × Bool)}
    {s s' : σ} (h : m.forEachWhileMut f s = .ok (s', m')) :
    Loop.mapWhile f s m.entries = .ok (s', m'.entries) := by
  unfold forEachWhileMut at h
  split at h
  · cases h
  · rename_i s₁ l₁ hw
    simp only [Except.ok.injEq, Prod.mk.injEq] at h
    obtain ⟨rfl, rfl⟩ := h
    exact hw

/-- **Invariant rule for `forEachWhileMut`.** The walk is the sequence of
writes of the entries it visits, in key order, each visited once with the value
it had before the walk. A property of the keys visited and the map written so
far that every such write keeps holds of the map the walk returns. -/
theorem forEachWhileMut_inv (P : σ → List κ → OrdMap κ ν → Prop)
    {f : σ → κ → ν → Except ε (σ × ν × Bool)} {m m' : OrdMap κ ν} {s s' : σ}
    (step : ∀ s ks mv k v s' v' go, P s ks mv → k ∉ ks → mv.get? k = some v →
      m.get? k = some v → f s k v = .ok (s', v', go) → P s' (ks ++ [k]) (mv.set k v'))
    (h0 : P s [] m) (h : m.forEachWhileMut f s = .ok (s', m')) : ∃ ks, P s' ks m' := by
  -- the map written so far reads as the rewritten prefix followed by the entries to come
  let I : σ → List (κ × ν) → List (κ × ν) → Prop := fun s out todo =>
    ∃ pre, m.entries = pre ++ todo ∧ out.map Prod.fst = pre.map Prod.fst ∧
      ∃ mv : OrdMap κ ν, (∀ j, mv.get? j = lookup j (out ++ todo)) ∧ P s (out.map Prod.fst) mv
  have hstep : ∀ s out k v rest s' v' go, I s out ((k, v) :: rest) →
      f s k v = .ok (s', v', go) → I s' (out ++ [(k, v')]) rest := by
    rintro s out k v rest s' v' go ⟨pre, hm, hkeys, mv, hmv, hP⟩ hf
    have hk : k ∉ out.map Prod.fst := by
      have hnd : (m.entries.map Prod.fst).Nodup := keys_nodup m
      rw [hm, List.map_append, List.map_cons] at hnd
      rw [hkeys]
      exact fun hk => List.disjoint_of_nodup_append hnd hk List.mem_cons_self
    have hget : mv.get? k = some v := by
      rw [hmv, lookup_append, lookup_eq_none hk]
      simp [lookup_cons]
    have hget₀ : m.get? k = some v := lookup_eq_some_of_mem m.sorted (by rw [hm]; simp)
    refine ⟨pre ++ [(k, v)], by simp [hm], by simp [hkeys], mv.set k v', fun j => ?_, ?_⟩
    · rw [get?_set, hmv, List.append_assoc, lookup_append, lookup_append]
      by_cases hj : j = k
      · subst hj
        simp [lookup_cons, lookup_eq_none hk]
      · simp [lookup_cons, hj]
    · rw [List.map_append, List.map_singleton]
      exact step s _ mv k v s' v' go hP hk hget hget₀ hf
  have hI₀ : I s [] m.entries := ⟨[], rfl, rfl, m, fun _ => rfl, h0⟩
  have hw := forEachWhileMut_ok h
  -- a map that reads as the walk's output is the map returned
  have hend : ∀ s out todo, I s out todo → out ++ todo = m'.entries → ∃ ks, P s ks m' := by
    rintro s out todo ⟨-, -, -, mv, hmv, hP⟩ hl
    have heq : mv = m' := ext_get? fun j => by rw [hmv, hl]; rfl
    exact ⟨_, heq ▸ hP⟩
  rcases Loop.mapWhile_cases I (fun s out k v rest s' v' hI hf => hstep s out k v rest s' v' true hI hf)
      m.entries [] s s' m'.entries hI₀ hw with hdone | ⟨pre, k, v, v', rest, s₀, hl, hI, hf, -⟩
  · exact hend s' _ [] hdone (by simp)
  · -- the walk stopped after rewriting one more entry
    rw [List.nil_append] at hI
    exact hend s' _ rest (hstep s₀ pre k v rest s' v' false hI hf) (by simp [hl])

/-- In key order, the entries whose keys satisfy a predicate closed downwards
form a prefix. -/
theorem takeWhile_eq_filter {p : κ → Bool} (hp : ∀ a b, a < b → p b = true → p a = true) :
    ∀ {l : List (κ × ν)}, l.Pairwise (fun a b => a.1 < b.1) →
      l.takeWhile (fun e => p e.1) = l.filter (fun e => p e.1)
  | [], _ => rfl
  | c :: l, hl => by
    obtain ⟨hc, hrest⟩ := List.pairwise_cons.mp hl
    cases hpc : p c.1 with
    | true =>
      rw [List.takeWhile_cons_of_pos (by simpa using hpc), List.filter_cons_of_pos (by simpa using hpc),
        takeWhile_eq_filter hp hrest]
    | false =>
      rw [List.takeWhile_cons_of_neg (by simp [hpc]), List.filter_cons_of_neg (by simp [hpc])]
      -- every later key is above `c`'s, so it fails `p` too
      refine (List.filter_eq_nil_iff.mpr fun e he hpe => ?_).symm
      have := hp _ _ (hc e he) (by simpa using hpe)
      rw [hpc] at this
      cases this

/-- A walk that takes each entry whose key satisfies `p` and stops at the first
that does not, with `p` closed downwards, visits exactly the entries whose keys
satisfy `p`. -/
theorem forEachWhile_prefix {f : σ → κ → ν → Except ε (σ × Bool)} (p : κ → Bool)
    (g : σ → κ → ν → σ) (hp : ∀ a b, a < b → p b = true → p a = true)
    (hgo : ∀ s k v, p k = true → f s k v = .ok (g s k v, true))
    (hstop : ∀ s k v, p k = false → f s k v = .ok (s, false)) (m : OrdMap κ ν) (s : σ) :
    m.forEachWhile f s =
      .ok ((m.entries.filter fun e => p e.1).foldl (fun s e => g s e.1 e.2) s) := by
  rw [forEachWhile, Loop.foldWhile_takeWhile p g hgo hstop, takeWhile_eq_filter hp m.sorted]

theorem lookup_map {ν' : Type} (h : κ → ν → ν') (k : κ) :
    ∀ l : List (κ × ν), lookup k (l.map fun e => (e.1, h e.1 e.2)) = (lookup k l).map (h k)
  | [] => rfl
  | (k', v) :: rest => by
    simp only [List.map_cons, lookup_cons]
    split_ifs with hk
    · rw [hk]
      rfl
    · exact lookup_map h k rest

/-- A walk whose body never fails or stops rewrites every value in place. -/
theorem forEachWhileMut_map {f : σ → κ → ν → Except ε (σ × ν × Bool)} (g : σ → κ → ν → σ)
    (h : κ → ν → ν) (hf : ∀ s k v, f s k v = .ok (g s k v, h k v, true)) (m : OrdMap κ ν)
    (s : σ) : ∃ m', m.forEachWhileMut f s = .ok (m.entries.foldl (fun s e => g s e.1 e.2) s, m') ∧
      ∀ k, m'.get? k = (m.get? k).map (h k) := by
  have hw := Loop.mapWhile_map g h hf m.entries s
  unfold forEachWhileMut
  split
  · rename_i e he
    rw [hw] at he
    cases he
  · rename_i s' l' he
    rw [hw] at he
    simp only [Except.ok.injEq, Prod.mk.injEq] at he
    obtain ⟨rfl, rfl⟩ := he
    exact ⟨_, rfl, fun k => lookup_map h k m.entries⟩

end Walks

/-! ## Deleting many keys -/

/-- Deletes every key of `ks` in turn; a strict delete fails on a key that is
not present. -/
def batchDelete (m : OrdMap κ ν) (ks : List κ) (strict : Bool) : Except String (OrdMap κ ν) :=
  ks.foldlM (fun m k =>
    if strict && (m.get? k).isNone then .error "no such index in batch delete" else .ok (m.erase k)) m

theorem batchDelete_get? :
    ∀ (ks : List κ) (m m' : OrdMap κ ν) (strict : Bool), m.batchDelete ks strict = .ok m' →
      ∀ k, m'.get? k = if k ∈ ks then none else m.get? k
  | [], m, m', strict, h, k => by
    simp only [batchDelete, List.foldlM_nil] at h
    cases h
    simp
  | k₀ :: ks, m, m', strict, h, k => by
    simp only [batchDelete, List.foldlM_cons] at h
    split at h
    · cases h
    · have := batchDelete_get? ks (m.erase k₀) m' strict h k
      rw [this, get?_erase]
      by_cases hk : k = k₀ <;> simp [hk]

/-- A delete that is not strict never fails. -/
theorem batchDelete_false_ok : ∀ (ks : List κ) (m : OrdMap κ ν), ∃ m', m.batchDelete ks false = .ok m'
  | [], m => ⟨m, rfl⟩
  | k :: ks, m => by
    obtain ⟨m', h⟩ := batchDelete_false_ok ks (m.erase k)
    exact ⟨m', h⟩

/-- A strict delete of distinct keys that are all present succeeds. -/
theorem batchDelete_true_ok : ∀ (ks : List κ) (m : OrdMap κ ν), ks.Nodup →
    (∀ k ∈ ks, (m.get? k).isSome) → ∃ m', m.batchDelete ks true = .ok m'
  | [], m, _, _ => ⟨m, rfl⟩
  | k :: ks, m, hnd, hks => by
    obtain ⟨hk, hnd'⟩ := List.nodup_cons.mp hnd
    -- the later keys are still present once `k` is erased
    have hrest : ∀ k' ∈ ks, ((m.erase k).get? k').isSome := fun k' hk' => by
      rw [get?_erase, if_neg (fun (h : k' = k) => hk (h ▸ hk'))]
      exact hks k' (List.mem_cons_of_mem _ hk')
    obtain ⟨m', h⟩ := batchDelete_true_ok ks (m.erase k) hnd' hrest
    refine ⟨m', ?_⟩
    simp only [batchDelete, List.foldlM_cons]
    have hk₀ := Option.isSome_iff_ne_none.mp (hks k List.mem_cons_self)
    rw [if_neg (by simpa using hk₀)]
    exact h

end OrdMap
