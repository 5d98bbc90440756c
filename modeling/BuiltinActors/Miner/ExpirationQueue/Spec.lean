import BuiltinActors.Lib.Loop
import BuiltinActors.Miner.ExpirationQueue.Memo

/-! # What the queue's helpers do

One lemma per helper of the queue, stating what a successful call returns in
terms of its inputs, so that the operations built from them are never
unfolded twice: single-entry writes (`mustUpdate`, `add`, `remove`), the
grouping of new sectors by declared expiration, the two-phase search of
`findSectorsByExpiration`, and the rewriting walk `iterWhileMut`. -/

namespace BuiltinActors.Miner

/-- The union of the sector sets of a list of groups, as the source collects
them into one bitfield. -/
def unionAll (l : List (Finset Nat)) : Finset Nat := l.foldr (· ∪ ·) ∅

@[simp] theorem mem_unionAll {l : List (Finset Nat)} {n : Nat} :
    n ∈ unionAll l ↔ ∃ s ∈ l, n ∈ s := by
  induction l with
  | nil => simp [unionAll]
  | cons s l ih => simp [unionAll, ← ih]

@[simp] theorem unionAll_nil : unionAll [] = ∅ := rfl

@[simp] theorem unionAll_singleton (s : Finset Nat) : unionAll [s] = s :=
  Finset.union_empty s

@[simp] theorem unionAll_append (l₁ l₂ : List (Finset Nat)) :
    unionAll (l₁ ++ l₂) = unionAll l₁ ∪ unionAll l₂ := by
  ext n
  simp only [mem_unionAll, List.mem_append, Finset.mem_union]
  constructor
  · rintro ⟨s, hs | hs, hn⟩
    · exact .inl ⟨s, hs, hn⟩
    · exact .inr ⟨s, hs, hn⟩
  · rintro (⟨s, hs, hn⟩ | ⟨s, hs, hn⟩)
    · exact ⟨s, .inl hs, hn⟩
    · exact ⟨s, .inr hs, hn⟩

theorem unionAll_perm {l₁ l₂ : List (Finset Nat)} (h : l₁.Perm l₂) : unionAll l₁ = unionAll l₂ := by
  ext n
  simp only [mem_unionAll]
  exact ⟨fun ⟨s, hs, hn⟩ => ⟨s, h.subset hs, hn⟩, fun ⟨s, hs, hn⟩ => ⟨s, h.symm.subset hs, hn⟩⟩

/-- A sum over disjoint groups is the sum of the groups' sums. -/
theorem sum_unionAll {M : Type} [AddCommMonoid M] (f : Nat → M) :
    ∀ {l : List (Finset Nat)}, l.Pairwise Disjoint →
      ∑ n ∈ unionAll l, f n = (l.map fun s => ∑ n ∈ s, f n).sum
  | [], _ => by simp
  | s :: l, hl => by
    have hd : Disjoint s (unionAll l) := by
      rw [Finset.disjoint_right]
      intro n hn hs
      obtain ⟨t, ht, hnt⟩ := mem_unionAll.mp hn
      exact Finset.disjoint_left.mp (List.rel_of_pairwise_cons hl ht) hs hnt
    rw [show unionAll (s :: l) = s ∪ unionAll l from rfl, Finset.sum_union hd,
      sum_unionAll f hl.of_cons, List.map_cons, List.sum_cons]

/-! ## Sector infos by number -/

section Infos

variable (info : Nat → SectorOnChainInfo) (sectors : List SectorOnChainInfo)

/-- The infos passed to an operation are those of their sector numbers. -/
def InfosAgree : Prop := ∀ s ∈ sectors, info s.sectorNumber = s

instance : Decidable (InfosAgree info sectors) :=
  inferInstanceAs (Decidable (∀ s ∈ sectors, info s.sectorNumber = s))

/-- The sector numbers of a list of infos. -/
def numbers : Finset Nat := (sectors.map SectorOnChainInfo.sectorNumber).toFinset

variable {info sectors}

theorem mem_numbers {n : Nat} : n ∈ numbers sectors ↔ ∃ s ∈ sectors, s.sectorNumber = n := by
  simp [numbers]

theorem InfosAgree.info_eq (h : InfosAgree info sectors) {s : SectorOnChainInfo}
    (hs : s ∈ sectors) {n : Nat} (hn : s.sectorNumber = n) : s = info n := by
  rw [← hn, h s hs]

theorem InfosAgree.sectorNumber_info (h : InfosAgree info sectors) {n : Nat}
    (hn : n ∈ numbers sectors) : (info n).sectorNumber = n := by
  obtain ⟨s, hs, rfl⟩ := mem_numbers.mp hn
  rw [h s hs]

/-- A later duplicate overwrites an earlier one; with agreeing infos every
number of the list finds its info. -/
theorem get?_foldl_set (h : InfosAgree info sectors) {n : Nat} :
    ∀ (l : List SectorOnChainInfo) (m : OrdMap Nat SectorOnChainInfo), l ⊆ sectors →
      (∀ s, m.get? n = some s → s = info n) → (n ∈ numbers l ∨ (m.get? n).isSome) →
      (l.foldl (fun m sector => m.set sector.sectorNumber sector) m).get? n = some (info n)
  | [], m, _, hm, hn => by
    simp only [numbers, List.map_nil, List.toFinset_nil, Finset.notMem_empty, false_or] at hn
    obtain ⟨s, hs⟩ := Option.isSome_iff_exists.mp hn
    simpa [hm s hs] using hs
  | s :: l, m, hsub, hm, hn => by
    have hs : s ∈ sectors := hsub List.mem_cons_self
    refine get?_foldl_set h l _ (fun t ht => hsub (List.mem_cons_of_mem _ ht)) ?_ ?_
    · intro t ht
      rw [OrdMap.get?_set] at ht
      split_ifs at ht with hk
      · cases ht
        exact h.info_eq hs hk.symm
      · exact hm t ht
    · rw [OrdMap.get?_set]
      by_cases hk : n = s.sectorNumber
      · simp [hk]
      · rcases hn with hn | hn
        · obtain ⟨t, ht, htn⟩ := mem_numbers.mp hn
          rcases List.mem_cons.mp ht with rfl | ht
          · exact absurd htn.symm hk
          · exact .inl (mem_numbers.mpr ⟨t, ht, htn⟩)
        · simp [hk, hn]

theorem sectorsByNumber_get? (h : InfosAgree info sectors) {n : Nat} (hn : n ∈ numbers sectors) :
    (sectorsByNumber sectors).get? n = some (info n) :=
  get?_foldl_set h sectors OrdMap.empty (fun _ hs => hs) (fun _ hs => by cases hs) (.inl hn)

/-- The info the walks look up for a listed number. -/
theorem sectorsByNumber_getD (h : InfosAgree info sectors) {n : Nat} (hn : n ∈ numbers sectors) :
    ((sectorsByNumber sectors).get? n).getD default = info n := by
  rw [sectorsByNumber_get? h hn]
  rfl

/-- Writing the infos of a list by number leaves the other numbers alone. -/
theorem get?_foldl_set_of_notMem {n : Nat} :
    ∀ (l : List SectorOnChainInfo) (m : OrdMap Nat SectorOnChainInfo), n ∉ numbers l →
      (l.foldl (fun m sector => m.set sector.sectorNumber sector) m).get? n = m.get? n
  | [], _, _ => rfl
  | s :: l, m, hn => by
    have hs : n ≠ s.sectorNumber := fun he => hn (mem_numbers.mpr ⟨s, List.mem_cons_self, he.symm⟩)
    have hl : n ∉ numbers l := fun h =>
      hn (by obtain ⟨t, ht, htn⟩ := mem_numbers.mp h; exact mem_numbers.mpr ⟨t, .tail _ ht, htn⟩)
    rw [List.foldl_cons, get?_foldl_set_of_notMem l _ hl, OrdMap.get?_set, if_neg hs]

/-- With distinct numbers, every listed info is found under its number. -/
theorem sectorsByNumber_get?_of_nodup :
    ∀ {l : List SectorOnChainInfo} (m : OrdMap Nat SectorOnChainInfo),
      (l.map SectorOnChainInfo.sectorNumber).Nodup → ∀ s ∈ l,
      (l.foldl (fun m sector => m.set sector.sectorNumber sector) m).get? s.sectorNumber = some s
  | [], _, _, _, hs => absurd hs List.not_mem_nil
  | t :: l, m, hnd, s, hs => by
    rw [List.map_cons, List.nodup_cons] at hnd
    rcases List.mem_cons.mp hs with rfl | hs
    · rw [List.foldl_cons, get?_foldl_set_of_notMem l _ (by simpa [numbers] using hnd.1),
        OrdMap.get?_set, if_pos rfl]
    · exact sectorsByNumber_get?_of_nodup _ hnd.2 s hs

/-- The infos after an operation that installs new ones: the listed sectors'
infos replace the old ones under their numbers. -/
def overrideInfos (info : Nat → SectorOnChainInfo) (sectors : List SectorOnChainInfo) :
    Nat → SectorOnChainInfo :=
  fun n => ((sectorsByNumber sectors).get? n).getD (info n)

theorem overrideInfos_agree (hnd : (sectors.map SectorOnChainInfo.sectorNumber).Nodup) :
    InfosAgree (overrideInfos info sectors) sectors := by
  intro s hs
  simp only [overrideInfos, sectorsByNumber, sectorsByNumber_get?_of_nodup _ hnd s hs,
    Option.getD_some]

theorem overrideInfos_of_notMem {n : Nat} (hn : n ∉ numbers sectors) :
    overrideInfos info sectors n = info n := by
  simp only [overrideInfos, sectorsByNumber, get?_foldl_set_of_notMem _ _ hn, OrdMap.get?_empty,
    Option.getD_none]

end Infos

/-- The totals of the sectors `found` at `epoch`, as a walk adds them up. -/
def epochSetOf (sectorSize : Nat) (info : Nat → SectorOnChainInfo) (epoch : Int)
    (found : Finset Nat) : SectorEpochSet where
  epoch := epoch
  sectors := found
  power := ∑ n ∈ found, powerForSector sectorSize (info n)
  pledge := ∑ n ∈ found, (info n).initialPledge
  dailyFee := ∑ n ∈ found, (info n).dailyFee

theorem epochSetOf_congr {sectorSize : Nat} {info info' : Nat → SectorOnChainInfo} {epoch : Int}
    {found : Finset Nat} (h : ∀ n ∈ found, info n = info' n) :
    epochSetOf sectorSize info epoch found = epochSetOf sectorSize info' epoch found := by
  simp only [epochSetOf]
  congr 1
  · exact Finset.sum_congr rfl fun n hn => by rw [h n hn]
  · exact Finset.sum_congr rfl fun n hn => by rw [h n hn]
  · exact Finset.sum_congr rfl fun n hn => by rw [h n hn]

/-! ## Grouping new sectors -/

section Grouping

variable {info : Nat → SectorOnChainInfo} {sectors : List SectorOnChainInfo} (quant : QuantSpec)

/-- The sectors of `l` by quantized expiration: each key holds, in order, the
sectors of `l` that quantize to it, after what it held before. -/
theorem get?_foldl_byExpiration :
    ∀ (l : List SectorOnChainInfo) (m : OrdMap Int (List SectorOnChainInfo)) (k : Int),
      (l.foldl (fun m sector =>
          m.set (quant.quantizeUp sector.expiration)
            ((m.get? (quant.quantizeUp sector.expiration)).getD [] ++ [sector])) m).get? k =
        if l.filter (fun s => quant.quantizeUp s.expiration = k) = [] then m.get? k
        else some ((m.get? k).getD [] ++ l.filter (fun s => quant.quantizeUp s.expiration = k))
  | [], m, k => by simp
  | s :: l, m, k => by
    rw [List.foldl_cons, get?_foldl_byExpiration l _ k, OrdMap.get?_set]
    by_cases hk : quant.quantizeUp s.expiration = k
    · subst hk
      simp
    · simp [hk, Ne.symm hk]

/-- An entry of the grouping holds exactly the sectors quantizing to its key. -/
theorem mem_byExpiration {k : Int} {ls : List SectorOnChainInfo}
    (h : (k, ls) ∈ (sectors.foldl (fun m sector =>
          m.set (quant.quantizeUp sector.expiration)
            ((m.get? (quant.quantizeUp sector.expiration)).getD [] ++ [sector]))
        OrdMap.empty).entries) :
    ls = sectors.filter (fun s => quant.quantizeUp s.expiration = k) ∧ ls ≠ [] := by
  have hget := OrdMap.lookup_eq_some_of_mem (OrdMap.sorted _) h
  change OrdMap.get? _ k = some ls at hget
  rw [get?_foldl_byExpiration] at hget
  split_ifs at hget with hnil
  · simp at hget
  · simp only [OrdMap.get?_empty, Option.getD_none, List.nil_append, Option.some.injEq] at hget
    exact ⟨hget.symm, hget ▸ hnil⟩

variable (sectorSize : Nat)

/-- The sectors of the list quantizing to `k`, as numbers. -/
theorem numbers_filter (h : InfosAgree info sectors) (k : Int) :
    ((sectors.filter fun s => quant.quantizeUp s.expiration = k).map
        SectorOnChainInfo.sectorNumber).toFinset =
      (numbers sectors).filter fun n => quant.quantizeUp (info n).expiration = k := by
  ext n
  simp only [List.mem_toFinset, List.mem_map, List.mem_filter, decide_eq_true_eq,
    Finset.mem_filter, mem_numbers]
  constructor
  · rintro ⟨s, ⟨hs, hk⟩, rfl⟩
    exact ⟨⟨s, hs, rfl⟩, by rw [← h.info_eq hs rfl, hk]⟩
  · rintro ⟨⟨s, hs, rfl⟩, hk⟩
    exact ⟨s, ⟨hs, by rw [h.info_eq hs rfl, hk]⟩, rfl⟩

/-- A sum over the sectors of a sublist is the sum over their numbers. -/
theorem sum_map_eq_sum_numbers {M : Type} [AddCommMonoid M] (h : InfosAgree info sectors)
    (w : SectorOnChainInfo → M) {ls : List SectorOnChainInfo} (hls : ls ⊆ sectors)
    (hnd : (ls.map SectorOnChainInfo.sectorNumber).Nodup) :
    (ls.map w).sum = ∑ n ∈ (ls.map SectorOnChainInfo.sectorNumber).toFinset, w (info n) := by
  rw [List.sum_toFinset _ hnd, List.map_map]
  congr 1
  exact List.map_congr_left fun s hs => by rw [Function.comp_apply, h s (hls hs)]

/-- **Grouping new sectors.** With agreeing infos and distinct numbers, the
groups have distinct epochs; each holds the listed sectors whose expiration
quantizes to its epoch, with their totals; and every listed sector is in the
group of its quantized expiration. -/
theorem groupNewSectorsByDeclaredExpiration_spec (h : InfosAgree info sectors)
    (hnd : (sectors.map SectorOnChainInfo.sectorNumber).Nodup) :
    ((groupNewSectorsByDeclaredExpiration sectorSize sectors quant).map SectorEpochSet.epoch).Nodup ∧
      (∀ g ∈ groupNewSectorsByDeclaredExpiration sectorSize sectors quant,
        g = epochSetOf sectorSize info g.epoch
          ((numbers sectors).filter fun n => quant.quantizeUp (info n).expiration = g.epoch) ∧
        g.sectors.Nonempty) ∧
      ∀ n ∈ numbers sectors, ∃ g ∈ groupNewSectorsByDeclaredExpiration sectorSize sectors quant,
        g.epoch = quant.quantizeUp (info n).expiration := by
  set byExpiration := sectors.foldl (fun m sector =>
      m.set (quant.quantizeUp sector.expiration)
        ((m.get? (quant.quantizeUp sector.expiration)).getD [] ++ [sector])) OrdMap.empty
  refine ⟨?_, ?_, ?_⟩
  · -- the epochs are the keys of the grouping map
    have hkeys : (groupNewSectorsByDeclaredExpiration sectorSize sectors quant).map
        SectorEpochSet.epoch = byExpiration.keys := by
      simp only [groupNewSectorsByDeclaredExpiration, List.map_map, OrdMap.keys]
      refine List.map_congr_left fun e _ => ?_
      cases e
      rfl
    rw [hkeys]
    exact OrdMap.keys_nodup _
  · intro g hg
    obtain ⟨⟨k, ls⟩, hmem, rfl⟩ := List.mem_map.mp hg
    obtain ⟨rfl, hne⟩ := mem_byExpiration quant hmem
    have hsub : sectors.filter (fun s => quant.quantizeUp s.expiration = k) ⊆ sectors :=
      fun s hs => List.mem_of_mem_filter hs
    have hnd' : ((sectors.filter fun s => quant.quantizeUp s.expiration = k).map
        SectorOnChainInfo.sectorNumber).Nodup := hnd.sublist (List.filter_sublist.map _)
    refine ⟨?_, ?_⟩
    · simp only [epochSetOf, ← numbers_filter quant h]
      congr 1
      · exact sum_map_eq_sum_numbers h _ hsub hnd'
      · exact sum_map_eq_sum_numbers h _ hsub hnd'
      · exact sum_map_eq_sum_numbers h _ hsub hnd'
    · obtain ⟨s, hs⟩ := List.exists_mem_of_ne_nil _ hne
      exact ⟨s.sectorNumber, List.mem_toFinset.mpr (List.mem_map_of_mem hs)⟩
  · intro n hn
    obtain ⟨s, hs, rfl⟩ := mem_numbers.mp hn
    set k := quant.quantizeUp s.expiration
    have hne : sectors.filter (fun s => quant.quantizeUp s.expiration = k) ≠ [] :=
      List.ne_nil_of_mem (List.mem_filter.mpr ⟨hs, by simp [k]⟩)
    have hget : byExpiration.get? k =
        some (sectors.filter fun s => quant.quantizeUp s.expiration = k) := by
      simp only [byExpiration]
      rw [get?_foldl_byExpiration, if_neg hne]
      simp
    refine ⟨_, List.mem_map_of_mem (OrdMap.mem_of_lookup_eq_some hget), ?_⟩
    rw [h s hs]

end Grouping

/-! ## Writing one entry -/

namespace ExpirationQueue

variable {q q' : ExpirationQueue}

@[simp] theorem mustUpdate_quant (e : Int) (es : ExpirationSet) : (q.mustUpdate e es).quant = q.quant :=
  rfl

@[simp] theorem get?_mustUpdate (e : Int) (es : ExpirationSet) (k : Int) :
    (q.mustUpdate e es).amt.get? k = if k = e then some es else q.amt.get? k :=
  OrdMap.get?_set _ _ _ _

@[simp] theorem mustUpdateOrDelete_quant (e : Int) (es : ExpirationSet) :
    (q.mustUpdateOrDelete e es).quant = q.quant := by
  unfold mustUpdateOrDelete
  split_ifs <;> rfl

theorem get?_mustUpdateOrDelete (e : Int) (es : ExpirationSet) (k : Int) :
    (q.mustUpdateOrDelete e es).amt.get? k =
      if k = e then (if es.isEmpty then none else some es) else q.amt.get? k := by
  unfold mustUpdateOrDelete
  split_ifs with h₁ h₂ <;> simp_all [OrdMap.get?_erase]

theorem mayGet_eq (k : Int) : q.mayGet k = (q.amt.get? k).getD ExpirationSet.empty := rfl

/-- `add` writes the entry at the quantized epoch with the values added. -/
theorem add_ok {raw : Int} {onTime early : Finset Nat} {active faulty : PowerPair}
    {pledge fee : Int} (h : q.add raw onTime early active faulty pledge fee = .ok q') :
    q' = q.mustUpdate (q.quant.quantizeUp raw)
      ((q.mayGet (q.quant.quantizeUp raw)).union ⟨onTime, early, pledge, active, faulty, fee⟩) := by
  simp only [add, Except.bind_eq_ok, Except.mapError_eq_ok, Except.pure_eq_ok] at h
  obtain ⟨es', hes, rfl⟩ := h
  rw [ExpirationSet.add_ok hes]

theorem add_quant {raw : Int} {onTime early : Finset Nat} {active faulty : PowerPair}
    {pledge fee : Int} (h : q.add raw onTime early active faulty pledge fee = .ok q') :
    q'.quant = q.quant := by
  rw [add_ok h]
  rfl

/-- `remove` finds the entry at the quantized epoch holding the sectors, and
writes it back with the values subtracted, or deletes it if it is left empty. -/
theorem remove_ok {raw : Int} {onTime early : Finset Nat} {active faulty : PowerPair}
    {pledge fee : Int} (h : q.remove raw onTime early active faulty pledge fee = .ok q') :
    ∃ es, q.amt.get? (q.quant.quantizeUp raw) = some es ∧ onTime ⊆ es.onTimeSectors ∧
      early ⊆ es.earlySectors ∧
      q' = q.mustUpdateOrDelete (q.quant.quantizeUp raw)
        ⟨es.onTimeSectors \ onTime, es.earlySectors \ early, es.onTimePledge - pledge,
          es.activePower - active, es.faultyPower - faulty, es.feeDeduction - fee⟩ := by
  unfold remove at h
  rcases hget : q.amt.get? (q.quant.quantizeUp raw) with _ | es
  · simp [hget] at h
  · simp only [hget, Except.bind_eq_ok, Except.mapError_eq_ok, Except.pure_eq_ok] at h
    obtain ⟨es', hes, rfl⟩ := h
    obtain ⟨h₁, h₂, rfl⟩ := ExpirationSet.remove_ok hes
    exact ⟨es, rfl, h₁, h₂, rfl⟩

theorem remove_quant {raw : Int} {onTime early : Finset Nat} {active faulty : PowerPair}
    {pledge fee : Int} (h : q.remove raw onTime early active faulty pledge fee = .ok q') :
    q'.quant = q.quant := by
  obtain ⟨_, -, -, -, rfl⟩ := remove_ok h
  exact mustUpdateOrDelete_quant _ _

/-! ## The quantization never changes -/

theorem addGroups_quant : ∀ {groups : List SectorEpochSet} {q q' : ExpirationQueue},
    q.addGroups groups = .ok q' → q'.quant = q.quant
  | [], _, _, h => by cases h; rfl
  | _ :: _, _, _, h => by
    simp only [addGroups, Except.bind_eq_ok, Except.mapError_eq_ok] at h
    obtain ⟨_, h₁, h⟩ := h
    rw [addGroups_quant h, add_quant h₁]

theorem removeGroups_quant : ∀ {groups : List SectorExpirationSet} {q q' : ExpirationQueue},
    q.removeGroups groups = .ok q' → q'.quant = q.quant
  | [], _, _, h => by cases h; rfl
  | _ :: _, _, _, h => by
    simp only [removeGroups, Except.bind_eq_ok] at h
    obtain ⟨_, h₁, h⟩ := h
    rw [removeGroups_quant h, remove_quant h₁]

theorem faultGroups_quant {nqe : Int} :
    ∀ {groups : List SectorExpirationSet} {q q' : ExpirationQueue}
      {r : Finset Nat × PowerPair × PowerPair × Int},
      faultGroups nqe q groups = .ok (q', r) → q'.quant = q.quant
  | [], _, _, _, h => by cases h; rfl
  | _ :: _, _, _, _, h => by
    simp only [faultGroups, Except.bind_eq_ok, Except.pure_eq_ok, Prod.mk.injEq] at h
    obtain ⟨_, -, _, h₁, rfl, -⟩ := h
    rw [faultGroups_quant h₁, mustUpdateOrDelete_quant]

theorem addActiveSectors_quant {sectors : List SectorOnChainInfo} {sectorSize : Nat}
    {r : Finset Nat × PowerPair × Int × Int}
    (h : q.addActiveSectors sectors sectorSize = .ok (q', r)) : q'.quant = q.quant := by
  simp only [addActiveSectors, Except.bind_eq_ok, Except.pure_eq_ok, Prod.mk.injEq] at h
  obtain ⟨_, h₁, rfl, -⟩ := h
  exact addGroups_quant h₁

theorem removeActiveSectors_quant {sectors : List SectorOnChainInfo} {sectorSize : Nat}
    {r : Finset Nat × PowerPair × Int × Int}
    (h : q.removeActiveSectors sectors sectorSize = .ok (q', r)) : q'.quant = q.quant := by
  simp only [removeActiveSectors, Except.bind_eq_ok, Except.pure_eq_ok, Prod.mk.injEq] at h
  obtain ⟨_, -, _, h₁, rfl, -⟩ := h
  exact removeGroups_quant h₁

/-! ## Finding sectors by expiration -/

section Search

/-- What the search of `findSectorsByExpiration` has established about its
groups and the sectors still to find: each group took, from an entry of the
queue, all the sectors still to find that are on time there; the groups have
distinct epochs and disjoint sectors; and with the sectors still to find they
make up `R`. -/
structure Found (q : ExpirationQueue) (sectorSize : Nat) (byNumber : OrdMap Nat SectorOnChainInfo)
    (R : Finset Nat) (acc : List SectorExpirationSet × Finset Nat) : Prop where
  group : ∀ g ∈ acc.1, q.amt.get? g.sectorEpochSet.epoch = some g.expirationSet ∧
    g.sectorEpochSet = epochSetOf sectorSize (fun u => (byNumber.get? u).getD default)
      g.sectorEpochSet.epoch g.sectorEpochSet.sectors ∧
    g.sectorEpochSet.sectors.Nonempty ∧ g.sectorEpochSet.sectors ⊆ g.expirationSet.onTimeSectors ∧
    Disjoint g.expirationSet.onTimeSectors acc.2
  epochs : (acc.1.map (·.sectorEpochSet.epoch)).Nodup
  disjoint : (acc.1.map (·.sectorEpochSet.sectors)).Pairwise Disjoint
  cover : acc.2 ∪ unionAll (acc.1.map (·.sectorEpochSet.sectors)) = R
  remaining_sub : acc.2 ⊆ R

variable {sectorSize : Nat} {byNumber : OrdMap Nat SectorOnChainInfo} {R : Finset Nat}

theorem Found.init : Found q sectorSize byNumber R ([], R) :=
  ⟨by simp, .nil, .nil, by simp, subset_rfl⟩

/-- One step of the search keeps what it has established. -/
theorem Found.step {acc : List SectorExpirationSet × Finset Nat} {es : ExpirationSet} {k : Int}
    (hF : Found q sectorSize byNumber R acc) (hes : q.mayGet k = es) :
    Found q sectorSize byNumber R (groupAt sectorSize byNumber acc es k) := by
  obtain ⟨groups, remaining⟩ := acc
  set found := es.onTimeSectors.filter (· ∈ remaining) with hfound
  by_cases hf : found = ∅
  · have hres : groupAt sectorSize byNumber (groups, remaining) es k = (groups, remaining) := by
      simp [groupAt, groupExpirationSet, ← hfound, hf]
    rw [hres]
    exact hF
  · have hres : groupAt sectorSize byNumber (groups, remaining) es k =
        (groups ++ [⟨epochSetOf sectorSize (fun u => (byNumber.get? u).getD default) k found, es⟩],
          remaining \ found) := by
      simp only [groupAt, groupExpirationSet, ← hfound, hf, if_false]
      rfl
    rw [hres]
    have hne : found.Nonempty := Finset.nonempty_iff_ne_empty.mpr hf
    -- the entry exists, since the empty default has no sectors
    have hget : q.amt.get? k = some es := by
      rcases hq : q.amt.get? k with _ | es'
      · rw [mayGet_eq, hq] at hes
        subst hes
        exact absurd (by simp [hfound, ExpirationSet.empty]) hf
      · rw [mayGet_eq, hq] at hes
        rw [← hes]
        rfl
    have hsub : found ⊆ remaining := fun n hn => (Finset.mem_filter.mp hn).2
    -- every sector of the entry still to find is in the new group
    have hdisj : Disjoint es.onTimeSectors (remaining \ found) := by
      rw [Finset.disjoint_left]
      intro n hn hr
      obtain ⟨hr, hnf⟩ := Finset.mem_sdiff.mp hr
      exact hnf (Finset.mem_filter.mpr ⟨hn, hr⟩)
    have hold : ∀ g ∈ groups, Disjoint g.sectorEpochSet.sectors found := fun g hg =>
      Finset.disjoint_of_subset_right hsub
        (Finset.disjoint_of_subset_left (hF.group g hg).2.2.2.1 (hF.group g hg).2.2.2.2)
    refine ⟨?_, ?_, ?_, ?_, ?_⟩
    · intro g hg
      rcases List.mem_append.mp hg with hg | hg
      · obtain ⟨h₁, h₂, h₃, h₄, h₅⟩ := hF.group g hg
        exact ⟨h₁, h₂, h₃, h₄, Finset.disjoint_of_subset_right Finset.sdiff_subset h₅⟩
      · rcases List.mem_singleton.mp hg with rfl
        exact ⟨hget, rfl, hne, Finset.filter_subset _ _, hdisj⟩
    · -- a second group at an epoch would have found nothing
      rw [List.map_append, List.nodup_append]
      refine ⟨hF.epochs, List.nodup_singleton _, ?_⟩
      intro e he e' he' hee
      obtain ⟨g, hg, rfl⟩ := List.mem_map.mp he
      rcases List.mem_singleton.mp he' with rfl
      obtain ⟨h₁, -, -, -, h₅⟩ := hF.group g hg
      have hes' : g.expirationSet = es := by
        rw [hee] at h₁
        exact Option.some.inj (h₁.symm.trans hget)
      obtain ⟨n, hn⟩ := hne
      obtain ⟨hn₁, hn₂⟩ := Finset.mem_filter.mp hn
      exact Finset.disjoint_left.mp h₅ (hes' ▸ hn₁) hn₂
    · rw [List.map_append, List.pairwise_append]
      refine ⟨hF.disjoint, List.pairwise_singleton _ _, ?_⟩
      intro a ha b hb
      obtain ⟨g, hg, rfl⟩ := List.mem_map.mp ha
      rcases List.mem_singleton.mp hb with rfl
      exact hold g hg
    · rw [← hF.cover, List.map_append, unionAll_append]
      ext n
      simp only [Finset.mem_union, Finset.mem_sdiff, List.map_cons, List.map_nil, mem_unionAll,
        List.mem_singleton, exists_eq_left, epochSetOf]
      constructor
      · rintro (⟨hn, -⟩ | hn | hn)
        · exact .inl hn
        · exact .inr hn
        · exact .inl (hsub hn)
      · rintro (hn | hn)
        · by_cases hnf : n ∈ found
          · exact .inr (.inr hnf)
          · exact .inl ⟨hn, hnf⟩
        · exact .inr (.inl hn)
    · exact Finset.sdiff_subset.trans hF.remaining_sub

theorem Found.foldl_step : ∀ (keys : List Int) (acc : List SectorExpirationSet × Finset Nat),
    Found q sectorSize byNumber R acc →
      Found q sectorSize byNumber R (keys.foldl (fun acc expiration =>
        groupAt sectorSize byNumber acc (q.mayGet expiration) expiration) acc)
  | [], _, hF => hF
  | _ :: keys, _, hF => Found.foldl_step keys _ (hF.step rfl)

/-- The walk of the second phase keeps what the search has established, for
any body that either skips an entry or takes a step at it. -/
theorem Found.forEachWhile {f : List SectorExpirationSet × Finset Nat → Int → ExpirationSet →
      Except String ((List SectorExpirationSet × Finset Nat) × Bool)}
    (hf : ∀ acc k es acc' go, f acc k es = .ok (acc', go) →
      acc' = acc ∨ acc' = groupAt sectorSize byNumber acc es k)
    {acc acc' : List SectorExpirationSet × Finset Nat} (hF : Found q sectorSize byNumber R acc)
    (h : q.amt.forEachWhile f acc = .ok acc') : Found q sectorSize byNumber R acc' := by
  -- a visited entry is one of the queue's, so its lookup is the entry itself
  have hvisit : ∀ acc k es acc' go done rest, done ++ (k, es) :: rest = q.amt.entries →
      Found q sectorSize byNumber R acc → f acc k es = .ok (acc', go) →
      Found q sectorSize byNumber R acc' := by
    intro acc k es acc' go done rest hl hF hstep
    have hmem : (k, es) ∈ q.amt.entries := by rw [← hl]; simp
    have hget : q.mayGet k = es := by
      rw [mayGet_eq, show q.amt.get? k = some es from OrdMap.lookup_eq_some_of_mem q.amt.sorted hmem]
      rfl
    rcases hf acc k es acc' go hstep with rfl | rfl
    · exact hF
    · exact hF.step hget
  rcases Loop.foldWhile_cases (fun acc done todo => Found q sectorSize byNumber R acc ∧
      done ++ todo = q.amt.entries)
      (fun acc done k es rest acc' hI hstep =>
        ⟨hvisit acc k es acc' true done rest hI.2 hI.1 hstep, by simpa using hI.2⟩)
      q.amt.entries [] acc acc' ⟨hF, rfl⟩ h with hend | ⟨pre, k, es, rest, acc₀, hl, hI, hstep⟩
  · exact hend.1
  · exact hvisit acc₀ k es acc' false pre rest (by rw [hI.2.symm]; simp) hI.1 hstep

/-- Reordering the groups keeps what the search has established. -/
theorem Found.perm {l l' : List SectorExpirationSet} {r : Finset Nat}
    (hF : Found q sectorSize byNumber R (l, r)) (hp : l.Perm l') :
    Found q sectorSize byNumber R (l', r) where
  group g hg := hF.group g (hp.symm.subset hg)
  epochs := (hp.map _).nodup_iff.mp hF.epochs
  disjoint := ((hp.map _).pairwise_iff fun h => Disjoint.symm h).mp hF.disjoint
  cover := by
    rw [← hF.cover]
    exact congrArg (r ∪ ·) (unionAll_perm (hp.map _)).symm
  remaining_sub := hF.remaining_sub

/-- A search that has found everything ends sorted by epoch. -/
theorem Found.mergeSort {acc : List SectorExpirationSet × Finset Nat}
    (hF : Found q sectorSize byNumber R acc) (h0 : acc.2 = ∅)
    (le : SectorExpirationSet → SectorExpirationSet → Bool) :
    Found q sectorSize byNumber R (acc.1.mergeSort le, ∅) := by
  obtain ⟨l, r⟩ := acc
  dsimp only at h0
  subst h0
  exact hF.perm (List.mergeSort_perm l le).symm

/-- **Finding sectors by expiration.** A successful search returns groups
that together hold exactly the listed sectors, each taking from an entry of
the queue all the listed sectors on time there, with distinct epochs. -/
theorem findSectorsByExpiration_ok {sectors : List SectorOnChainInfo}
    {groups : List SectorExpirationSet}
    (h : q.findSectorsByExpiration sectorSize sectors = .ok groups) :
    Found q sectorSize (sectorsByNumber sectors) (numbers sectors) (groups, ∅) := by
  unfold findSectorsByExpiration at h
  dsimp only at h
  generalize List.foldl (fun m sector => m.set (q.quant.quantizeUp sector.expiration) true)
    OrdMap.empty sectors = declared at h
  generalize hacc₁ : List.foldl (fun acc expiration =>
    groupAt sectorSize (sectorsByNumber sectors) acc (q.mayGet expiration) expiration)
    ([], (sectors.map SectorOnChainInfo.sectorNumber).toFinset) declared.keys = acc₁ at h
  have hF₁ : Found q sectorSize (sectorsByNumber sectors) (numbers sectors) acc₁ := by
    rw [← hacc₁]
    exact Found.foldl_step _ _ Found.init
  split at h
  · -- every sector was found at its declared epoch
    simp only [Except.bind_eq_ok, Except.pure_eq_ok, Except.throw_bind, Except.ite_throw_eq_ok,
      not_not] at h
    obtain ⟨a, rfl, h0, rfl⟩ := h
    exact hF₁.mergeSort h0 _
  · -- the walk skips declared epochs and takes a step at every other
    simp only [Except.bind_eq_ok, Except.pure_eq_ok, Except.throw_bind, Except.ite_throw_eq_ok,
      not_not] at h
    obtain ⟨a, hwalk, h0, rfl⟩ := h
    refine (Found.forEachWhile ?_ hF₁ hwalk).mergeSort h0 _
    intro acc k es acc' go hf
    split at hf
    · simp only [Except.pure_eq_ok, Prod.mk.injEq] at hf
      exact .inl hf.1.symm
    · simp only [Except.bind_eq_ok, Except.pure_eq_ok, Prod.mk.injEq] at hf
      obtain ⟨-, -, rfl, -⟩ := hf
      exact .inr rfl

end Search

/-! ## The walk of `rescheduleAllAsFaults` -/

/-- An entry due by the fault epoch, with all its power faulty. -/
def faultAll (es : ExpirationSet) : ExpirationSet :=
  { es with faultyPower := es.faultyPower + es.activePower, activePower := 0 }

/-- What the walk of `rescheduleAllAsFaults` collects from the entries it
visits: the entries after the fault epoch to move, and those due by it with
their power turned faulty. -/
def allFaultsOf (qfe : Int) (entries : List (Int × ExpirationSet)) : AllFaults where
  rescheduledEpochs := (entries.filter fun e => ¬ e.1 ≤ qfe).map Prod.fst
  rescheduledSectors := unionAll ((entries.filter fun e => ¬ e.1 ≤ qfe).map (·.2.onTimeSectors))
  rescheduledPower :=
    ((entries.filter fun e => ¬ e.1 ≤ qfe).map fun e => e.2.activePower + e.2.faultyPower).sum
  rescheduledDailyFee := ((entries.filter fun e => ¬ e.1 ≤ qfe).map (·.2.feeDeduction)).sum
  mutatedExpirationSets := (entries.filter fun e => e.1 ≤ qfe).map fun e => (e.1, faultAll e.2)

/-- The walk collects `allFaultsOf` all entries, and succeeds only if no
entry after the fault epoch has early sectors. -/
theorem forEach_allFaultsStep {m : OrdMap Int ExpirationSet} {qfe : Int} {acc : AllFaults}
    (h : m.forEach (allFaultsStep qfe) ⟨[], ∅, 0, 0, []⟩ = .ok acc) :
    acc = allFaultsOf qfe m.entries ∧
      ∀ e ∈ m.entries, ¬ e.1 ≤ qfe → e.2.earlySectors = ∅ := by
  refine Loop.foldWhile_always (fun acc done _ => acc = allFaultsOf qfe done ∧
    ∀ e ∈ done, ¬ e.1 ≤ qfe → e.2.earlySectors = ∅) ?_ ⟨rfl, by simp⟩ h
  rintro acc done k v rest acc' ⟨rfl, hearly⟩ hstep
  unfold allFaultsStep at hstep
  split_ifs at hstep with hk hne
  · cases hstep
    refine ⟨?_, fun e he hgt => ?_⟩
    · simp [allFaultsOf, List.filter_append, hk, faultAll]
    · rcases List.mem_append.mp he with he | he
      · exact hearly e he hgt
      · rcases List.mem_singleton.mp he with rfl
        exact absurd hk hgt
  · cases hstep
    refine ⟨?_, fun e he hgt => ?_⟩
    · simp [allFaultsOf, List.filter_append, not_le.mp hk, add_assoc]
    · rcases List.mem_append.mp he with he | he
      · exact hearly e he hgt
      · rcases List.mem_singleton.mp he with rfl
        exact not_not.mp hne

/-- Writing back entries one by one: a failed check still fails the call. -/
theorem mustUpdateAll_ok : ∀ {l : List (Int × ExpirationSet)} {q q' : ExpirationQueue},
    q.mustUpdateAll l = .ok q' → q' = l.foldl (fun q e => q.mustUpdate e.1 e.2) q
  | [], _, _, h => by cases h; rfl
  | (_, _) :: _, _, _, h => by
    simp only [mustUpdateAll, Except.bind_eq_ok] at h
    obtain ⟨_, -, h⟩ := h
    rw [mustUpdateAll_ok h]
    rfl

theorem quant_foldl_mustUpdate : ∀ (l : List (Int × ExpirationSet)) (q : ExpirationQueue),
    (l.foldl (fun q e => q.mustUpdate e.1 e.2) q).quant = q.quant
  | [], _ => rfl
  | _ :: l, _ => quant_foldl_mustUpdate l _

/-- Writing transformed values back at keys of the queue, one key at a time. -/
theorem get?_foldl_mustUpdate (T : ExpirationSet → ExpirationSet) :
    ∀ (l : List (Int × ExpirationSet)) (q : ExpirationQueue), (∀ e ∈ l, q.amt.get? e.1 = some e.2) →
      (l.map Prod.fst).Nodup → ∀ k,
      ((l.map fun e => (e.1, T e.2)).foldl (fun q e => q.mustUpdate e.1 e.2) q).amt.get? k =
        if k ∈ l.map Prod.fst then (q.amt.get? k).map T else q.amt.get? k
  | [], _, _, _, k => by simp
  | e :: l, q, hl, hnd, k => by
    rw [List.map_cons, List.nodup_cons] at hnd
    have hl' : ∀ e' ∈ l, (q.mustUpdate e.1 (T e.2)).amt.get? e'.1 = some e'.2 := by
      intro e' he'
      have hne : e'.1 ≠ e.1 := fun h => hnd.1 (h ▸ List.mem_map_of_mem he')
      rw [get?_mustUpdate, if_neg hne]
      exact hl e' (List.mem_cons_of_mem _ he')
    rw [List.map_cons, List.foldl_cons, get?_foldl_mustUpdate T l _ hl' hnd.2 k, get?_mustUpdate]
    by_cases hk : k = e.1
    · subst hk
      simp [hnd.1, hl e List.mem_cons_self]
    · simp only [List.map_cons, List.mem_cons, hk, false_or, if_false]

/-! ## Walks that rewrite entries -/

theorem iterWhileMut_quant {σ : Type}
    {f : σ → Int → ExpirationSet → Except String (σ × ExpirationSet × Bool)} {s s' : σ}
    (h : q.iterWhileMut f s = .ok (s', q')) : q'.quant = q.quant := by
  simp only [iterWhileMut, Except.bind_eq_ok, Except.pure_eq_ok] at h
  obtain ⟨_, -, _, -, heq⟩ := h
  rw [← (Prod.mk.inj heq).2]

/-- **Invariant rule for `iterWhileMut`.** The walk is the sequence of writes
of the entries it visits, each with its value before the walk, an entry left
empty deleted instead. -/
theorem iterWhileMut_inv {σ : Type} (P : σ → ExpirationQueue → Prop)
    {f : σ → Int → ExpirationSet → Except String (σ × ExpirationSet × Bool)} {s s' : σ}
    (step : ∀ s qv k es s' es' go, P s qv → qv.quant = q.quant → qv.amt.get? k = some es →
      q.amt.get? k = some es → f s k es = .ok (s', es', go) → P s' (qv.mustUpdateOrDelete k es'))
    (h0 : P s q) (h : q.iterWhileMut f s = .ok (s', q')) : P s' q' := by
  simp only [iterWhileMut, Except.bind_eq_ok, Except.pure_eq_ok] at h
  obtain ⟨⟨⟨s₁, emptied⟩, amt⟩, hwalk, amt', hdel, heq⟩ := h
  obtain ⟨rfl, rfl⟩ := Prod.mk.inj heq
  -- the queue written so far reads as the walk's map without the keys it emptied
  let Q : σ × List Int → List Int → OrdMap Int ExpirationSet → Prop := fun t ks mv =>
    ∃ qv : ExpirationQueue, P t.1 qv ∧ qv.quant = q.quant ∧
      (∀ j, qv.amt.get? j = if j ∈ t.2 then none else mv.get? j) ∧ ∀ j ∈ t.2, j ∈ ks
  have hstep : ∀ t ks mv k v t' v' go, Q t ks mv → k ∉ ks → mv.get? k = some v →
      q.amt.get? k = some v →
      (do
        let r ← f t.1 k v
        pure ((r.1, if r.2.1.isEmpty = true then t.2 ++ [k] else t.2), r.2.1, r.2.2) :
        Except String ((σ × List Int) × ExpirationSet × Bool)) = .ok (t', v', go) →
      Q t' (ks ++ [k]) (mv.set k v') := by
    rintro ⟨s₀, em⟩ ks mv k v t' v' go ⟨qv, hP, hquant, hget, hks⟩ hk hmv hm hf
    simp only [Except.bind_eq_ok, Except.pure_eq_ok] at hf
    obtain ⟨⟨s₂, es₂, go₂⟩, hf, heq⟩ := hf
    simp only [Prod.mk.injEq] at heq
    obtain ⟨rfl, rfl, rfl⟩ := heq
    have hkem : k ∉ em := fun h => hk (hks k h)
    have hqv : qv.amt.get? k = some v := by rw [hget, if_neg hkem, hmv]
    refine ⟨qv.mustUpdateOrDelete k es₂, step _ _ _ _ _ _ _ hP hquant hqv hm hf,
      by rw [mustUpdateOrDelete_quant, hquant], fun j => ?_, fun j hj => ?_⟩
    · rw [get?_mustUpdateOrDelete, OrdMap.get?_set, hget]
      by_cases hj : j = k
      · subst hj
        by_cases he : es₂.isEmpty = true <;> simp [he, hkem]
      · by_cases he : es₂.isEmpty = true <;> simp [he, hj]
    · split_ifs at hj
      · rcases List.mem_append.mp hj with hj | hj
        · exact List.mem_append_left _ (hks j hj)
        · exact List.mem_append_right _ hj
      · exact List.mem_append_left _ (hks j hj)
  obtain ⟨ks, ⟨amtv, quantv⟩, hP, hquant, hget, -⟩ := OrdMap.forEachWhileMut_inv Q hstep
    ⟨q, h0, rfl, fun j => by simp, by simp⟩ hwalk
  -- the deletions afterwards leave exactly that queue
  have hamt : amtv = amt' := OrdMap.ext_get? fun j => by
    rw [hget j, OrdMap.batchDelete_get? _ _ _ _ hdel j]
  cases hamt
  cases hquant
  exact hP

/-! ## The quantization never changes -/

theorem rescheduleExpirations_quant {e : Int} {sectors : List SectorOnChainInfo} {sectorSize : Nat}
    (h : q.rescheduleExpirations e sectors sectorSize = .ok q') : q'.quant = q.quant := by
  unfold rescheduleExpirations at h
  split at h
  · cases h
    rfl
  · simp only [Except.bind_eq_ok, Except.mapError_eq_ok] at h
    obtain ⟨_, h₁, h₂⟩ := h
    rw [add_quant h₂, removeActiveSectors_quant h₁]

theorem rescheduleAsFaults_quant {e : Int} {sectors : List SectorOnChainInfo} {sectorSize : Nat}
    {power : PowerPair} (h : q.rescheduleAsFaults e sectors sectorSize = .ok (q', power)) :
    q'.quant = q.quant := by
  simp only [rescheduleAsFaults, Except.bind_eq_ok] at h
  obtain ⟨_, -, ⟨q₁, _⟩, h₁, h⟩ := h
  split at h
  · simp only [Except.bind_eq_ok, Except.pure_eq_ok, Prod.mk.injEq] at h
    obtain ⟨_, h₂, rfl, -⟩ := h
    rw [add_quant h₂, faultGroups_quant h₁]
  · simp only [pure_bind, Except.pure_eq_ok, Prod.mk.injEq] at h
    obtain ⟨rfl, -⟩ := h
    exact faultGroups_quant h₁

theorem rescheduleAllAsFaults_quant {e : Int}
    (h : q.rescheduleAllAsFaults e = .ok q') : q'.quant = q.quant := by
  simp only [rescheduleAllAsFaults, Except.bind_eq_ok] at h
  obtain ⟨_, -, q₁, h₁, h⟩ := h
  have hq₁ : q₁.quant = q.quant := by rw [mustUpdateAll_ok h₁, quant_foldl_mustUpdate]
  split at h
  · cases h
    exact hq₁
  · simp only [Except.bind_eq_ok, Except.pure_eq_ok] at h
    obtain ⟨q₂, h₂, _, -, rfl⟩ := h
    rw [← hq₁, ← add_quant h₂]

theorem rescheduleRecovered_quant {sectors : List SectorOnChainInfo} {sectorSize : Nat}
    {power : PowerPair} (h : q.rescheduleRecovered sectors sectorSize = .ok (q', power)) :
    q'.quant = q.quant := by
  simp only [rescheduleRecovered, Except.bind_eq_ok] at h
  obtain ⟨⟨_, q₁⟩, h₁, h⟩ := h
  split_ifs at h
  · simp at h
  simp only [Except.bind_eq_ok, Except.pure_eq_ok, Prod.mk.injEq] at h
  obtain ⟨_, h₂, rfl, -⟩ := h
  rw [addActiveSectors_quant h₂, iterWhileMut_quant h₁]

theorem replaceSectors_quant {old new : List SectorOnChainInfo} {sectorSize : Nat}
    {r : Finset Nat × Finset Nat × PowerPair × Int × Int}
    (h : q.replaceSectors old new sectorSize = .ok (q', r)) : q'.quant = q.quant := by
  simp only [replaceSectors, Except.bind_eq_ok, Except.mapError_eq_ok, Except.pure_eq_ok,
    Prod.mk.injEq] at h
  obtain ⟨_, h₁, _, h₂, rfl, -⟩ := h
  rw [addActiveSectors_quant h₂, removeActiveSectors_quant h₁]

theorem removeSectors_quant {addressedSectorsMax : Nat} {sectors : List SectorOnChainInfo}
    {faults recovering : Finset Nat} {sectorSize : Nat} {r : ExpirationSet × PowerPair}
    (h : q.removeSectors addressedSectorsMax sectors faults recovering sectorSize = .ok (q', r)) :
    q'.quant = q.quant := by
  unfold removeSectors at h
  by_cases hf : faults.card > addressedSectorsMax
  · rw [if_pos hf] at h
    simp at h
  rw [if_neg hf] at h
  by_cases hr : recovering.card > addressedSectorsMax
  · rw [if_pos hr] at h
    simp at h
  rw [if_neg hr] at h
  simp only [Except.bind_eq_ok, Except.mapError_eq_ok] at h
  obtain ⟨_, h₁, ⟨_, q₂⟩, h₂, h⟩ := h
  split_ifs at h
  · simp at h
  simp only [Except.pure_eq_ok, Prod.mk.injEq] at h
  obtain ⟨rfl, -⟩ := h
  rw [iterWhileMut_quant h₂, removeActiveSectors_quant h₁]

theorem popUntil_quant {untilEpoch : Int} {popped : ExpirationSet}
    (h : q.popUntil untilEpoch = .ok (q', popped)) : q'.quant = q.quant := by
  simp only [popUntil, Except.bind_eq_ok, Except.pure_eq_ok] at h
  obtain ⟨_, -, _, -, heq⟩ := h
  rw [← (Prod.mk.inj heq).1]

end ExpirationQueue

end BuiltinActors.Miner
