import BuiltinActors.Miner.ExpirationQueue.InPlace

/-! # What the queue operations return

The preservation lemmas say what each operation leaves in the queue. A caller
also reads what it returns: the numbers of the sectors added or removed, which
the partition checks before anything is known of the queue's state, the power
a replacement changes, and the aggregate popped from the front of the queue. -/

namespace BuiltinActors.Miner

namespace ExpirationQueue

variable {sectorSize : Nat} {info : Nat → SectorOnChainInfo} {sched : Nat → Int}
  {faults live : Finset Nat} {q : ExpirationQueue}

/-! ## Sector numbers added and removed -/

/-- New sectors, none listed twice, are grouped exactly. -/
theorem unionAll_groupNewSectorsByDeclaredExpiration (quant : QuantSpec)
    {sectors : List SectorOnChainInfo} (hnd : (sectors.map SectorOnChainInfo.sectorNumber).Nodup) :
    unionAll ((groupNewSectorsByDeclaredExpiration sectorSize sectors quant).map
      SectorEpochSet.sectors) = numbers sectors := by
  -- the listed sectors are their own infos
  obtain ⟨-, hgs, hcov⟩ := groupNewSectorsByDeclaredExpiration_spec quant sectorSize
    (show InfosAgree (overrideInfos (fun _ => default) sectors) sectors from
      overrideInfos_agree hnd) hnd
  ext n
  rw [mem_unionAll]
  constructor
  · rintro ⟨t, ht, hn⟩
    obtain ⟨g, hg, rfl⟩ := List.mem_map.mp ht
    rw [congrArg SectorEpochSet.sectors (hgs g hg).1] at hn
    exact Finset.mem_of_mem_filter n hn
  · intro hn
    obtain ⟨g, hg, he⟩ := hcov n hn
    refine ⟨g.sectors, List.mem_map_of_mem hg, ?_⟩
    rw [congrArg SectorEpochSet.sectors (hgs g hg).1]
    exact Finset.mem_filter.mpr ⟨hn, he.symm⟩

theorem addActiveSectors_added {sectors : List SectorOnChainInfo}
    (hnd : (sectors.map SectorOnChainInfo.sectorNumber).Nodup) {q' : ExpirationQueue}
    {added : Finset Nat} {power : PowerPair} {pledge fee : Int}
    (h : q.addActiveSectors sectors sectorSize = .ok (q', added, power, pledge, fee)) :
    added = numbers sectors := by
  simp only [ExpirationQueue.addActiveSectors, Except.bind_eq_ok, Except.pure_eq_ok,
    Prod.mk.injEq] at h
  obtain ⟨q₁, -, -, rfl, -⟩ := h
  exact unionAll_groupNewSectorsByDeclaredExpiration q.quant hnd

theorem removeActiveSectors_removed {sectors : List SectorOnChainInfo} {q' : ExpirationQueue}
    {removed : Finset Nat} {power : PowerPair} {pledge fee : Int}
    (h : q.removeActiveSectors sectors sectorSize = .ok (q', removed, power, pledge, fee)) :
    removed = numbers sectors := by
  simp only [ExpirationQueue.removeActiveSectors, Except.bind_eq_ok, Except.pure_eq_ok,
    Prod.mk.injEq] at h
  obtain ⟨groups, hfind, q₁, -, -, rfl, -⟩ := h
  rw [← (findSectorsByExpiration_ok hfind).sectorsOf_eq, List.map_map]
  rfl

/-- A replacement returns the numbers of the old and new sectors, whatever the
queue held. -/
theorem replaceSectors_numbers {oldSectors newSectors : List SectorOnChainInfo}
    (hnd : (newSectors.map SectorOnChainInfo.sectorNumber).Nodup) {q' : ExpirationQueue}
    {r : Finset Nat × Finset Nat × PowerPair × Int × Int}
    (h : q.replaceSectors oldSectors newSectors sectorSize = .ok (q', r)) :
    r.1 = numbers oldSectors ∧ r.2.1 = numbers newSectors := by
  simp only [ExpirationQueue.replaceSectors, Except.bind_eq_ok, Except.mapError_eq_ok,
    Except.pure_eq_ok] at h
  obtain ⟨⟨q₁, _, _, _, _⟩, hrem, ⟨q₂, _, _, _, _⟩, hadd, heq⟩ := h
  obtain ⟨-, rfl⟩ := Prod.mk.inj heq
  exact ⟨removeActiveSectors_removed hrem, addActiveSectors_added hnd hadd⟩

/-- **The power a replacement changes.** The new sectors' power, with their
own infos, less the old sectors' power. -/
theorem Inv.replaceSectors_power (hinv : Inv sectorSize info sched faults live q)
    (hu : 0 < q.quant.unit) {oldSectors newSectors : List SectorOnChainInfo}
    (hold : InfosAgree info oldSectors) (hactive : Disjoint (numbers oldSectors) faults)
    (hnd : (newSectors.map SectorOnChainInfo.sectorNumber).Nodup)
    (hfresh : Disjoint (numbers newSectors) (live \ numbers oldSectors))
    (hnew : Disjoint (numbers newSectors) faults) {q' : ExpirationQueue}
    {r : Finset Nat × Finset Nat × PowerPair × Int × Int}
    (h : q.replaceSectors oldSectors newSectors sectorSize = .ok (q', r)) :
    r.2.2.1 = ∑ n ∈ numbers newSectors, powerForSector sectorSize (overrideInfos info newSectors n) -
      ∑ n ∈ numbers oldSectors, powerForSector sectorSize (info n) := by
  simp only [ExpirationQueue.replaceSectors, Except.bind_eq_ok, Except.mapError_eq_ok,
    Except.pure_eq_ok] at h
  obtain ⟨⟨q₁, _, oldPower, _, _⟩, hrem, ⟨q₂, _, newPower, _, _⟩, hadd, heq⟩ := h
  obtain ⟨-, rfl⟩ := Prod.mk.inj heq
  obtain ⟨hinv₁, -, -, rfl, -⟩ := hinv.removeActiveSectors hold hactive hrem
  -- the new numbers are out of the queue, so their infos and schedule may change
  have hinv₂ : Inv sectorSize (overrideInfos info newSectors)
      (fun n => if n ∈ numbers newSectors then (overrideInfos info newSectors n).expiration
        else sched n) faults (live \ numbers oldSectors) q₁ :=
    hinv₁.congr (fun n hn => overrideInfos_of_notMem (Finset.disjoint_right.mp hfresh hn))
      (fun n hn => if_neg (Finset.disjoint_right.mp hfresh hn)) fun _ _ => Iff.rfl
  obtain ⟨-, -, rfl, -⟩ := hinv₂.addActiveSectors (removeActiveSectors_quant hrem ▸ hu)
    (overrideInfos_agree hnd) hnd hfresh hnew (fun n hn => if_pos hn) hadd
  rfl

/-! ## The aggregate popped -/

/-- Uniting entries that are memos of pairwise disjoint sectors gives the memo
of all their sectors, still split into on-time and early faulty ones. -/
theorem foldl_union_memo : ∀ (E : List (Int × ExpirationSet)) (A B : Finset Nat),
    (∀ e ∈ E, e.2.Memo sectorSize info faults) →
    ((A ∪ B) :: E.map (·.2.sectors)).Pairwise Disjoint → Disjoint A B → B ⊆ faults →
    ∃ A' B', E.foldl (fun a e => a.union e.2) (ExpirationSet.memoOf sectorSize info faults A B) =
        ExpirationSet.memoOf sectorSize info faults A' B' ∧ Disjoint A' B' ∧ B' ⊆ faults ∧
      A' ∪ B' = A ∪ B ∪ unionAll (E.map (·.2.sectors))
  | [], A, B, _, _, hd, hB => ⟨A, B, rfl, hd, hB, by simp⟩
  | e :: E, A, B, hm, hpw, hd, hB => by
    have hme := hm e List.mem_cons_self
    obtain ⟨hhead, hrest⟩ := List.pairwise_cons.mp hpw
    obtain ⟨he, hE⟩ := List.pairwise_cons.mp hrest
    -- `A ∪ B` and the entry's sectors are disjoint
    have hAB : Disjoint (A ∪ B) e.2.sectors := hhead _ List.mem_cons_self
    have hstep : (ExpirationSet.memoOf sectorSize info faults A B).union e.2 =
        ExpirationSet.memoOf sectorSize info faults (A ∪ e.2.onTimeSectors) (B ∪ e.2.earlySectors) := by
      rw [hme.eq_memoOf]
      exact ExpirationSet.memoOf_union
        (hAB.mono Finset.subset_union_left Finset.subset_union_left)
        (hAB.mono Finset.subset_union_right Finset.subset_union_right)
    have hpw' : ((A ∪ e.2.onTimeSectors ∪ (B ∪ e.2.earlySectors)) :: E.map (·.2.sectors)).Pairwise
        Disjoint := by
      refine List.pairwise_cons.mpr ⟨fun t ht => ?_, hE⟩
      have hunion : A ∪ e.2.onTimeSectors ∪ (B ∪ e.2.earlySectors) = (A ∪ B) ∪ e.2.sectors := by
        simp only [ExpirationSet.sectors]
        exact Finset.union_union_union_comm _ _ _ _
      rw [hunion, Finset.disjoint_union_left]
      exact ⟨hhead t (List.mem_cons_of_mem _ ht), he t ht⟩
    have hd' : Disjoint (A ∪ e.2.onTimeSectors) (B ∪ e.2.earlySectors) := by
      rw [Finset.disjoint_union_left, Finset.disjoint_union_right, Finset.disjoint_union_right]
      exact ⟨⟨hd, hAB.mono Finset.subset_union_left Finset.subset_union_right⟩,
        hAB.symm.mono Finset.subset_union_left Finset.subset_union_right, hme.disjoint⟩
    obtain ⟨A', B', hfold, hd'', hB'', hcover⟩ := foldl_union_memo E _ _
      (fun e' he' => hm e' (List.mem_cons_of_mem _ he')) hpw' hd'
      (Finset.union_subset hB hme.early_faulty)
    refine ⟨A', B', by rw [List.foldl_cons, hstep, hfold], hd'', hB'', ?_⟩
    have hcons : unionAll ((e :: E).map (·.2.sectors)) =
        e.2.sectors ∪ unionAll (E.map (·.2.sectors)) := rfl
    rw [hcover, hcons]
    ext n
    simp only [ExpirationSet.sectors, Finset.mem_union]
    tauto

/-- The walk of `popUntil` unites the entries it takes, in order. -/
theorem foldl_popStep_fst : ∀ (E : List (Int × ExpirationSet)) (a : ExpirationSet) (ks : List Int),
    (E.foldl (fun s e => (s.1.union e.2, s.2 ++ [e.1])) (a, ks)).1 =
      E.foldl (fun a e => a.union e.2) a
  | [], _, _ => rfl
  | _ :: E, _, _ => foldl_popStep_fst E _ _

/-- **The aggregate popped.** What `popUntil` returns is the memo of the
sectors popped, live ones, none both on time and early, the early ones
faulty. -/
theorem Inv.popUntil_popped (hinv : Inv sectorSize info sched faults live q) {untilEpoch : Int}
    {q' : ExpirationQueue} {popped : ExpirationSet}
    (h : q.popUntil untilEpoch = .ok (q', popped)) :
    popped = ExpirationSet.memoOf sectorSize info faults popped.onTimeSectors popped.earlySectors ∧
      Disjoint popped.onTimeSectors popped.earlySectors ∧ popped.earlySectors ⊆ faults ∧
      popped.sectors ⊆ live := by
  simp only [ExpirationQueue.popUntil, Except.bind_eq_ok, Except.pure_eq_ok] at h
  obtain ⟨⟨acc, keys⟩, hwalk, amt, -, heq⟩ := h
  obtain ⟨-, rfl⟩ := Prod.mk.inj heq
  -- the walk takes the entries up to the epoch
  set E := q.amt.entries.filter fun e => decide (e.1 ≤ untilEpoch) with hE
  rw [OrdMap.forEachWhile_prefix (fun k => decide (k ≤ untilEpoch))
      (fun s k v => (s.1.union v, s.2 ++ [k]))
      (fun a b hab hb => decide_eq_true (le_trans (le_of_lt hab) (of_decide_eq_true hb)))
      (fun s k v hk => by
        obtain ⟨a, ks⟩ := s
        simp [not_lt.mpr (of_decide_eq_true hk)])
      (fun s k v hk => by
        obtain ⟨a, ks⟩ := s
        simp [lt_of_not_ge (of_decide_eq_false hk)]),
    Except.ok.injEq] at hwalk
  have hacc : acc = E.foldl (fun a e => a.union e.2) ExpirationSet.empty := by
    rw [← foldl_popStep_fst E ExpirationSet.empty [], hE, hwalk]
  have hget : ∀ e ∈ E, q.amt.get? e.1 = some e.2 := fun e he =>
    OrdMap.get?_eq_some_iff.mpr (List.mem_of_mem_filter he)
  have hpw : ((∅ ∪ ∅ : Finset Nat) :: E.map (·.2.sectors)).Pairwise Disjoint :=
    List.pairwise_cons.mpr ⟨fun _ _ => by simp,
      (hinv.pairwise_disjoint).sublist (List.filter_sublist.map _)⟩
  obtain ⟨A', B', hfold, hd, hB, hcover⟩ := foldl_union_memo E ∅ ∅
    (fun e he => hinv.memo (hget e he)) hpw (Finset.disjoint_empty_left _) (Finset.empty_subset _)
  rw [ExpirationSet.memoOf_empty] at hfold
  rw [hacc, hfold]
  refine ⟨rfl, hd, hB, ?_⟩
  -- every sector popped sat in a live entry
  intro n hn
  rw [ExpirationSet.memoOf_sectors, hcover, Finset.empty_union, Finset.empty_union] at hn
  obtain ⟨t, ht, hnt⟩ := mem_unionAll.mp hn
  obtain ⟨e, he, rfl⟩ := List.mem_map.mp ht
  exact hinv.mem_live (hget e he) hnt

end ExpirationQueue

end BuiltinActors.Miner
