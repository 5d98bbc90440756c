import BuiltinActors.Miner.ExpirationQueue.Preserve

/-! # Operations that rewrite entries in place

`rescheduleRecovered` and `removeSectors` walk the queue with `iterWhileMut`,
rewriting each entry that holds sectors they look for and deleting the entries
left empty. Their proofs follow the walk with `iterWhileMut_inv`: the walk's
invariant is the queue invariant for the sectors found so far, and one step is
one `Inv.rewrite`. -/

namespace BuiltinActors.Miner

namespace ExpirationQueue

variable {sectorSize : Nat} {info : Nat → SectorOnChainInfo} {sched : Nat → Int}
  {faults live : Finset Nat} {q : ExpirationQueue}

/-- The early sectors of all entries. -/
def earlySectors (q : ExpirationQueue) : Finset Nat :=
  unionAll (q.amt.entries.map (·.2.earlySectors))

theorem mem_earlySectors {n : Nat} :
    n ∈ q.earlySectors ↔ ∃ k es, q.amt.get? k = some es ∧ n ∈ es.earlySectors := by
  simp only [earlySectors, mem_unionAll, List.mem_map]
  constructor
  · rintro ⟨_, ⟨⟨k, es⟩, he, rfl⟩, hn⟩
    exact ⟨k, es, OrdMap.get?_eq_some_iff.mpr he, hn⟩
  · rintro ⟨k, es, he, hn⟩
    exact ⟨_, ⟨(k, es), OrdMap.get?_eq_some_iff.mp he, rfl⟩, hn⟩

/-- A sector on time in its entry is early in none. -/
theorem Inv.onTime_notMem_earlySectors (hinv : Inv sectorSize info sched faults live q) {k : Int}
    {es : ExpirationSet} (hget : q.amt.get? k = some es) {n : Nat} (hn : n ∈ es.onTimeSectors) :
    n ∉ q.earlySectors := by
  intro he
  obtain ⟨k', es', hget', hn'⟩ := mem_earlySectors.mp he
  have hk : k = k' :=
    hinv.eq_of_mem hget hget' (Finset.mem_union_left _ hn) (Finset.mem_union_right _ hn')
  subst hk
  rw [hget, Option.some.injEq] at hget'
  subst hget'
  exact Finset.disjoint_left.mp (hinv.memo hget).disjoint hn hn'

/-! ## Recovering faulty sectors -/

/-- One entry of `rescheduleRecovered`, for infos agreeing with the recovering
sectors: of the sectors still looked for, those on time here (`O`) turn
active, and those early here (`D`) leave the entry to be rescheduled. -/
theorem recoverEntry_ok {sectors : List SectorOnChainInfo} (hagree : InfosAgree info sectors)
    {acc acc' : Recovery} (hrem : acc.remaining ⊆ numbers sectors) {es es' : ExpirationSet}
    {go : Bool} (h : recoverEntry sectorSize (sectorsByNumber sectors) acc es = .ok (acc', es', go)) :
    ∃ O D : Finset Nat, O = es.onTimeSectors.filter (· ∈ acc.remaining) ∧
      D = es.earlySectors.filter (· ∈ acc.remaining \ O) ∧
      es' = { es with
        earlySectors := es.earlySectors \ D
        activePower := es.activePower + ∑ n ∈ O, powerForSector sectorSize (info n)
        faultyPower := es.faultyPower + -(∑ n ∈ O, powerForSector sectorSize (info n) +
          ∑ n ∈ D, powerForSector sectorSize (info n))
        feeDeduction := es.feeDeduction + -∑ n ∈ D, (info n).dailyFee } ∧
      acc'.remaining = (acc.remaining \ O) \ D ∧
      acc'.sectorsRescheduled = acc.sectorsRescheduled ++ (D.sort (· ≤ ·)).map info ∧
      acc'.recoveredPower = acc.recoveredPower + (∑ n ∈ O, powerForSector sectorSize (info n) +
        ∑ n ∈ D, powerForSector sectorSize (info n)) := by
  unfold recoverEntry at h
  simp only [Except.bind_eq_ok, Except.pure_eq_ok, Prod.mk.injEq] at h
  obtain ⟨_, -, rfl, rfl, -⟩ := h
  set O := es.onTimeSectors.filter (· ∈ acc.remaining) with hO
  set D := es.earlySectors.filter (· ∈ acc.remaining \ O) with hD
  -- the walk looks the sectors up by number, and finds their infos
  have hsec : ∀ x ∈ acc.remaining, ((sectorsByNumber sectors).get? x).getD default = info x :=
    fun x hx => sectorsByNumber_getD hagree (hrem hx)
  have hOrem : ∀ x ∈ O, x ∈ acc.remaining := fun x hx => (Finset.mem_filter.mp hx).2
  have hDrem : ∀ x ∈ D, x ∈ acc.remaining := fun x hx =>
    (Finset.mem_sdiff.mp (Finset.mem_filter.mp hx).2).1
  have e₁ : ∑ x ∈ O, powerForSector sectorSize (((sectorsByNumber sectors).get? x).getD default) =
      ∑ x ∈ O, powerForSector sectorSize (info x) :=
    Finset.sum_congr rfl fun x hx => by rw [hsec x (hOrem x hx)]
  have e₂ : ∑ x ∈ D, powerForSector sectorSize (((sectorsByNumber sectors).get? x).getD default) =
      ∑ x ∈ D, powerForSector sectorSize (info x) :=
    Finset.sum_congr rfl fun x hx => by rw [hsec x (hDrem x hx)]
  have e₃ : ∑ x ∈ D, (((sectorsByNumber sectors).get? x).getD default).dailyFee =
      ∑ x ∈ D, (info x).dailyFee :=
    Finset.sum_congr rfl fun x hx => by rw [hsec x (hDrem x hx)]
  have e₄ : (D.sort (· ≤ ·)).map (fun u => ((sectorsByNumber sectors).get? u).getD default) =
      (D.sort (· ≤ ·)).map info :=
    List.map_congr_left fun x hx => hsec x (hDrem x ((Finset.mem_sort _).mp hx))
  rw [e₁, e₂, e₃, e₄]
  refine ⟨O, D, rfl, rfl, ?_, rfl, rfl, rfl⟩
  split_ifs with hc
  · rfl
  · -- nothing recovers here: the entry is written back as it was
    simp only [ne_eq, not_or, not_not] at hc
    obtain ⟨hD0, -, hO0⟩ := hc
    rw [hD0, hO0]
    simp

/-- Infos looked up for some of the listed numbers, in number order. -/
theorem map_sort_info {sectors : List SectorOnChainInfo} (hagree : InfosAgree info sectors)
    {D : Finset Nat} (hD : D ⊆ numbers sectors) :
    ((D.sort (· ≤ ·)).map info).map SectorOnChainInfo.sectorNumber = D.sort (· ≤ ·) := by
  rw [List.map_map]
  refine (List.map_congr_left fun n hn => ?_).trans (List.map_id _)
  exact hagree.sectorNumber_info (hD ((Finset.mem_sort _).mp hn))

/-- Where the walk of `rescheduleRecovered` stands, relative to the queue `q₀`
it started from and the recovering sectors `R`: the sectors found so far
(`R \ acc.remaining`) are no longer faulty, those found early have left the
queue to wait in `acc.sectorsRescheduled`, and the power recovered is theirs. -/
structure RecoveryWalk (sectorSize : Nat) (info : Nat → SectorOnChainInfo) (sched : Nat → Int)
    (faults live R : Finset Nat) (q₀ : ExpirationQueue) (acc : Recovery) (q : ExpirationQueue) :
    Prop where
  inv : Inv sectorSize info sched (faults \ (R \ acc.remaining))
    (live \ numbers acc.sectorsRescheduled) q
  remaining : acc.remaining ⊆ R
  agree : InfosAgree info acc.sectorsRescheduled
  nodup : (acc.sectorsRescheduled.map SectorOnChainInfo.sectorNumber).Nodup
  rescheduled : numbers acc.sectorsRescheduled = (R \ acc.remaining) ∩ q₀.earlySectors
  power : acc.recoveredPower = ∑ n ∈ R \ acc.remaining, powerForSector sectorSize (info n)

/-- The sectors found after one more entry: those found before, those on time
there and those early there. -/
theorem sdiff_found {R rem O D : Finset Nat} (hrem : rem ⊆ R) (hO : O ⊆ rem) (hD : D ⊆ rem \ O) :
    R \ ((rem \ O) \ D) = (R \ rem ∪ O) ∪ D := by
  ext n
  have h₁ := @hrem n
  have h₂ := @hO n
  have h₃ := @hD n
  simp only [Finset.mem_sdiff, Finset.mem_union] at h₁ h₂ h₃ ⊢
  grind

section Recovery

variable {R : Finset Nat} {q₀ : ExpirationQueue} {sectors : List SectorOnChainInfo}

/-- One entry of the walk keeps `RecoveryWalk`. -/
theorem RecoveryWalk.step (hinv₀ : Inv sectorSize info sched faults live q₀)
    (hagree : InfosAgree info sectors) (hRf : numbers sectors ⊆ faults) {acc acc' : Recovery}
    {qv : ExpirationQueue} (hw : RecoveryWalk sectorSize info sched faults live (numbers sectors) q₀ acc qv)
    {k : Int} {es es' : ExpirationSet} {go : Bool} (hget : qv.amt.get? k = some es)
    (hget₀ : q₀.amt.get? k = some es)
    (h : recoverEntry sectorSize (sectorsByNumber sectors) acc es = .ok (acc', es', go)) :
    RecoveryWalk sectorSize info sched faults live (numbers sectors) q₀ acc'
      (qv.mustUpdateOrDelete k es') := by
  obtain ⟨O, D, hO, hD, hes', hrem', hres', hpow'⟩ := recoverEntry_ok hagree hw.remaining h
  have hOon : O ⊆ es.onTimeSectors := hO ▸ Finset.filter_subset _ _
  have hOrem : O ⊆ acc.remaining := fun n hn => (Finset.mem_filter.mp (hO ▸ hn)).2
  have hDearly : D ⊆ es.earlySectors := hD ▸ Finset.filter_subset _ _
  have hDrem : D ⊆ acc.remaining \ O := fun n hn => (Finset.mem_filter.mp (hD ▸ hn)).2
  have hfound := sdiff_found hw.remaining hOrem hDrem
  set F := numbers sectors \ acc.remaining with hF
  have hm : ExpirationSet.Memo sectorSize info (faults \ F) es := hw.inv.memo hget
  -- the sectors recovered on time here were faulty and not found before
  have hOf : O ⊆ faults \ F := fun n hn =>
    Finset.mem_sdiff.mpr ⟨hRf (hw.remaining (hOrem hn)), fun hnF => (Finset.mem_sdiff.mp hnF).2 (hOrem hn)⟩
  have hes'eq : es' = ExpirationSet.memoOf sectorSize info ((faults \ F) \ (O ∪ D))
      es.onTimeSectors (es.earlySectors \ D) := hes' ▸ hm.recover hOon hOf hDearly
  have hsec : es.sectors \ es'.sectors = D := by
    rw [hes'eq, ExpirationSet.memoOf_sectors]
    ext n
    have h₁ := @hDearly n
    have h₂ : n ∈ es.onTimeSectors → n ∉ es.earlySectors := fun h' =>
      Finset.disjoint_left.mp hm.disjoint h'
    simp only [ExpirationSet.sectors, Finset.mem_sdiff, Finset.mem_union] at h₁ h₂ ⊢
    grind
  have hnumbers : numbers acc'.sectorsRescheduled = numbers acc.sectorsRescheduled ∪ D := by
    rw [hres', numbers, List.map_append, map_sort_info hagree
      (fun n hn => hw.remaining (Finset.mem_sdiff.mp (hDrem hn)).1), List.toFinset_append,
      Finset.sort_toFinset]
    rfl
  have hnotF : ∀ n ∈ numbers acc.sectorsRescheduled, n ∉ acc.remaining := fun n hn hr => by
    rw [hw.rescheduled] at hn
    exact (Finset.mem_sdiff.mp (Finset.mem_inter.mp hn).1).2 hr
  refine ⟨?_, ?_, ?_, ?_, ?_, ?_⟩
  · -- the entry keeps its on-time sectors and loses the early ones found
    have hearly : es.earlySectors \ D ⊆ (faults \ F) \ (O ∪ D) := fun n hn => by
      obtain ⟨hne, hnD⟩ := Finset.mem_sdiff.mp hn
      have hnO : n ∉ O := fun hnO => Finset.disjoint_left.mp hm.disjoint (hOon hnO) hne
      exact Finset.mem_sdiff.mpr ⟨hm.early_faulty hne, by simp [hnO, hnD]⟩
    have hinv : Inv sectorSize info sched (faults \ F) (live \ numbers acc.sectorsRescheduled) qv :=
      hw.inv
    have h₁ : Inv sectorSize info sched ((faults \ F) \ (O ∪ D))
        ((live \ numbers acc.sectorsRescheduled) \ (es.sectors \ es'.sectors))
        (qv.mustUpdateOrDelete k es') :=
      hinv.rewrite hget (by rw [hes'eq]; exact subset_rfl)
        (by rw [hes'eq]; exact Finset.sdiff_subset)
        (fun hne => by
          rw [hes'eq, ExpirationSet.memoOf_sectors] at hne
          rw [hes'eq]
          exact ExpirationSet.memo_memoOf (hm.disjoint.mono_right Finset.sdiff_subset) hearly hne)
        (fun n _ hn => by
          have hnOD : n ∉ O ∪ D := fun h' => hn (Finset.union_subset
            (hOon.trans Finset.subset_union_left) (hDearly.trans Finset.subset_union_right) h')
          simp [hnOD])
    have hfaults : faults \ (numbers sectors \ acc'.remaining) = (faults \ F) \ (O ∪ D) := by
      rw [hrem', hfound, sdiff_sdiff_left, Finset.sup_eq_union, Finset.union_assoc]
    have hlive : live \ (numbers acc.sectorsRescheduled ∪ D) =
        (live \ numbers acc.sectorsRescheduled) \ D := by
      rw [sdiff_sdiff_left, Finset.sup_eq_union]
    rw [hfaults, hnumbers, hlive]
    rwa [hsec] at h₁
  · rw [hrem']
    exact (Finset.sdiff_subset.trans Finset.sdiff_subset).trans hw.remaining
  · intro s hs
    rw [hres'] at hs
    rcases List.mem_append.mp hs with hs | hs
    · exact hw.agree s hs
    · obtain ⟨n, hn, rfl⟩ := List.mem_map.mp hs
      rw [hagree.sectorNumber_info (hw.remaining (Finset.mem_sdiff.mp
        (hDrem ((Finset.mem_sort _).mp hn))).1)]
  · rw [hres', List.map_append, map_sort_info hagree
      (fun n hn => hw.remaining (Finset.mem_sdiff.mp (hDrem hn)).1)]
    refine List.nodup_append.mpr ⟨hw.nodup, Finset.sort_nodup _ _, fun a ha b hb hab => ?_⟩
    subst hab
    exact hnotF a (List.mem_toFinset.mpr ha)
      (Finset.mem_sdiff.mp (hDrem ((Finset.mem_sort _).mp hb))).1
  · -- the sectors on time here are early nowhere, those early here are early
    have hOe : ∀ n ∈ O, n ∉ q₀.earlySectors := fun n hn =>
      hinv₀.onTime_notMem_earlySectors hget₀ (hOon hn)
    have hDe : ∀ n ∈ D, n ∈ q₀.earlySectors := fun n hn =>
      mem_earlySectors.mpr ⟨k, es, hget₀, hDearly hn⟩
    rw [hnumbers, hw.rescheduled, hrem', hfound]
    ext n
    have h₁ := hOe n
    have h₂ := hDe n
    simp only [Finset.mem_union, Finset.mem_inter] at h₁ h₂ ⊢
    grind
  · have hFO : Disjoint F O := Finset.disjoint_left.mpr fun n hn hnO =>
      (Finset.mem_sdiff.mp hn).2 (hOrem hnO)
    have hFOD : Disjoint (F ∪ O) D := Finset.disjoint_left.mpr fun n hn hnD => by
      obtain ⟨hr, hnO⟩ := Finset.mem_sdiff.mp (hDrem hnD)
      rcases Finset.mem_union.mp hn with hn | hn
      · exact (Finset.mem_sdiff.mp hn).2 hr
      · exact hnO hn
    rw [hpow', hw.power, hrem', hfound, Finset.sum_union hFOD, Finset.sum_union hFO, add_assoc]

/-- **Rescheduling recovered sectors.** The recovering sectors, all faulty,
turn active: those on time stay where they are, and those early move back to
their declared expirations, which become their schedule. The power returned
is theirs. -/
theorem Inv.rescheduleRecovered (hinv : Inv sectorSize info sched faults live q)
    (hu : 0 < q.quant.unit) (hagree : InfosAgree info sectors)
    (hfaulty : numbers sectors ⊆ faults) {q' : ExpirationQueue} {power : PowerPair}
    (h : q.rescheduleRecovered sectors sectorSize = .ok (q', power)) :
    Inv sectorSize info
        (fun n => if n ∈ numbers sectors ∩ q.earlySectors then (info n).expiration else sched n)
        (faults \ numbers sectors) live q' ∧
      power = ∑ n ∈ numbers sectors, powerForSector sectorSize (info n) := by
  simp only [ExpirationQueue.rescheduleRecovered, Except.bind_eq_ok] at h
  obtain ⟨⟨acc, q₁⟩, hwalk, h⟩ := h
  split_ifs at h with hrem
  · simp at h
  have hrem' : acc.remaining = ∅ := not_not.mp hrem
  simp only [Except.bind_eq_ok, Except.pure_eq_ok, Prod.mk.injEq] at h
  obtain ⟨⟨q₂, added⟩, hadd, rfl, rfl⟩ := h
  -- the walk finds every recovering sector
  have hw₀ : RecoveryWalk sectorSize info sched faults live (numbers sectors) q
      ⟨numbers sectors, [], 0⟩ q := by
    refine ⟨?_, subset_rfl, fun _ hs => absurd hs List.not_mem_nil, List.nodup_nil, ?_, ?_⟩
    · simpa [numbers] using hinv
    · simp [numbers]
    · simp
  have hw : RecoveryWalk sectorSize info sched faults live (numbers sectors) q acc q₁ :=
    iterWhileMut_inv (RecoveryWalk sectorSize info sched faults live (numbers sectors) q)
      (fun _ _ _ _ _ _ _ hP _ hqv hq hf => hP.step hinv hagree hfaulty hqv hq hf) hw₀ hwalk
  have hinv₁ := hw.inv
  have hpower := hw.power
  rw [hrem', Finset.sdiff_empty] at hinv₁ hpower
  set E := numbers acc.sectorsRescheduled with hE
  have hEeq : E = numbers sectors ∩ q.earlySectors := by
    rw [hE, hw.rescheduled, hrem', Finset.sdiff_empty]
  have hEsub : E ⊆ numbers sectors ∩ q.earlySectors := hEeq.le
  have hElive : E ⊆ live := fun n hn => by
    obtain ⟨k, es, hget, hne⟩ := mem_earlySectors.mp (Finset.mem_inter.mp (hEsub hn)).2
    exact hinv.mem_live hget (Finset.mem_union_right _ hne)
  -- the sectors found early move back to their declared expirations
  have h₁ : Inv sectorSize info
      (fun n => if n ∈ numbers sectors ∩ q.earlySectors then (info n).expiration else sched n)
      (faults \ numbers sectors) (live \ E) q₁ :=
    hinv₁.congr (fun _ _ => rfl) (fun n hn => if_neg fun h' => (Finset.mem_sdiff.mp hn).2 (hEeq ▸ h'))
      (fun _ _ => Iff.rfl)
  have hu₁ : 0 < q₁.quant.unit := by rw [iterWhileMut_quant hwalk]; exact hu
  obtain ⟨h₂, -⟩ := h₁.addActiveSectors hu₁ hw.agree hw.nodup Finset.disjoint_sdiff
    (Finset.disjoint_left.mpr fun n hn hf => (Finset.mem_sdiff.mp hf).2
      (Finset.mem_inter.mp (hEsub hn)).1)
    (fun n hn => by simp [hEsub hn]) hadd
  rw [Finset.sdiff_union_of_subset hElive] at h₂
  exact ⟨h₂, hpower⟩

end Recovery

/-! ## Removing sectors -/

section Removal

variable {recovering : Finset Nat}

/-- Where the walk of `removeFaultySector` over the entry `es` stands once the
faulty sectors `N` have been processed: those in the entry have left it for the
removed set, with their totals, and are no longer looked for. -/
def removalAfter (sectorSize : Nat) (info : Nat → SectorOnChainInfo)
    (faults recovering : Finset Nat) (es removed : ExpirationSet) (recoveringPower : PowerPair)
    (remaining N : Finset Nat) : Removal where
  es := ExpirationSet.memoOf sectorSize info faults (es.onTimeSectors \ N) (es.earlySectors \ N)
  removed := ExpirationSet.memoOf sectorSize info faults
    (removed.onTimeSectors ∪ es.onTimeSectors ∩ N) (removed.earlySectors ∪ es.earlySectors ∩ N)
  recoveringPower := recoveringPower +
    ∑ n ∈ (es.sectors ∩ N).filter (· ∈ recovering), powerForSector sectorSize (info n)
  remaining := remaining \ (es.sectors ∩ N)

/-- A sector the entry does not hold changes nothing. -/
theorem removalAfter_insert_of_notMem {es removed : ExpirationSet} {rp : PowerPair}
    {rem N : Finset Nat} {n : Nat} (hn : n ∉ es.sectors) :
    removalAfter sectorSize info faults recovering es removed rp rem (insert n N) =
      removalAfter sectorSize info faults recovering es removed rp rem N := by
  have hon : n ∉ es.onTimeSectors := fun h => hn (Finset.mem_union_left _ h)
  have hearly : n ∉ es.earlySectors := fun h => hn (Finset.mem_union_right _ h)
  simp only [removalAfter, Finset.sdiff_insert_of_notMem hon, Finset.sdiff_insert_of_notMem hearly,
    Finset.inter_insert_of_notMem hon, Finset.inter_insert_of_notMem hearly,
    Finset.inter_insert_of_notMem hn]

/-- One faulty sector of the entry leaves it for the removed set. -/
theorem removeFaultySector_removalAfter {es removed : ExpirationSet} {rp : PowerPair}
    {rem N : Finset Nat} (hd₀ : Disjoint es.onTimeSectors es.earlySectors)
    (hd : Disjoint es.sectors removed.sectors) {s : SectorOnChainInfo}
    (hs : info s.sectorNumber = s) (hf : s.sectorNumber ∈ faults) (hN : s.sectorNumber ∉ N) :
    removeFaultySector sectorSize faults recovering es.onTimeSectors es.earlySectors
        (removalAfter sectorSize info faults recovering es removed rp rem N) s =
      removalAfter sectorSize info faults recovering es removed rp rem (insert s.sectorNumber N) := by
  set n := s.sectorNumber with hn
  have hnR : n ∈ es.sectors → n ∉ removed.sectors := fun h h' => Finset.disjoint_left.mp hd h h'
  by_cases hS : n ∈ es.sectors
  · have hT : n ∉ es.sectors ∩ N := fun h => hN (Finset.mem_inter.mp h).2
    have hT' : n ∉ (es.sectors ∩ N).filter (· ∈ recovering) := fun h =>
      hT (Finset.mem_filter.mp h).1
    simp only [removeFaultySector]
    rw [← hn]
    by_cases hon : n ∈ es.onTimeSectors
    · -- on time in the entry: it leaves with its pledge, power and fee
      have hearly : n ∉ es.earlySectors := Finset.disjoint_left.mp hd₀ hon
      have hnA : n ∉ removed.onTimeSectors ∪ es.onTimeSectors ∩ N := by
        simp only [Finset.mem_union, Finset.mem_inter, not_or, not_and]
        exact ⟨fun h => hnR hS (Finset.mem_union_left _ h), fun _ => hN⟩
      simp only [if_pos hon, if_pos hf, removalAfter]
      rw [Finset.sdiff_insert_of_notMem hearly, Finset.sdiff_insert, Finset.inter_insert_of_mem hon,
        Finset.inter_insert_of_notMem hearly, Finset.union_insert,
        ExpirationSet.memoOf_erase_onTime (Finset.mem_sdiff.mpr ⟨hon, hN⟩) hf,
        ExpirationSet.memoOf_insert_onTime hnA hf, Finset.inter_insert_of_mem hS, Finset.sdiff_insert,
        Finset.filter_insert]
      by_cases hr : n ∈ recovering
      · rw [if_pos hr, if_pos hr, Finset.sum_insert hT', hs, add_comm (powerForSector sectorSize s),
          add_assoc]
        rfl
      · rw [if_neg hr, if_neg hr, hs]
        rfl
    · -- early in the entry: it leaves with its power and fee
      have hearly : n ∈ es.earlySectors := (Finset.mem_union.mp hS).resolve_left hon
      have hnB : n ∉ removed.earlySectors ∪ es.earlySectors ∩ N := by
        simp only [Finset.mem_union, Finset.mem_inter, not_or, not_and]
        exact ⟨fun h => hnR hS (Finset.mem_union_right _ h), fun _ => hN⟩
      simp only [if_neg hon, if_pos hearly, if_pos hf, removalAfter]
      rw [Finset.sdiff_insert_of_notMem hon, Finset.sdiff_insert, Finset.inter_insert_of_mem hearly,
        Finset.inter_insert_of_notMem hon, Finset.union_insert,
        ExpirationSet.memoOf_erase_early (Finset.mem_sdiff.mpr ⟨hearly, hN⟩),
        ExpirationSet.memoOf_insert_early hnB, Finset.inter_insert_of_mem hS, Finset.sdiff_insert,
        Finset.filter_insert]
      by_cases hr : n ∈ recovering
      · rw [if_pos hr, if_pos hr, Finset.sum_insert hT', hs, add_comm (powerForSector sectorSize s),
          add_assoc]
        rfl
      · rw [if_neg hr, if_neg hr, hs]
        rfl
  · -- not in the entry: nothing found, nothing changes
    have hon : n ∉ es.onTimeSectors := fun h => hS (Finset.mem_union_left _ h)
    have hearly : n ∉ es.earlySectors := fun h => hS (Finset.mem_union_right _ h)
    rw [removalAfter_insert_of_notMem hS]
    simp only [removeFaultySector]
    rw [← hn]
    simp only [if_neg hon, if_neg hearly]

/-- Before any sector is processed, the walk holds the entry and removed set
as they are, when both are the memos of their sectors. -/
theorem removalAfter_empty {es removed : ExpirationSet} {rp : PowerPair} {rem : Finset Nat}
    (hes : es = ExpirationSet.memoOf sectorSize info faults es.onTimeSectors es.earlySectors)
    (hremoved : removed =
      ExpirationSet.memoOf sectorSize info faults removed.onTimeSectors removed.earlySectors) :
    removalAfter sectorSize info faults recovering es removed rp rem ∅ = ⟨es, removed, rp, rem⟩ := by
  simp only [removalAfter, Finset.sdiff_empty, Finset.inter_empty, Finset.union_empty,
    Finset.filter_empty, Finset.sum_empty, add_zero]
  rw [← hes, ← hremoved]

/-- The walk over the faulty sectors, none listed twice, processes them all. -/
theorem foldl_removeFaultySector {es removed : ExpirationSet} {rp : PowerPair} {rem : Finset Nat}
    (hd₀ : Disjoint es.onTimeSectors es.earlySectors) (hd : Disjoint es.sectors removed.sectors) :
    ∀ (L : List SectorOnChainInfo) (N : Finset Nat), InfosAgree info L →
      (∀ s ∈ L, s.sectorNumber ∈ faults) → (L.map SectorOnChainInfo.sectorNumber).Nodup →
      Disjoint N (numbers L) →
      L.foldl (removeFaultySector sectorSize faults recovering es.onTimeSectors es.earlySectors)
          (removalAfter sectorSize info faults recovering es removed rp rem N) =
        removalAfter sectorSize info faults recovering es removed rp rem (N ∪ numbers L)
  | [], N, _, _, _, _ => by simp [numbers]
  | s :: L, N, hagree, hf, hnd, hdisj => by
    have hnumbers : numbers (s :: L) = insert s.sectorNumber (numbers L) := by
      simp [numbers]
    rw [hnumbers] at hdisj
    rw [List.map_cons, List.nodup_cons] at hnd
    have hsN : s.sectorNumber ∉ N := fun h =>
      Finset.disjoint_left.mp hdisj h (Finset.mem_insert_self _ _)
    have hsL : s.sectorNumber ∉ numbers L := by simpa [numbers] using hnd.1
    rw [List.foldl_cons, removeFaultySector_removalAfter hd₀ hd (hagree s List.mem_cons_self)
      (hf s List.mem_cons_self) hsN]
    rw [foldl_removeFaultySector hd₀ hd L _ (fun t ht => hagree t (List.mem_cons_of_mem _ ht))
      (fun t ht => hf t (List.mem_cons_of_mem _ ht)) hnd.2
      (Finset.disjoint_insert_left.mpr ⟨hsL, hdisj.mono_right (Finset.subset_insert _ _)⟩),
      hnumbers, Finset.insert_union, Finset.union_insert]

/-- One faulty sector joins the removed on-time sectors if the entry held it
on time, and the removed early ones if it held it early only. -/
theorem removeFaultySector_sets {onT early : Finset Nat} (acc : Removal) (s : SectorOnChainInfo) :
    (removeFaultySector sectorSize faults recovering onT early acc s).removed.onTimeSectors =
        (if s.sectorNumber ∈ onT then insert s.sectorNumber acc.removed.onTimeSectors
          else acc.removed.onTimeSectors) ∧
    (removeFaultySector sectorSize faults recovering onT early acc s).removed.earlySectors =
        (if s.sectorNumber ∉ onT ∧ s.sectorNumber ∈ early then
          insert s.sectorNumber acc.removed.earlySectors else acc.removed.earlySectors) := by
  unfold removeFaultySector
  by_cases h₁ : s.sectorNumber ∈ onT
  · by_cases hf : s.sectorNumber ∈ faults <;> simp [h₁, hf]
  · by_cases h₂ : s.sectorNumber ∈ early
    · by_cases hf : s.sectorNumber ∈ faults <;> simp [h₁, h₂, hf]
    · simp [h₁, h₂]

/-- The sets the walk over the faulty sectors removes, whatever the totals. -/
theorem foldl_removeFaultySector_sets {onT early : Finset Nat} :
    ∀ (L : List SectorOnChainInfo) (acc : Removal),
      (L.foldl (removeFaultySector sectorSize faults recovering onT early) acc).removed.onTimeSectors =
          acc.removed.onTimeSectors ∪ numbers L ∩ onT ∧
      (L.foldl (removeFaultySector sectorSize faults recovering onT early) acc).removed.earlySectors =
          acc.removed.earlySectors ∪ numbers L ∩ (early \ onT)
  | [], acc => by simp [numbers]
  | s :: L, acc => by
    obtain ⟨hon, hearly⟩ := foldl_removeFaultySector_sets L
      (removeFaultySector sectorSize faults recovering onT early acc s)
    have hnumbers : numbers (s :: L) = insert s.sectorNumber (numbers L) := by simp [numbers]
    rw [List.foldl_cons, hon, hearly, (removeFaultySector_sets acc s).1,
      (removeFaultySector_sets acc s).2, hnumbers]
    constructor
    · ext n
      split_ifs with h <;> simp only [Finset.mem_union, Finset.mem_inter, Finset.mem_insert] <;> grind
    · ext n
      split_ifs with h <;>
        simp only [Finset.mem_union, Finset.mem_inter, Finset.mem_insert, Finset.mem_sdiff] <;> grind

/-- What `removeFaultyEntry` returns as removed is the walk over the faulty
sectors from the entry and what was removed before it. -/
theorem removeFaultyEntry_removed {faultySectors : List SectorOnChainInfo}
    {removed : ExpirationSet} {rp : PowerPair} {rem : Finset Nat}
    {acc' : ExpirationSet × PowerPair × Finset Nat} {es es' : ExpirationSet} {go : Bool}
    (h : removeFaultyEntry sectorSize faults recovering faultySectors (removed, rp, rem) es =
      .ok (acc', es', go)) :
    acc'.1 = (faultySectors.foldl (removeFaultySector sectorSize faults recovering es.onTimeSectors
      es.earlySectors) ⟨es, removed, rp, rem⟩).removed := by
  unfold removeFaultyEntry at h
  dsimp only at h
  -- past the two size guards
  split at h
  · simp at h
  split at h
  · simp at h
  simp only [Except.bind_eq_ok, Except.pure_eq_ok, Prod.mk.injEq] at h
  obtain ⟨_, -, rfl, -, -⟩ := h
  rfl

/-- Where the walk of `removeSectors` over the queue stands, for the faulty
sectors `FS` it looks for: those found so far (`FS \ remaining`) were live and
have left the queue for the removed set, which also holds the active sectors
`NF` removed before the walk, with the totals of all. -/
structure RemovalWalk (sectorSize : Nat) (info : Nat → SectorOnChainInfo) (sched : Nat → Int)
    (faults live recovering NF FS : Finset Nat) (acc : ExpirationSet × PowerPair × Finset Nat)
    (q : ExpirationQueue) : Prop where
  inv : Inv sectorSize info sched faults (live \ (FS \ acc.2.2)) q
  remaining : acc.2.2 ⊆ FS
  found : FS \ acc.2.2 ⊆ live
  removed : acc.1 = ExpirationSet.memoOf sectorSize info faults acc.1.onTimeSectors
    acc.1.earlySectors
  sectors : acc.1.sectors = NF ∪ (FS \ acc.2.2)
  power : acc.2.1 = ∑ n ∈ (FS \ acc.2.2).filter (· ∈ recovering), powerForSector sectorSize (info n)

/-- One entry of the walk keeps `RemovalWalk`. -/
theorem RemovalWalk.step {NF : Finset Nat} {faultySectors : List SectorOnChainInfo}
    (hagree : InfosAgree info faultySectors) (hf : ∀ s ∈ faultySectors, s.sectorNumber ∈ faults)
    (hnd : (faultySectors.map SectorOnChainInfo.sectorNumber).Nodup) (hNF : Disjoint NF live)
    {acc acc' : ExpirationSet × PowerPair × Finset Nat} {qv : ExpirationQueue}
    (hw : RemovalWalk sectorSize info sched faults live recovering NF (numbers faultySectors) acc qv)
    {k : Int} {es es' : ExpirationSet} {go : Bool} (hget : qv.amt.get? k = some es)
    (h : removeFaultyEntry sectorSize faults recovering faultySectors acc es = .ok (acc', es', go)) :
    RemovalWalk sectorSize info sched faults live recovering NF (numbers faultySectors) acc'
      (qv.mustUpdateOrDelete k es') := by
  obtain ⟨removed, rp, rem⟩ := acc
  set FS := numbers faultySectors with hFS
  have hm := hw.inv.memo hget
  have hlive : es.sectors ⊆ live \ (FS \ rem) := fun n hn =>
    (hw.inv.live_iff n).mpr ⟨k, mem_sectorsAt.mpr ⟨es, hget, hn⟩⟩
  -- the entry holds none of the sectors removed so far
  have hd : Disjoint es.sectors removed.sectors := by
    have hs : removed.sectors = NF ∪ (FS \ rem) := hw.sectors
    rw [hs, Finset.disjoint_union_right]
    exact ⟨(hNF.mono_right Finset.sdiff_subset).symm.mono_left hlive,
      Finset.sdiff_disjoint.mono_left hlive⟩
  have h₀ : (⟨es, removed, rp, rem⟩ : Removal) =
      removalAfter sectorSize info faults recovering es removed rp rem ∅ :=
    (removalAfter_empty hm.eq_memoOf hw.removed).symm
  have hfold : faultySectors.foldl
      (removeFaultySector sectorSize faults recovering es.onTimeSectors es.earlySectors)
      ⟨es, removed, rp, rem⟩ = removalAfter sectorSize info faults recovering es removed rp rem FS := by
    rw [h₀, foldl_removeFaultySector hm.disjoint hd _ ∅ hagree hf hnd (Finset.disjoint_empty_left _),
      Finset.empty_union]
  unfold removeFaultyEntry at h
  simp only [hfold] at h
  -- the size guards held
  by_cases h₁ : es.onTimeSectors.card > entrySectorsMax
  · rw [if_pos h₁] at h
    simp at h
  rw [if_neg h₁] at h
  by_cases h₂ : es.earlySectors.card > entrySectorsMax
  · rw [if_pos h₂] at h
    simp at h
  rw [if_neg h₂] at h
  simp only [Except.bind_eq_ok, Except.pure_eq_ok, Prod.mk.injEq] at h
  obtain ⟨_, -, rfl, rfl, -⟩ := h
  -- the entry loses the faulty sectors it holds, `X`, all still looked for
  set X := es.sectors ∩ FS with hX
  have hXrem : X ⊆ rem := fun n hn => by
    obtain ⟨hne, hnF⟩ := Finset.mem_inter.mp hn
    by_contra hr
    exact (Finset.mem_sdiff.mp (hlive hne)).2 (Finset.mem_sdiff.mpr ⟨hnF, hr⟩)
  have hfound : FS \ (rem \ X) = FS \ rem ∪ X :=
    Finset.sdiff_sdiff_eq_sdiff_union Finset.inter_subset_right
  have hleft : es.sectors \ (es.onTimeSectors \ FS ∪ es.earlySectors \ FS) = X := by
    ext n
    simp only [ExpirationSet.sectors, hX, Finset.mem_sdiff, Finset.mem_union, Finset.mem_inter]
    grind
  refine ⟨?_, ?_, ?_, ?_, ?_, ?_⟩
  · set es' := ExpirationSet.memoOf sectorSize info faults (es.onTimeSectors \ FS) (es.earlySectors \ FS)
    have h₁ : Inv sectorSize info sched faults ((live \ (FS \ rem)) \ (es.sectors \ es'.sectors))
        (qv.mustUpdateOrDelete k es') :=
      hw.inv.rewrite hget Finset.sdiff_subset Finset.sdiff_subset
        (fun hne => ExpirationSet.memo_memoOf (hm.disjoint.mono Finset.sdiff_subset Finset.sdiff_subset)
          (Finset.sdiff_subset.trans hm.early_faulty) hne)
        (fun _ _ _ => Iff.rfl)
    rw [ExpirationSet.memoOf_sectors] at h₁
    have hlive' : live \ (FS \ (rem \ X)) = (live \ (FS \ rem)) \ X := by
      rw [hfound, sdiff_sdiff_left, Finset.sup_eq_union]
    rw [hleft] at h₁
    show Inv sectorSize info sched faults (live \ (FS \ (rem \ X))) _
    rw [hlive']
    exact h₁
  · exact Finset.sdiff_subset.trans hw.remaining
  · show FS \ (rem \ X) ⊆ live
    rw [hfound]
    exact Finset.union_subset hw.found
      ((Finset.inter_subset_left.trans hlive).trans Finset.sdiff_subset)
  · rfl
  · have hs : removed.sectors = NF ∪ (FS \ rem) := hw.sectors
    show ExpirationSet.sectors (ExpirationSet.memoOf sectorSize info faults
      (removed.onTimeSectors ∪ es.onTimeSectors ∩ FS) (removed.earlySectors ∪ es.earlySectors ∩ FS)) =
      NF ∪ (FS \ (rem \ X))
    rw [ExpirationSet.memoOf_sectors, hfound]
    ext n
    have hn := congrArg (n ∈ ·) hs
    simp only [ExpirationSet.sectors, eq_iff_iff, Finset.mem_union] at hn
    simp only [hX, ExpirationSet.sectors, Finset.mem_union, Finset.mem_inter]
    grind
  · have hdisj : Disjoint ((FS \ rem).filter (· ∈ recovering)) (X.filter (· ∈ recovering)) :=
      Finset.disjoint_filter_filter (Finset.disjoint_left.mpr fun n hn hnX =>
        (Finset.mem_sdiff.mp hn).2 (hXrem hnX))
    show rp + _ = ∑ n ∈ (FS \ (rem \ X)).filter (· ∈ recovering), powerForSector sectorSize (info n)
    have hp : rp = ∑ n ∈ (FS \ rem).filter (· ∈ recovering), powerForSector sectorSize (info n) :=
      hw.power
    rw [hfound, Finset.filter_union, Finset.sum_union hdisj, hp]

/-- One entry of the walk keeps the removed sectors split: none both on time
and early, the early ones faulty. -/
theorem RemovalWalk.split_step {NF : Finset Nat} {faultySectors : List SectorOnChainInfo}
    (hf : ∀ s ∈ faultySectors, s.sectorNumber ∈ faults) (hNF : Disjoint NF live)
    {acc acc' : ExpirationSet × PowerPair × Finset Nat} {qv : ExpirationQueue}
    (hw : RemovalWalk sectorSize info sched faults live recovering NF (numbers faultySectors) acc qv)
    (hs : Disjoint acc.1.onTimeSectors acc.1.earlySectors ∧ acc.1.earlySectors ⊆ faults)
    {k : Int} {es es' : ExpirationSet} {go : Bool} (hget : qv.amt.get? k = some es)
    (h : removeFaultyEntry sectorSize faults recovering faultySectors acc es = .ok (acc', es', go)) :
    Disjoint acc'.1.onTimeSectors acc'.1.earlySectors ∧ acc'.1.earlySectors ⊆ faults := by
  obtain ⟨removed, rp, rem⟩ := acc
  set FS := numbers faultySectors with hFS
  -- the entry holds none of the sectors removed so far
  have hlive : es.sectors ⊆ live \ (FS \ rem) := fun n hn => hw.inv.mem_live hget hn
  have hd : Disjoint removed.sectors es.sectors := by
    have hs : removed.sectors = NF ∪ (FS \ rem) := hw.sectors
    rw [hs, Finset.disjoint_union_left]
    exact ⟨(hNF.mono_right Finset.sdiff_subset).mono_right hlive,
      Finset.sdiff_disjoint.symm.mono_right hlive⟩
  have hFaulty : FS ⊆ faults := fun n hn => by
    obtain ⟨s, hs, rfl⟩ := mem_numbers.mp hn
    exact hf s hs
  rw [removeFaultyEntry_removed h, (foldl_removeFaultySector_sets faultySectors _).1,
    (foldl_removeFaultySector_sets faultySectors _).2]
  refine ⟨?_, Finset.union_subset hs.2 (Finset.inter_subset_left.trans hFaulty)⟩
  have hon_sub : FS ∩ es.onTimeSectors ⊆ es.sectors :=
    Finset.inter_subset_right.trans Finset.subset_union_left
  have hearly_sub : FS ∩ (es.earlySectors \ es.onTimeSectors) ⊆ es.sectors :=
    Finset.inter_subset_right.trans (Finset.sdiff_subset.trans Finset.subset_union_right)
  rw [Finset.disjoint_union_left, Finset.disjoint_union_right, Finset.disjoint_union_right]
  refine ⟨⟨hs.1, hd.mono Finset.subset_union_left hearly_sub⟩,
    hd.symm.mono hon_sub Finset.subset_union_right, ?_⟩
  -- a sector the entry held on time is not among those it held early only
  exact Finset.disjoint_left.mpr fun n hn hn' =>
    (Finset.mem_sdiff.mp (Finset.mem_inter.mp hn').2).2 (Finset.mem_inter.mp hn).2

theorem numbers_filter_mem {sectors : List SectorOnChainInfo} {S : Finset Nat} :
    numbers (sectors.filter (·.sectorNumber ∈ S)) = numbers sectors ∩ S := by
  ext n
  simp only [mem_numbers, List.mem_filter, decide_eq_true_eq, Finset.mem_inter]
  constructor
  · rintro ⟨s, ⟨hs, hS⟩, rfl⟩
    exact ⟨⟨s, hs, rfl⟩, hS⟩
  · rintro ⟨⟨s, hs, rfl⟩, hS⟩
    exact ⟨s, ⟨hs, hS⟩, rfl⟩

theorem numbers_filter_notMem {sectors : List SectorOnChainInfo} {S : Finset Nat} :
    numbers (sectors.filter (·.sectorNumber ∉ S)) = numbers sectors \ S := by
  ext n
  simp only [mem_numbers, List.mem_filter, decide_eq_true_eq, Finset.mem_sdiff]
  constructor
  · rintro ⟨s, ⟨hs, hS⟩, rfl⟩
    exact ⟨⟨s, hs, rfl⟩, hS⟩
  · rintro ⟨⟨s, hs, rfl⟩, hS⟩
    exact ⟨s, ⟨hs, hS⟩, rfl⟩

/-- **Removing sectors.** The sectors, active or faulty, on time or early,
leave the queue. The set returned holds exactly them, with their totals, and
the recovering power returned is that of the faulty ones among them that were
recovering. No sector of the set is both on time and early, and the early ones
are faulty. -/
theorem Inv.removeSectors (hinv : Inv sectorSize info sched faults live q)
    {sectors : List SectorOnChainInfo} (hagree : InfosAgree info sectors)
    (hnd : (sectors.map SectorOnChainInfo.sectorNumber).Nodup) {addressedSectorsMax : Nat}
    {q' : ExpirationQueue} {removed : ExpirationSet} {recoveringPower : PowerPair}
    (h : q.removeSectors addressedSectorsMax sectors faults recovering sectorSize =
      .ok (q', removed, recoveringPower)) :
    Inv sectorSize info sched faults (live \ numbers sectors) q' ∧ numbers sectors ⊆ live ∧
      removed = ExpirationSet.memoOf sectorSize info faults removed.onTimeSectors
        removed.earlySectors ∧
      removed.sectors = numbers sectors ∧
      recoveringPower = ∑ n ∈ (numbers sectors ∩ faults).filter (· ∈ recovering),
        powerForSector sectorSize (info n) ∧
      Disjoint removed.onTimeSectors removed.earlySectors ∧ removed.earlySectors ⊆ faults := by
  unfold ExpirationQueue.removeSectors at h
  by_cases h₁ : faults.card > addressedSectorsMax
  · rw [if_pos h₁] at h
    simp at h
  rw [if_neg h₁] at h
  by_cases h₂ : recovering.card > addressedSectorsMax
  · rw [if_pos h₂] at h
    simp at h
  rw [if_neg h₂] at h
  simp only [Except.bind_eq_ok, Except.mapError_eq_ok] at h
  obtain ⟨⟨q₁, nfNumbers, power, pledge, fee⟩, hrm, ⟨⟨removed', rp, rem⟩, q₂⟩, hwalk, h⟩ := h
  split_ifs at h with hrem
  · simp at h
  simp only [Except.pure_eq_ok, Prod.mk.injEq] at h
  obtain ⟨rfl, rfl, rfl⟩ := h
  have hrem' : rem = ∅ := not_not.mp hrem
  -- the active sectors are removed first, then the faulty ones found by the walk
  set NF := numbers (sectors.filter (·.sectorNumber ∉ faults)) with hNF
  set FS := numbers (sectors.filter (·.sectorNumber ∈ faults)) with hFS
  have hNFeq : NF = numbers sectors \ faults := numbers_filter_notMem
  have hFSeq : FS = numbers sectors ∩ faults := numbers_filter_mem
  obtain ⟨hinv₁, hNFlive, rfl, rfl, rfl, rfl⟩ := hinv.removeActiveSectors
    (fun s hs => hagree s (List.mem_of_mem_filter hs))
    (by rw [← hNF, hNFeq]; exact Finset.sdiff_disjoint) hrm
  have hw₀ : RemovalWalk sectorSize info sched faults (live \ NF) recovering NF FS
      ({ ExpirationSet.empty with
          onTimeSectors := NF
          onTimePledge := ∑ n ∈ NF, (info n).initialPledge
          activePower := ∑ n ∈ NF, powerForSector sectorSize (info n)
          feeDeduction := ∑ n ∈ NF, (info n).dailyFee }, 0, numbers sectors \ NF) q₁ := by
    have hrem₀ : numbers sectors \ NF = FS := by
      rw [hNFeq, hFSeq, sdiff_sdiff_right_self, Finset.inf_eq_inter]
    have hmemo : ExpirationSet.memoOf sectorSize info faults NF ∅ =
        ⟨NF, ∅, ∑ n ∈ NF, (info n).initialPledge, ∑ n ∈ NF, powerForSector sectorSize (info n), 0,
          ∑ n ∈ NF, (info n).dailyFee⟩ :=
      ExpirationSet.memoOf_active (by rw [hNFeq]; exact Finset.sdiff_disjoint)
    refine ⟨?_, ?_, ?_, hmemo.symm, ?_, ?_⟩
    · show Inv sectorSize info sched faults ((live \ NF) \ (FS \ (numbers sectors \ NF))) q₁
      rw [hrem₀, Finset.sdiff_self, Finset.sdiff_empty]
      exact hinv₁
    · show numbers sectors \ NF ⊆ FS
      rw [hrem₀]
    · show FS \ (numbers sectors \ NF) ⊆ live \ NF
      rw [hrem₀, Finset.sdiff_self]
      exact Finset.empty_subset _
    · show NF ∪ ∅ = NF ∪ (FS \ (numbers sectors \ NF))
      rw [hrem₀, Finset.sdiff_self]
    · show (0 : PowerPair) = ∑ n ∈ (FS \ (numbers sectors \ NF)).filter (· ∈ recovering),
        powerForSector sectorSize (info n)
      rw [hrem₀, Finset.sdiff_self, Finset.filter_empty, Finset.sum_empty]
  have hfaulty : ∀ s ∈ sectors.filter (·.sectorNumber ∈ faults), s.sectorNumber ∈ faults :=
    fun s hs => of_decide_eq_true (List.mem_filter.mp hs).2
  -- the walk also keeps the removed set split into on-time and early faulty sectors
  have hw := iterWhileMut_inv (fun acc qv =>
      RemovalWalk sectorSize info sched faults (live \ NF) recovering NF FS acc qv ∧
        Disjoint acc.1.onTimeSectors acc.1.earlySectors ∧ acc.1.earlySectors ⊆ faults)
    (fun _ _ _ _ _ _ _ hP _ hqv _ hf => ⟨hP.1.step
      (fun s hs => hagree s (List.mem_of_mem_filter hs)) hfaulty
      (hnd.sublist (List.filter_sublist.map _)) Finset.disjoint_sdiff hqv hf,
      hP.1.split_step hfaulty Finset.disjoint_sdiff hP.2 hqv hf⟩)
    ⟨hw₀, Finset.disjoint_empty_right _, Finset.empty_subset _⟩ hwalk
  have hinv₂ := hw.1.inv
  have hfound := hw.1.found
  have hsectors := hw.1.sectors
  have hpower := hw.1.power
  simp only [hrem', Finset.sdiff_empty] at hinv₂ hfound hsectors hpower
  have hall : numbers sectors = NF ∪ FS := by
    rw [hNFeq, hFSeq, Finset.sdiff_union_inter]
  refine ⟨?_, ?_, hw.1.removed, ?_, ?_, hw.2⟩
  · rw [hall, ← Finset.sup_eq_union, ← sdiff_sdiff_left]
    exact hinv₂
  · rw [hall]
    exact Finset.union_subset hNFlive (hfound.trans Finset.sdiff_subset)
  · rw [hsectors, hall]
  · rw [hpower, hFSeq]

end Removal

end ExpirationQueue

end BuiltinActors.Miner
