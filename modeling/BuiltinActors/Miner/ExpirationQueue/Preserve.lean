import BuiltinActors.Miner.ExpirationQueue.Inv

/-! # The operations keep the invariant

Each public operation of the queue, taken as the sequence of entry rewrites,
additions and deletions it performs, keeps `Inv` for the live sectors, faults
and schedule it leaves. The operations that move active sectors come first:
removal of the groups a search found, addition of new groups, and the
operations built from the two. -/

namespace BuiltinActors.Miner

namespace ExpirationQueue

variable {sectorSize : Nat} {info : Nat → SectorOnChainInfo} {sched : Nat → Int}
  {faults live : Finset Nat}

/-! ## Removing found groups -/

/-- Groups of active sectors as the queue holds them: each is part of the
on-time sectors of the entry at its epoch, with the totals of their infos,
and no two share an epoch. -/
structure GroupsIn (sectorSize : Nat) (info : Nat → SectorOnChainInfo) (faults : Finset Nat)
    (q : ExpirationQueue) (groups : List SectorExpirationSet) : Prop where
  entry : ∀ g ∈ groups, q.amt.get? g.sectorEpochSet.epoch = some g.expirationSet
  sub : ∀ g ∈ groups, g.sectorEpochSet.sectors ⊆ g.expirationSet.onTimeSectors
  totals : ∀ g ∈ groups, g.sectorEpochSet =
    epochSetOf sectorSize info g.sectorEpochSet.epoch g.sectorEpochSet.sectors
  active : ∀ g ∈ groups, Disjoint g.sectorEpochSet.sectors faults
  epochs : (groups.map (·.sectorEpochSet.epoch)).Nodup
  disjoint : (groups.map (·.sectorEpochSet.sectors)).Pairwise Disjoint

/-- The groups after the first still sit in a queue where only the first
group's entry was rewritten. -/
theorem GroupsIn.tail {q q' : ExpirationQueue} {g : SectorExpirationSet}
    {groups : List SectorExpirationSet} (hg : GroupsIn sectorSize info faults q (g :: groups))
    (hq' : ∀ k, k ≠ g.sectorEpochSet.epoch → q'.amt.get? k = q.amt.get? k) :
    GroupsIn sectorSize info faults q' groups where
  entry g' hg' := by
    have hne : g'.sectorEpochSet.epoch ≠ g.sectorEpochSet.epoch := fun he =>
      (List.nodup_cons.mp hg.epochs).1 (List.mem_map.mpr ⟨g', hg', he⟩)
    rw [hq' _ hne]
    exact hg.entry g' (List.mem_cons_of_mem _ hg')
  sub g' hg' := hg.sub g' (List.mem_cons_of_mem _ hg')
  totals g' hg' := hg.totals g' (List.mem_cons_of_mem _ hg')
  active g' hg' := hg.active g' (List.mem_cons_of_mem _ hg')
  epochs := (List.nodup_cons.mp hg.epochs).2
  disjoint := (List.pairwise_cons.mp hg.disjoint).2

/-- A group is disjoint from the groups after it. -/
theorem GroupsIn.disjoint_head {q : ExpirationQueue} {g : SectorExpirationSet}
    {groups : List SectorExpirationSet} (hg : GroupsIn sectorSize info faults q (g :: groups)) :
    Disjoint g.sectorEpochSet.sectors (unionAll (groups.map (·.sectorEpochSet.sectors))) := by
  rw [Finset.disjoint_right]
  intro n hn hng
  obtain ⟨t, ht, hnt⟩ := mem_unionAll.mp hn
  exact Finset.disjoint_left.mp (List.rel_of_pairwise_cons hg.disjoint ht) hng hnt

/-- Removing the groups one by one removes their sectors from the live ones. -/
theorem inv_removeGroups : ∀ (groups : List SectorExpirationSet) (q q' : ExpirationQueue)
    (live : Finset Nat), Inv sectorSize info sched faults live q →
    GroupsIn sectorSize info faults q groups → q.removeGroups groups = .ok q' →
    Inv sectorSize info sched faults
      (live \ unionAll (groups.map (·.sectorEpochSet.sectors))) q'
  | [], q, q', live, hinv, _, h => by
    cases h
    simpa using hinv
  | g :: groups, q, q', live, hinv, hg, h => by
    simp only [removeGroups, Except.bind_eq_ok] at h
    obtain ⟨q₁, h₁, h⟩ := h
    obtain ⟨es, hes, -, -, rfl⟩ := remove_ok h₁
    have hentry := hg.entry g List.mem_cons_self
    have hk : q.quant.quantizeUp g.sectorEpochSet.epoch = g.sectorEpochSet.epoch :=
      hinv.quantized hentry
    rw [hk, hentry, Option.some.injEq] at hes
    subst hes
    have htot := hg.totals g List.mem_cons_self
    have hpledge := congrArg SectorEpochSet.pledge htot
    have hpower := congrArg SectorEpochSet.power htot
    have hfee := congrArg SectorEpochSet.dailyFee htot
    simp only [epochSetOf] at hpledge hpower hfee
    have h₁ := hinv.removeActive hentry (hg.sub g List.mem_cons_self)
      (hg.active g List.mem_cons_self)
    rw [← hpledge, ← hpower, ← hfee] at h₁
    simp only [hk, Finset.sdiff_empty, sub_zero] at h
    have hrest := inv_removeGroups groups _ q' _ h₁
      (hg.tail fun k hk' => by rw [get?_mustUpdateOrDelete, if_neg hk']) h
    rwa [sdiff_sdiff_left] at hrest

/-- Per-group totals add up to the totals of all the groups' sectors. -/
theorem sum_groups {M : Type} [AddCommMonoid M] (f : Nat → M) (val : SectorEpochSet → M)
    {groups : List SectorEpochSet} (hval : ∀ g ∈ groups, val g = ∑ n ∈ g.sectors, f n)
    (hd : (groups.map SectorEpochSet.sectors).Pairwise Disjoint) :
    (groups.map val).sum = ∑ n ∈ unionAll (groups.map SectorEpochSet.sectors), f n := by
  rw [sum_unionAll f hd, List.map_map]
  exact congrArg List.sum (List.map_congr_left hval)

/-- The groups of a successful search, for agreeing infos of active sectors. -/
theorem Found.groupsIn {q : ExpirationQueue} {sectors : List SectorOnChainInfo}
    {groups : List SectorExpirationSet}
    (hF : Found q sectorSize (sectorsByNumber sectors) (numbers sectors) (groups, ∅))
    (hagree : InfosAgree info sectors) (hactive : Disjoint (numbers sectors) faults) :
    GroupsIn sectorSize info faults q groups := by
  have hsub : ∀ g ∈ groups, g.sectorEpochSet.sectors ⊆ numbers sectors := by
    intro g hg n hn
    rw [← hF.cover]
    exact Finset.mem_union_right _ (mem_unionAll.mpr ⟨_, List.mem_map_of_mem hg, hn⟩)
  refine ⟨fun g hg => (hF.group g hg).1, fun g hg => (hF.group g hg).2.2.2.1, ?_,
    fun g hg => hactive.mono_left (hsub g hg), hF.epochs, hF.disjoint⟩
  intro g hg
  rw [(hF.group g hg).2.1]
  exact epochSetOf_congr fun n hn => sectorsByNumber_getD hagree (hsub g hg hn)

/-- **Removing active sectors.** The sectors leave the queue, and the totals
returned are theirs. -/
theorem Inv.removeActiveSectors (hinv : Inv sectorSize info sched faults live q)
    {sectors : List SectorOnChainInfo} (hagree : InfosAgree info sectors)
    (hactive : Disjoint (numbers sectors) faults) {q' : ExpirationQueue} {removed : Finset Nat}
    {power : PowerPair} {pledge fee : Int}
    (h : q.removeActiveSectors sectors sectorSize = .ok (q', removed, power, pledge, fee)) :
    Inv sectorSize info sched faults (live \ numbers sectors) q' ∧ numbers sectors ⊆ live ∧
      removed = numbers sectors ∧
      power = ∑ n ∈ numbers sectors, powerForSector sectorSize (info n) ∧
      pledge = ∑ n ∈ numbers sectors, (info n).initialPledge ∧
      fee = ∑ n ∈ numbers sectors, (info n).dailyFee := by
  simp only [ExpirationQueue.removeActiveSectors, Except.bind_eq_ok, Except.pure_eq_ok,
    Prod.mk.injEq] at h
  obtain ⟨groups, hfind, q₁, hrem, rfl, rfl, rfl, rfl, rfl⟩ := h
  have hF := findSectorsByExpiration_ok hfind
  have hg := hF.groupsIn hagree hactive
  have hcover₀ : unionAll (groups.map (·.sectorEpochSet.sectors)) = numbers sectors := by
    rw [← hF.cover, Finset.empty_union]
  have hcover : unionAll ((groups.map SectorExpirationSet.sectorEpochSet).map
      SectorEpochSet.sectors) = numbers sectors := by
    rw [List.map_map]
    exact hcover₀
  have hd : ((groups.map SectorExpirationSet.sectorEpochSet).map SectorEpochSet.sectors).Pairwise
      Disjoint := by
    rw [List.map_map]
    exact hF.disjoint
  have htot : ∀ g ∈ groups.map SectorExpirationSet.sectorEpochSet,
      g = epochSetOf sectorSize info g.epoch g.sectors := by
    intro g hg'
    obtain ⟨g', hmem, rfl⟩ := List.mem_map.mp hg'
    exact hg.totals g' hmem
  have hinv' := inv_removeGroups groups q q₁ live hinv hg hrem
  rw [hcover₀] at hinv'
  -- every listed sector was found on time in an entry
  have hlive : numbers sectors ⊆ live := by
    intro n hn
    rw [← hcover₀] at hn
    obtain ⟨t, ht, hnt⟩ := mem_unionAll.mp hn
    obtain ⟨g, hmem, rfl⟩ := List.mem_map.mp ht
    exact hinv.mem_live (hg.entry g hmem) (Finset.mem_union_left _ (hg.sub g hmem hnt))
  refine ⟨hinv', hlive, hcover, ?_, ?_, ?_⟩
  · rw [← hcover]
    exact sum_groups _ _ (fun g hg => congrArg SectorEpochSet.power (htot g hg)) hd
  · rw [← hcover]
    exact sum_groups _ _ (fun g hg => congrArg SectorEpochSet.pledge (htot g hg)) hd
  · rw [← hcover]
    exact sum_groups _ _ (fun g hg => congrArg SectorEpochSet.dailyFee (htot g hg)) hd

/-! ## Adding new groups -/

/-- New groups of active sectors, each with the totals of its sectors and
scheduled at its epoch. -/
structure NewGroups (sectorSize : Nat) (info : Nat → SectorOnChainInfo) (sched : Nat → Int)
    (faults : Finset Nat) (quant : QuantSpec) (groups : List SectorEpochSet) : Prop where
  totals : ∀ g ∈ groups, g = epochSetOf sectorSize info g.epoch g.sectors
  nonempty : ∀ g ∈ groups, g.sectors.Nonempty
  active : ∀ g ∈ groups, Disjoint g.sectors faults
  at_epoch : ∀ g ∈ groups, ∀ n ∈ g.sectors, g.epoch = quant.quantizeUp (sched n)
  disjoint : (groups.map SectorEpochSet.sectors).Pairwise Disjoint

theorem NewGroups.tail {quant : QuantSpec} {g : SectorEpochSet} {groups : List SectorEpochSet}
    (hg : NewGroups sectorSize info sched faults quant (g :: groups)) :
    NewGroups sectorSize info sched faults quant groups where
  totals g' hg' := hg.totals g' (List.mem_cons_of_mem _ hg')
  nonempty g' hg' := hg.nonempty g' (List.mem_cons_of_mem _ hg')
  active g' hg' := hg.active g' (List.mem_cons_of_mem _ hg')
  at_epoch g' hg' := hg.at_epoch g' (List.mem_cons_of_mem _ hg')
  disjoint := (List.pairwise_cons.mp hg.disjoint).2

/-- Adding the groups one by one makes their sectors live. -/
theorem inv_addGroups : ∀ (groups : List SectorEpochSet) (q q' : ExpirationQueue)
    (live : Finset Nat), 0 < q.quant.unit → Inv sectorSize info sched faults live q →
    NewGroups sectorSize info sched faults q.quant groups →
    Disjoint (unionAll (groups.map SectorEpochSet.sectors)) live → q.addGroups groups = .ok q' →
    Inv sectorSize info sched faults (live ∪ unionAll (groups.map SectorEpochSet.sectors)) q'
  | [], q, q', live, _, hinv, _, _, h => by
    cases h
    simpa using hinv
  | g :: groups, q, q', live, hu, hinv, hg, hfresh, h => by
    simp only [addGroups, Except.bind_eq_ok, Except.mapError_eq_ok] at h
    obtain ⟨q₁, h₁, h⟩ := h
    have htot := hg.totals g List.mem_cons_self
    have hpledge := congrArg SectorEpochSet.pledge htot
    have hpower := congrArg SectorEpochSet.power htot
    have hfee := congrArg SectorEpochSet.dailyFee htot
    simp only [epochSetOf] at hpledge hpower hfee
    have hS : Disjoint g.sectors faults := hg.active g List.mem_cons_self
    have hfresh₁ : Disjoint g.sectors live :=
      hfresh.mono_left fun n hn => mem_unionAll.mpr ⟨_, List.mem_cons_self, hn⟩
    have hinv₁ := hinv.add h₁
      (by rw [ExpirationSet.memoOf_active hS, hpledge, hpower, hfee])
      (by rwa [Finset.union_empty]) (Finset.disjoint_empty_right _) (Finset.empty_subset _)
      (by rw [Finset.union_empty]; exact hg.nonempty g List.mem_cons_self)
      (fun n hn => by rw [hg.at_epoch g List.mem_cons_self n hn, QuantSpec.quantizeUp_idem])
      (fun n hn => absurd hn (Finset.notMem_empty n))
    rw [Finset.union_empty] at hinv₁
    have hq : q₁.quant = q.quant := add_quant h₁
    -- the groups after the first are disjoint from it, hence fresh after it
    have hrest : Disjoint (unionAll (groups.map SectorEpochSet.sectors)) (live ∪ g.sectors) := by
      refine Finset.disjoint_union_right.mpr ⟨hfresh.mono_left fun n hn => ?_, ?_⟩
      · obtain ⟨t, ht, hnt⟩ := mem_unionAll.mp hn
        exact mem_unionAll.mpr ⟨t, List.mem_cons_of_mem _ ht, hnt⟩
      · rw [Finset.disjoint_left]
        intro n hn hng
        obtain ⟨t, ht, hnt⟩ := mem_unionAll.mp hn
        exact Finset.disjoint_left.mp (List.rel_of_pairwise_cons hg.disjoint ht) hng hnt
    have h' := inv_addGroups groups q₁ q' _ (hq ▸ hu) hinv₁ (hq ▸ hg.tail) hrest h
    rwa [Finset.union_assoc] at h'

/-- **Adding active sectors.** New sectors, scheduled at their declared
expirations, become live; the totals returned are theirs. -/
theorem Inv.addActiveSectors (hinv : Inv sectorSize info sched faults live q)
    (hu : 0 < q.quant.unit) {sectors : List SectorOnChainInfo} (hagree : InfosAgree info sectors)
    (hnd : (sectors.map SectorOnChainInfo.sectorNumber).Nodup)
    (hfresh : Disjoint (numbers sectors) live) (hactive : Disjoint (numbers sectors) faults)
    (hsched : ∀ n ∈ numbers sectors, sched n = (info n).expiration) {q' : ExpirationQueue}
    {added : Finset Nat} {power : PowerPair} {pledge fee : Int}
    (h : q.addActiveSectors sectors sectorSize = .ok (q', added, power, pledge, fee)) :
    Inv sectorSize info sched faults (live ∪ numbers sectors) q' ∧ added = numbers sectors ∧
      power = ∑ n ∈ numbers sectors, powerForSector sectorSize (info n) ∧
      pledge = ∑ n ∈ numbers sectors, (info n).initialPledge ∧
      fee = ∑ n ∈ numbers sectors, (info n).dailyFee := by
  simp only [ExpirationQueue.addActiveSectors, Except.bind_eq_ok, Except.pure_eq_ok,
    Prod.mk.injEq] at h
  obtain ⟨q₁, hadd, rfl, rfl, rfl, rfl, rfl⟩ := h
  set groups := groupNewSectorsByDeclaredExpiration sectorSize sectors q.quant
  obtain ⟨hep, hgs, hcov⟩ := groupNewSectorsByDeclaredExpiration_spec q.quant sectorSize hagree hnd
  have hsec : ∀ g ∈ groups, g.sectors =
      (numbers sectors).filter fun n => q.quant.quantizeUp (info n).expiration = g.epoch :=
    fun g hg => congrArg SectorEpochSet.sectors (hgs g hg).1
  have hsub : ∀ g ∈ groups, g.sectors ⊆ numbers sectors := fun g hg => by
    rw [hsec g hg]
    exact Finset.filter_subset _ _
  have hcover : unionAll (groups.map SectorEpochSet.sectors) = numbers sectors := by
    ext n
    rw [mem_unionAll]
    constructor
    · rintro ⟨t, ht, hn⟩
      obtain ⟨g, hg, rfl⟩ := List.mem_map.mp ht
      exact hsub g hg hn
    · intro hn
      obtain ⟨g, hg, he⟩ := hcov n hn
      refine ⟨g.sectors, List.mem_map_of_mem hg, ?_⟩
      rw [hsec g hg]
      exact Finset.mem_filter.mpr ⟨hn, he.symm⟩
  -- groups at distinct epochs hold disjoint sectors
  have hdisj : (groups.map SectorEpochSet.sectors).Pairwise Disjoint := by
    rw [List.pairwise_map]
    refine (List.pairwise_map.mp hep).imp_of_mem fun {a b} ha hb hab => ?_
    rw [hsec a ha, hsec b hb]
    exact Finset.disjoint_filter.mpr fun n _ h₁ h₂ => hab (h₁.symm.trans h₂)
  have htot : ∀ g ∈ groups, g = epochSetOf sectorSize info g.epoch g.sectors := fun g hg =>
    (hgs g hg).1.trans (by rw [← hsec g hg])
  have hat : ∀ g ∈ groups, ∀ n ∈ g.sectors, g.epoch = q.quant.quantizeUp (sched n) := by
    intro g hg n hn
    rw [hsched n (hsub g hg hn)]
    rw [hsec g hg] at hn
    exact (Finset.mem_filter.mp hn).2.symm
  have hng : NewGroups sectorSize info sched faults q.quant groups :=
    ⟨htot, fun g hg => (hgs g hg).2, fun g hg => hactive.mono_left (hsub g hg), hat, hdisj⟩
  have hinv' := inv_addGroups groups q q₁ live hu hinv hng (hcover ▸ hfresh) hadd
  rw [hcover] at hinv'
  refine ⟨hinv', hcover, ?_, ?_, ?_⟩
  · rw [← hcover]
    exact sum_groups _ _ (fun g hg => congrArg SectorEpochSet.power (htot g hg)) hdisj
  · rw [← hcover]
    exact sum_groups _ _ (fun g hg => congrArg SectorEpochSet.pledge (htot g hg)) hdisj
  · rw [← hcover]
    exact sum_groups _ _ (fun g hg => congrArg SectorEpochSet.dailyFee (htot g hg)) hdisj

/-! ## Moving and replacing active sectors -/

/-- **Rescheduling expirations.** Active sectors move, on time, to the new
expiration, which becomes their scheduled epoch. -/
theorem Inv.rescheduleExpirations (hinv : Inv sectorSize info sched faults live q)
    {newExpiration : Int} {sectors : List SectorOnChainInfo}
    (hagree : InfosAgree info sectors) (hactive : Disjoint (numbers sectors) faults)
    {q' : ExpirationQueue} (h : q.rescheduleExpirations newExpiration sectors sectorSize = .ok q') :
    Inv sectorSize info (fun n => if n ∈ numbers sectors then newExpiration else sched n)
      faults live q' := by
  unfold ExpirationQueue.rescheduleExpirations at h
  split at h
  · -- nothing to move
    rename_i hempty
    cases h
    have hR : numbers sectors = ∅ := by
      rw [List.isEmpty_iff.mp hempty]
      rfl
    exact hinv.congr (fun _ _ => rfl) (fun n _ => by simp [hR]) (fun _ _ => Iff.rfl)
  · rename_i hne
    simp only [Except.bind_eq_ok, Except.mapError_eq_ok] at h
    obtain ⟨⟨q₁, removed, power, pledge, fee⟩, hrem, hadd⟩ := h
    obtain ⟨hinv₁, hlive, rfl, rfl, rfl, rfl⟩ := hinv.removeActiveSectors hagree hactive hrem
    have hq : q₁.quant = q.quant := removeActiveSectors_quant hrem
    have hR : (numbers sectors).Nonempty := by
      obtain ⟨s, hs⟩ := List.exists_mem_of_ne_nil sectors (by simpa using hne)
      exact ⟨s.sectorNumber, mem_numbers.mpr ⟨s, hs, rfl⟩⟩
    -- the sectors are out of the queue while their schedule changes
    have hinv₂ : Inv sectorSize info (fun n => if n ∈ numbers sectors then newExpiration else sched n)
        faults (live \ numbers sectors) q₁ :=
      hinv₁.congr (fun _ _ => rfl) (fun n hn => if_neg (Finset.mem_sdiff.mp hn).2)
        fun _ _ => Iff.rfl
    have h' := hinv₂.add hadd (by rw [ExpirationSet.memoOf_active hactive])
      (by rw [Finset.union_empty]; exact Finset.disjoint_sdiff) (Finset.disjoint_empty_right _)
      (Finset.empty_subset _) (by rwa [Finset.union_empty]) (fun n hn => by simp [hn])
      (fun n hn => absurd hn (Finset.notMem_empty n))
    rwa [Finset.union_empty, Finset.sdiff_union_of_subset hlive] at h'

/-- **Replacing sectors.** Active old sectors leave; new ones, with their own
infos, are added active at their declared expirations. -/
theorem Inv.replaceSectors (hinv : Inv sectorSize info sched faults live q)
    (hu : 0 < q.quant.unit) {oldSectors newSectors : List SectorOnChainInfo}
    (hold : InfosAgree info oldSectors) (hactive : Disjoint (numbers oldSectors) faults)
    (hnd : (newSectors.map SectorOnChainInfo.sectorNumber).Nodup)
    (hfresh : Disjoint (numbers newSectors) (live \ numbers oldSectors))
    (hnew : Disjoint (numbers newSectors) faults) {q' : ExpirationQueue}
    {r : Finset Nat × Finset Nat × PowerPair × Int × Int}
    (h : q.replaceSectors oldSectors newSectors sectorSize = .ok (q', r)) :
    Inv sectorSize (overrideInfos info newSectors)
      (fun n => if n ∈ numbers newSectors then (overrideInfos info newSectors n).expiration
        else sched n)
      faults (live \ numbers oldSectors ∪ numbers newSectors) q' := by
  simp only [ExpirationQueue.replaceSectors, Except.bind_eq_ok, Except.mapError_eq_ok,
    Except.pure_eq_ok] at h
  obtain ⟨⟨q₁, _, _, _, _⟩, hrem, ⟨q₂, _, _, _, _⟩, hadd, heq⟩ := h
  obtain rfl : q₂ = q' := (Prod.mk.inj heq).1
  obtain ⟨hinv₁, -⟩ := hinv.removeActiveSectors hold hactive hrem
  -- the new numbers are out of the queue, so their infos and schedule may change
  have hinv₂ : Inv sectorSize (overrideInfos info newSectors)
      (fun n => if n ∈ numbers newSectors then (overrideInfos info newSectors n).expiration
        else sched n)
      faults (live \ numbers oldSectors) q₁ :=
    hinv₁.congr (fun n hn => overrideInfos_of_notMem (Finset.disjoint_right.mp hfresh hn))
      (fun n hn => if_neg (Finset.disjoint_right.mp hfresh hn)) fun _ _ => Iff.rfl
  exact (hinv₂.addActiveSectors (removeActiveSectors_quant hrem ▸ hu) (overrideInfos_agree hnd)
    hnd hfresh hnew (fun n hn => if_pos hn) hadd).1

/-! ## Turning active sectors faulty -/

/-- The sectors of a list of groups. -/
def sectorsOf (groups : List SectorExpirationSet) : Finset Nat :=
  unionAll (groups.map (·.sectorEpochSet.sectors))

@[simp] theorem sectorsOf_nil : sectorsOf [] = ∅ := rfl

theorem sectorsOf_cons (g : SectorExpirationSet) (groups : List SectorExpirationSet) :
    sectorsOf (g :: groups) = g.sectorEpochSet.sectors ∪ sectorsOf groups := rfl

/-- The sectors of `R` whose scheduled epoch is due by `epoch`. -/
def dueBy (quant : QuantSpec) (sched : Nat → Int) (epoch : Int) (R : Finset Nat) : Finset Nat :=
  R.filter fun n => quant.quantizeUp (sched n) ≤ epoch

section DueBy

variable {quant : QuantSpec} {e : Int} {A B : Finset Nat}

theorem dueBy_union : dueBy quant sched e (A ∪ B) = dueBy quant sched e A ∪ dueBy quant sched e B :=
  Finset.filter_union _ _ _

theorem dueBy_subset : dueBy quant sched e A ⊆ A := Finset.filter_subset _ _

theorem dueBy_of_le (h : ∀ n ∈ A, quant.quantizeUp (sched n) ≤ e) : dueBy quant sched e A = A :=
  Finset.filter_true_of_mem h

theorem dueBy_of_lt (h : ∀ n ∈ A, e < quant.quantizeUp (sched n)) : dueBy quant sched e A = ∅ :=
  Finset.filter_false_of_mem fun n hn => not_le.mpr (h n hn)

end DueBy

theorem GroupsIn.fault {q : ExpirationQueue} {groups : List SectorExpirationSet}
    (hg : GroupsIn sectorSize info faults q groups) {S : Finset Nat}
    (hS : Disjoint S (sectorsOf groups)) : GroupsIn sectorSize info (faults ∪ S) q groups where
  entry := hg.entry
  sub := hg.sub
  totals := hg.totals
  active g hg' := by
    have hsub : g.sectorEpochSet.sectors ⊆ sectorsOf groups := fun n hn =>
      mem_unionAll.mpr ⟨g.sectorEpochSet.sectors, List.mem_map.mpr ⟨g, hg', rfl⟩, hn⟩
    exact Finset.disjoint_union_right.mpr ⟨hg.active g hg', (hS.mono_right hsub).symm⟩
  epochs := hg.epochs
  disjoint := hg.disjoint

theorem inv_faultGroups (nqe : Int) : ∀ (groups : List SectorExpirationSet)
    (q q' : ExpirationQueue) (faults live moved : Finset Nat) (expiring rescheduled : PowerPair)
    (fee : Int), Inv sectorSize info sched faults live q → GroupsIn sectorSize info faults q groups →
    faultGroups nqe q groups = .ok (q', moved, expiring, rescheduled, fee) →
    Inv sectorSize info sched (faults ∪ dueBy q.quant sched nqe (sectorsOf groups))
        (live \ (sectorsOf groups \ dueBy q.quant sched nqe (sectorsOf groups))) q' ∧
      moved = sectorsOf groups \ dueBy q.quant sched nqe (sectorsOf groups) ∧
      expiring = ∑ n ∈ dueBy q.quant sched nqe (sectorsOf groups),
        powerForSector sectorSize (info n) ∧
      rescheduled = ∑ n ∈ sectorsOf groups \ dueBy q.quant sched nqe (sectorsOf groups),
        powerForSector sectorSize (info n) ∧
      fee = ∑ n ∈ sectorsOf groups \ dueBy q.quant sched nqe (sectorsOf groups), (info n).dailyFee
  | [], q, q', faults, live, moved, expiring, rescheduled, fee, hinv, _, h => by
    cases h
    simpa [dueBy] using hinv
  | g :: groups, q, q', faults, live, moved, expiring, rescheduled, fee, hinv, hg, h => by
    simp only [faultGroups, Except.bind_eq_ok, Except.pure_eq_ok] at h
    obtain ⟨-, -, ⟨q'', moved', expiring', rescheduled', fee'⟩, hrest, heq⟩ := h
    simp only [Prod.mk.injEq] at heq
    obtain ⟨rfl, rfl, rfl, rfl, rfl⟩ := heq
    have hentry := hg.entry g List.mem_cons_self
    have hsub := hg.sub g List.mem_cons_self
    have hact := hg.active g List.mem_cons_self
    have htot := hg.totals g List.mem_cons_self
    have hpledge := congrArg SectorEpochSet.pledge htot
    have hpower := congrArg SectorEpochSet.power htot
    have hfee := congrArg SectorEpochSet.dailyFee htot
    simp only [epochSetOf] at hpledge hpower hfee
    have hdisj : Disjoint g.sectorEpochSet.sectors (sectorsOf groups) := hg.disjoint_head
    have htail : ∀ k, k ≠ g.sectorEpochSet.epoch →
        ∀ es, (q.mustUpdateOrDelete g.sectorEpochSet.epoch es).amt.get? k = q.amt.get? k :=
      fun k hk es => by rw [get?_mustUpdateOrDelete, if_neg hk]
    -- every sector of the group is scheduled at the group's epoch
    have hat : ∀ n ∈ g.sectorEpochSet.sectors,
        q.quant.quantizeUp (sched n) = g.sectorEpochSet.epoch :=
      fun n hn => (hinv.onTime_at hentry (hsub hn)).symm
    rw [sectorsOf_cons, dueBy_union]
    by_cases hle : g.sectorEpochSet.epoch ≤ nqe
    · -- the group expires by the fault epoch: it stays, and turns faulty
      have hS : dueBy q.quant sched nqe g.sectorEpochSet.sectors = g.sectorEpochSet.sectors :=
        dueBy_of_le fun n hn => (hat n hn).trans_le hle
      simp only [faultGroup, if_pos hle] at hrest ⊢
      rw [hpower] at hrest
      obtain ⟨hinv', rfl, rfl, rfl, rfl⟩ := inv_faultGroups nqe groups _ q'' _ _ _ _ _ _
        (hinv.faultOnTime hentry hsub hact) ((hg.tail fun k hk => htail k hk _).fault hdisj) hrest
      rw [mustUpdateOrDelete_quant] at hinv' ⊢
      have hD : dueBy q.quant sched nqe (sectorsOf groups) ⊆ sectorsOf groups := dueBy_subset
      have hset : (g.sectorEpochSet.sectors ∪ sectorsOf groups) \
          (g.sectorEpochSet.sectors ∪ dueBy q.quant sched nqe (sectorsOf groups)) =
          sectorsOf groups \ dueBy q.quant sched nqe (sectorsOf groups) := by
        ext n
        have := fun h : n ∈ g.sectorEpochSet.sectors => Finset.disjoint_left.mp hdisj h
        simp only [Finset.mem_sdiff, Finset.mem_union]
        grind
      rw [hS, hset, ← Finset.union_assoc, hpower,
        Finset.sum_union (hdisj.mono_right hD), Finset.empty_union, zero_add, zero_add]
      exact ⟨hinv', rfl, rfl, rfl, rfl⟩
    · -- the group expires after it: its sectors leave, to be re-added early
      have hS : dueBy q.quant sched nqe g.sectorEpochSet.sectors = ∅ :=
        dueBy_of_lt fun n hn => (hat n hn).symm ▸ not_le.mp hle
      simp only [faultGroup, if_neg hle] at hrest ⊢
      rw [hpower, hpledge, hfee] at hrest
      obtain ⟨hinv', rfl, rfl, rfl, rfl⟩ := inv_faultGroups nqe groups _ q'' _ _ _ _ _ _
        (hinv.removeActive hentry hsub hact) (hg.tail fun k hk => htail k hk _) hrest
      rw [mustUpdateOrDelete_quant] at hinv' ⊢
      have hD : sectorsOf groups \ dueBy q.quant sched nqe (sectorsOf groups) ⊆ sectorsOf groups :=
        Finset.sdiff_subset
      have hset : (g.sectorEpochSet.sectors ∪ sectorsOf groups) \
          (∅ ∪ dueBy q.quant sched nqe (sectorsOf groups)) =
          g.sectorEpochSet.sectors ∪ (sectorsOf groups \ dueBy q.quant sched nqe (sectorsOf groups)) := by
        ext n
        have := fun h : n ∈ g.sectorEpochSet.sectors => Finset.disjoint_left.mp hdisj h
        have : n ∈ dueBy q.quant sched nqe (sectorsOf groups) → n ∈ sectorsOf groups :=
          fun h => dueBy_subset h
        simp only [Finset.mem_sdiff, Finset.mem_union, Finset.notMem_empty]
        grind
      rw [hS, hset, Finset.empty_union, hpower, hfee, Finset.sum_union (hdisj.mono_right hD),
        Finset.sum_union (hdisj.mono_right hD), zero_add]
      rw [sdiff_sdiff_left] at hinv'
      exact ⟨hinv', rfl, rfl, rfl, rfl⟩

/-- The sectors of the groups are live. -/
theorem GroupsIn.sectorsOf_subset {q : ExpirationQueue} {groups : List SectorExpirationSet}
    (hg : GroupsIn sectorSize info faults q groups) (hinv : Inv sectorSize info sched faults live q) :
    sectorsOf groups ⊆ live := by
  intro n hn
  obtain ⟨t, ht, hnt⟩ := mem_unionAll.mp hn
  obtain ⟨g, hmem, rfl⟩ := List.mem_map.mp ht
  exact hinv.mem_live (hg.entry g hmem) (Finset.mem_union_left _ (hg.sub g hmem hnt))

/-- A successful search groups exactly the listed sectors. -/
theorem Found.sectorsOf_eq {q : ExpirationQueue} {sectors : List SectorOnChainInfo}
    {groups : List SectorExpirationSet}
    (hF : Found q sectorSize (sectorsByNumber sectors) (numbers sectors) (groups, ∅)) :
    sectorsOf groups = numbers sectors := by
  rw [← hF.cover, Finset.empty_union]
  rfl

/-- **Rescheduling as faults.** Active sectors turn faulty: those due by the
fault epoch stay on time, the others move early to it. The power returned is
theirs. -/
theorem Inv.rescheduleAsFaults (hinv : Inv sectorSize info sched faults live q)
    {newExpiration : Int} {sectors : List SectorOnChainInfo}
    (hagree : InfosAgree info sectors) (hactive : Disjoint (numbers sectors) faults)
    {q' : ExpirationQueue} {power : PowerPair}
    (h : q.rescheduleAsFaults newExpiration sectors sectorSize = .ok (q', power)) :
    Inv sectorSize info sched (faults ∪ numbers sectors) live q' ∧
      power = ∑ n ∈ numbers sectors, powerForSector sectorSize (info n) := by
  simp only [ExpirationQueue.rescheduleAsFaults, Except.bind_eq_ok] at h
  obtain ⟨groups, hfind, ⟨q₁, moved, expiring, rescheduled, fee⟩, hfault, h⟩ := h
  have hF := findSectorsByExpiration_ok hfind
  have hg := hF.groupsIn hagree hactive
  have hR := hF.sectorsOf_eq
  have hlive := hg.sectorsOf_subset hinv
  obtain ⟨hinv₁, rfl, rfl, rfl, rfl⟩ := inv_faultGroups _ groups q q₁ faults live _ _ _ _ hinv hg hfault
  simp only [hR] at hinv₁ hlive h
  set D := dueBy q.quant sched (q.quant.quantizeUp newExpiration) (numbers sectors)
  have hD : D ⊆ numbers sectors := dueBy_subset
  -- the sectors left are either outside the group or due, so faulty either way
  have hinv₂ : Inv sectorSize info sched (faults ∪ numbers sectors)
      (live \ (numbers sectors \ D)) q₁ := by
    refine hinv₁.congr (fun _ _ => rfl) (fun _ _ => rfl) fun n hn => ?_
    have hn' := (Finset.mem_sdiff.mp hn).2
    simp only [Finset.mem_union, Finset.mem_sdiff, not_and, not_not] at hn' ⊢
    constructor
    · rintro (hf | hr)
      · exact .inl hf
      · exact .inr (hn' hr)
    · rintro (hf | hd)
      · exact .inl hf
      · exact .inr (hD hd)
  have hpower : ∑ n ∈ numbers sectors \ D, powerForSector sectorSize (info n) +
      ∑ n ∈ D, powerForSector sectorSize (info n) =
        ∑ n ∈ numbers sectors, powerForSector sectorSize (info n) :=
    Finset.sum_sdiff hD
  split at h
  · -- the sectors due later move early to the fault epoch
    rename_i hne
    simp only [Except.bind_eq_ok, Except.pure_eq_ok, Prod.mk.injEq] at h
    obtain ⟨q₂, hadd, rfl, rfl⟩ := h
    have hq : q₁.quant = q.quant := faultGroups_quant hfault
    have hlate : ∀ n ∈ numbers sectors \ D,
        q₁.quant.quantizeUp newExpiration < q₁.quant.quantizeUp (sched n) := by
      intro n hn
      obtain ⟨hn, hnd⟩ := Finset.mem_sdiff.mp hn
      rw [hq]
      exact not_le.mp fun hle => hnd (Finset.mem_filter.mpr ⟨hn, hle⟩)
    have h' := hinv₂.add hadd (by rw [ExpirationSet.memoOf_early])
      (by rw [Finset.empty_union]; exact Finset.disjoint_sdiff) (Finset.disjoint_empty_left _)
      (fun n hn => Finset.mem_union_right _ (Finset.mem_sdiff.mp hn).1)
      (by rwa [Finset.empty_union, Finset.nonempty_iff_ne_empty])
      (fun n hn => absurd hn (Finset.notMem_empty n)) hlate
    rw [Finset.empty_union, Finset.sdiff_union_of_subset (Finset.sdiff_subset.trans hlive)] at h'
    exact ⟨h', hpower⟩
  · rename_i hempty
    simp only [Except.bind_eq_ok, Except.pure_eq_ok, Prod.mk.injEq] at h
    obtain ⟨_, rfl, rfl, rfl⟩ := h
    rw [not_not] at hempty
    rw [hempty, Finset.sdiff_empty] at hinv₂
    refine ⟨hinv₂, ?_⟩
    rw [← hpower, hempty, Finset.sum_empty, zero_add]

/-! ## Rescheduling all sectors as faults -/

/-- Writing back the entries due by the fault epoch with all their power
faulty turns their sectors faulty, in place. -/
theorem Inv.faultDue (hinv : Inv sectorSize info sched faults live q) (qfe : Int) :
    Inv sectorSize info sched (faults ∪ q.sectorsBy (· ≤ qfe)) live
      (((q.amt.entries.filter fun e => e.1 ≤ qfe).map fun e => (e.1, faultAll e.2)).foldl
        (fun q e => q.mustUpdate e.1 e.2) q) := by
  set l := q.amt.entries.filter fun e => e.1 ≤ qfe
  have hl : ∀ e ∈ l, q.amt.get? e.1 = some e.2 := fun e he =>
    OrdMap.get?_eq_some_iff.mpr (List.mem_of_mem_filter he)
  have hnd : (l.map Prod.fst).Nodup := (OrdMap.keys_nodup q.amt).sublist (List.filter_sublist.map _)
  have hget := get?_foldl_mustUpdate faultAll l q hl hnd
  -- a key is rewritten exactly when it holds an entry due by the fault epoch
  have hmem : ∀ k es, q.amt.get? k = some es → (k ∈ l.map Prod.fst ↔ k ≤ qfe) := by
    intro k es h
    simp only [l, List.mem_map, List.mem_filter, decide_eq_true_eq]
    constructor
    · rintro ⟨e, ⟨-, hle⟩, rfl⟩
      exact hle
    · intro hle
      exact ⟨(k, es), ⟨OrdMap.get?_eq_some_iff.mp h, hle⟩, rfl⟩
  refine hinv.map (fun k es => if k ≤ qfe then faultAll es else es) (quant_foldl_mustUpdate _ _)
    ?_ ?_ ?_ ?_
  · intro k
    rw [hget k]
    rcases h : q.amt.get? k with _ | es
    · simp
    · by_cases hk : k ≤ qfe <;> simp [hk, hmem k es h]
  · intro k es _
    split_ifs <;> rfl
  · intro k es _
    split_ifs <;> rfl
  · intro k es h
    have hm := hinv.memo h
    split_ifs with hk
    · -- all the entry's sectors are due, so faulty afterwards
      have heq : faultAll es = ExpirationSet.memoOf sectorSize info
          (faults ∪ es.onTimeSectors) es.onTimeSectors es.earlySectors := by
        rw [ExpirationSet.memoOf_faultAll, ← hm.eq_memoOf]
        rfl
      rw [heq]
      refine (ExpirationSet.memo_memoOf hm.disjoint
        (hm.early_faulty.trans Finset.subset_union_left) hm.nonempty).congr (fun _ _ => rfl) ?_
      intro n hn
      rw [ExpirationSet.memoOf_sectors] at hn
      have hdue : n ∈ q.sectorsBy (· ≤ qfe) :=
        mem_sectorsBy.mpr ⟨k, hk, mem_sectorsAt.mpr ⟨es, h, hn⟩⟩
      rcases Finset.mem_union.mp hn with hn | hn
      · simp [hdue, hn]
      · simp [hdue, hm.early_faulty hn]
    · -- none of the entry's sectors is due
      refine hm.congr (fun _ _ => rfl) fun n hn => ?_
      have hdue : n ∉ q.sectorsBy (· ≤ qfe) := by
        intro hd
        obtain ⟨k', hk', hn'⟩ := mem_sectorsBy.mp hd
        exact hk (hinv.unique (mem_sectorsAt.mpr ⟨es, h, hn⟩) hn' ▸ hk')
      simp [hdue]

/-- The entries after the fault epoch, none with early sectors: their on-time
sectors are all their sectors, and their totals are those of these sectors. -/
theorem Inv.late_totals (hinv : Inv sectorSize info sched faults live q) (qfe : Int)
    (hnoEarly : ∀ e ∈ q.amt.entries, ¬ e.1 ≤ qfe → e.2.earlySectors = ∅) :
    unionAll ((q.amt.entries.filter fun e => ¬ e.1 ≤ qfe).map (·.2.onTimeSectors)) =
        q.sectorsBy (¬ · ≤ qfe) ∧
      ((q.amt.entries.filter fun e => ¬ e.1 ≤ qfe).map
          fun e => e.2.activePower + e.2.faultyPower).sum =
        ∑ n ∈ q.sectorsBy (¬ · ≤ qfe), powerForSector sectorSize (info n) ∧
      ((q.amt.entries.filter fun e => ¬ e.1 ≤ qfe).map (·.2.feeDeduction)).sum =
        ∑ n ∈ q.sectorsBy (¬ · ≤ qfe), (info n).dailyFee := by
  set L := q.amt.entries.filter fun e => ¬ e.1 ≤ qfe
  have hL : ∀ e ∈ L, q.amt.get? e.1 = some e.2 ∧ e.2.earlySectors = ∅ := by
    intro e he
    obtain ⟨he, hgt⟩ := List.mem_filter.mp he
    exact ⟨OrdMap.get?_eq_some_iff.mpr he, hnoEarly e he (of_decide_eq_true hgt)⟩
  have hon : unionAll (L.map (·.2.onTimeSectors)) = q.sectorsBy (¬ · ≤ qfe) := by
    simp only [sectorsBy, L]
    congr 1
    refine List.map_congr_left fun e he => ?_
    rw [ExpirationSet.sectors, (hL e he).2, Finset.union_empty]
  have hdisj : (L.map (·.2.onTimeSectors)).Pairwise Disjoint := by
    have hsub : (L.map fun e : Int × ExpirationSet => e.2.sectors).Sublist
        (q.amt.entries.map fun e => e.2.sectors) := List.filter_sublist.map _
    have h := hinv.pairwise_disjoint.sublist hsub
    rw [List.pairwise_map] at h ⊢
    exact h.imp fun hd => hd.mono Finset.subset_union_left Finset.subset_union_left
  -- each entry's totals are those of its on-time sectors
  have hmemo : ∀ e ∈ L, e.2 = ExpirationSet.memoOf sectorSize info faults e.2.onTimeSectors ∅ :=
    fun e he => by
      have h := (hinv.memo (hL e he).1).eq_memoOf
      rwa [(hL e he).2] at h
  rw [← hon, sum_unionAll _ hdisj, sum_unionAll _ hdisj, List.map_map, List.map_map]
  refine ⟨rfl, congrArg List.sum (List.map_congr_left fun e he => ?_),
    congrArg List.sum (List.map_congr_left fun e he => ?_)⟩
  · rw [hmemo e he, ExpirationSet.memoOf_power_total]
    simp
  · rw [hmemo e he]
    simp [ExpirationSet.memoOf]

/-- **Rescheduling all as faults.** Every live sector turns faulty: entries
due by the fault epoch stay in place, later ones move early to it. -/
theorem Inv.rescheduleAllAsFaults (hinv : Inv sectorSize info sched faults live q)
    {faultExpiration : Int} {q' : ExpirationQueue}
    (h : q.rescheduleAllAsFaults faultExpiration = .ok q') :
    Inv sectorSize info sched (faults ∪ live) live q' := by
  simp only [ExpirationQueue.rescheduleAllAsFaults, Except.bind_eq_ok] at h
  obtain ⟨acc, hwalk, q₁, hupd, h⟩ := h
  obtain ⟨rfl, hnoEarly⟩ := forEach_allFaultsStep hwalk
  have hq₁ := mustUpdateAll_ok hupd
  simp only [allFaultsOf] at hq₁
  set qfe := q.quant.quantizeUp faultExpiration with hqfe
  have hinv₁ : Inv sectorSize info sched (faults ∪ q.sectorsBy (· ≤ qfe)) live q₁ :=
    hq₁ ▸ hinv.faultDue qfe
  have hquant₁ : q₁.quant = q.quant := hq₁ ▸ quant_foldl_mustUpdate _ _
  -- the entries after the fault epoch are as they were
  have hlater : ∀ k, ¬ k ≤ qfe → q₁.sectorsAt k = q.sectorsAt k := by
    intro k hk
    have hnk : k ∉ (q.amt.entries.filter fun e => e.1 ≤ qfe).map Prod.fst := by
      intro hmem
      obtain ⟨e, he, rfl⟩ := List.mem_map.mp hmem
      exact hk (of_decide_eq_true (List.mem_filter.mp he).2)
    simp only [sectorsAt, hq₁, get?_foldl_mustUpdate faultAll _ q
      (fun e he => OrdMap.get?_eq_some_iff.mpr (List.mem_of_mem_filter he))
      ((OrdMap.keys_nodup q.amt).sublist (List.filter_sublist.map _)) k, if_neg hnk]
  -- a live sector is in an entry due by the fault epoch, or in a later one
  have hsplit : ∀ n ∈ live, n ∈ q.sectorsBy (· ≤ qfe) ∨ n ∈ q.sectorsBy (¬ · ≤ qfe) := by
    intro n hn
    obtain ⟨k, hk⟩ := (hinv.live_iff n).mp hn
    by_cases hle : k ≤ qfe
    · exact .inl (mem_sectorsBy.mpr ⟨k, hle, hk⟩)
    · exact .inr (mem_sectorsBy.mpr ⟨k, hle, hk⟩)
  -- a later entry is one the walk collected
  have hcollect : ∀ {k es}, q.amt.get? k = some es → ¬ k ≤ qfe →
      (k, es) ∈ q.amt.entries.filter fun e => ¬ e.1 ≤ qfe := fun hes hk =>
    List.mem_filter.mpr ⟨OrdMap.get?_eq_some_iff.mp hes, decide_eq_true hk⟩
  by_cases hempty : (allFaultsOf qfe q.amt.entries).rescheduledEpochs.isEmpty = true
  · -- no entry after the fault epoch: every sector is due, and faulty in place
    rw [if_pos hempty, Except.pure_eq_ok] at h
    subst h
    simp only [allFaultsOf] at hempty
    refine hinv₁.congr (fun _ _ => rfl) (fun _ _ => rfl) fun n hn => ?_
    have hdue : n ∈ q.sectorsBy (· ≤ qfe) := by
      refine (hsplit n hn).resolve_right fun hd => ?_
      obtain ⟨k, hk, hnk⟩ := mem_sectorsBy.mp hd
      obtain ⟨es, hes, -⟩ := mem_sectorsAt.mp hnk
      rw [List.isEmpty_iff, List.map_eq_nil_iff] at hempty
      have := hcollect hes hk
      rw [hempty] at this
      cases this
    simp [hdue, hn]
  · rw [if_neg hempty] at h
    simp only [allFaultsOf] at hempty h
    obtain ⟨hmoved, hpower, hfee⟩ := hinv.late_totals qfe hnoEarly
    rw [hmoved, hpower, hfee] at h
    simp only [Except.bind_eq_ok, Except.pure_eq_ok] at h
    obtain ⟨q₂, hadd, amt, hdel, rfl⟩ := h
    have hmovedLive : q.sectorsBy (¬ · ≤ qfe) ⊆ live := fun n hn => by
      obtain ⟨k, -, hk⟩ := mem_sectorsBy.mp hn
      exact (hinv.live_iff n).mpr ⟨k, hk⟩
    -- the later entries are deleted first
    obtain ⟨m, hm⟩ := OrdMap.batchDelete_false_ok
      ((q.amt.entries.filter fun e => ¬ e.1 ≤ qfe).map Prod.fst) q₁.amt
    have hgetm := OrdMap.batchDelete_get? _ q₁.amt m false hm
    have hks : unionAll (((q.amt.entries.filter fun e => ¬ e.1 ≤ qfe).map Prod.fst).map
        q₁.sectorsAt) = q.sectorsBy (¬ · ≤ qfe) := by
      ext n
      rw [mem_unionAll, mem_sectorsBy]
      constructor
      · rintro ⟨_, hs, hn⟩
        obtain ⟨k, hk, rfl⟩ := List.mem_map.mp hs
        obtain ⟨e, he, rfl⟩ := List.mem_map.mp hk
        have hgt : ¬ e.1 ≤ qfe := of_decide_eq_true (List.mem_filter.mp he).2
        exact ⟨e.1, hgt, hlater _ hgt ▸ hn⟩
      · rintro ⟨k, hk, hn⟩
        obtain ⟨es, hes, -⟩ := mem_sectorsAt.mp hn
        exact ⟨q₁.sectorsAt k, List.mem_map.mpr ⟨k, List.mem_map.mpr ⟨(k, es), hcollect hes hk, rfl⟩,
          rfl⟩, (hlater k hk).symm ▸ hn⟩
    have h₂ : Inv sectorSize info sched (faults ∪ q.sectorsBy (· ≤ qfe))
        (live \ unionAll (((q.amt.entries.filter fun e => ¬ e.1 ≤ qfe).map Prod.fst).map
          q₁.sectorsAt)) ⟨m, q₁.quant⟩ := hinv₁.erase rfl hgetm
    rw [hks] at h₂
    -- what is left is due by the fault epoch, hence faulty like every live sector
    have h₃ : Inv sectorSize info sched (faults ∪ live) (live \ q.sectorsBy (¬ · ≤ qfe))
        ⟨m, q₁.quant⟩ :=
      h₂.congr (fun _ _ => rfl) (fun _ _ => rfl) fun n hn => by
        obtain ⟨hl, hnm⟩ := Finset.mem_sdiff.mp hn
        have hdue : n ∈ q.sectorsBy (· ≤ qfe) := (hsplit n hl).resolve_right hnm
        simp [hdue, hl]
    have hqfe₁ : q₁.quant.quantizeUp faultExpiration = qfe := by rw [hquant₁]
    have hnot : qfe ∉ (q.amt.entries.filter fun e => ¬ e.1 ≤ qfe).map Prod.fst := by
      intro hk
      obtain ⟨e, he, heq⟩ := List.mem_map.mp hk
      exact of_decide_eq_true (List.mem_filter.mp he).2 (heq ▸ le_rfl)
    -- a moving sector was on time after the fault epoch, so it lands early
    have hlate : ∀ n ∈ q.sectorsBy (¬ · ≤ qfe), qfe < q.quant.quantizeUp (sched n) := by
      intro n hn
      obtain ⟨k, hk, hnk⟩ := mem_sectorsBy.mp hn
      obtain ⟨es, hes, hn'⟩ := mem_sectorsAt.mp hnk
      have hon : n ∈ es.onTimeSectors := by
        have hnone := hnoEarly (k, es) (OrdMap.get?_eq_some_iff.mp hes) hk
        rcases ExpirationSet.mem_sectors.mp hn' with h | h
        · exact h
        · rw [hnone] at h
          exact absurd h (Finset.notMem_empty n)
      rw [← hinv.onTime_at hes hon]
      exact not_le.mp hk
    have hne : (q.sectorsBy (¬ · ≤ qfe)).Nonempty := by
      obtain ⟨k, ⟨es, he⟩, hgt⟩ : ∃ k, (∃ es, (k, es) ∈ q.amt.entries) ∧ qfe < k := by
        simpa using hempty
      obtain ⟨n, hn⟩ := (hinv.memo (OrdMap.get?_eq_some_iff.mpr he)).nonempty
      exact ⟨n, mem_sectorsBy.mpr ⟨k, not_le.mpr hgt,
        mem_sectorsAt.mpr ⟨es, OrdMap.get?_eq_some_iff.mpr he, hn⟩⟩⟩
    have h₄ : Inv sectorSize info sched (faults ∪ live)
        (live \ q.sectorsBy (¬ · ≤ qfe) ∪ (∅ ∪ q.sectorsBy (¬ · ≤ qfe)))
        ((⟨m, q₁.quant⟩ : ExpirationQueue).mustUpdate (q₁.quant.quantizeUp faultExpiration)
          (((⟨m, q₁.quant⟩ : ExpirationQueue).mayGet (q₁.quant.quantizeUp faultExpiration)).union
            ⟨∅, q.sectorsBy (¬ · ≤ qfe), 0, 0,
              ∑ n ∈ q.sectorsBy (¬ · ≤ qfe), powerForSector sectorSize (info n),
              ∑ n ∈ q.sectorsBy (¬ · ≤ qfe), (info n).dailyFee⟩)) :=
      h₃.addEntry (by rw [ExpirationSet.memoOf_early])
        (by rw [Finset.empty_union]; exact Finset.disjoint_sdiff) (Finset.disjoint_empty_left _)
        (hmovedLive.trans Finset.subset_union_right) (by rwa [Finset.empty_union])
        (fun n hn => absurd hn (Finset.notMem_empty n))
        (fun n hn => by
          show q₁.quant.quantizeUp faultExpiration < q₁.quant.quantizeUp (sched n)
          rw [hquant₁]
          exact hlate n hn)
    rw [Finset.empty_union, Finset.sdiff_union_of_subset hmovedLive] at h₄
    -- deleting after the write is writing after the deletion: the keys differ
    have hq₂ := add_ok hadd
    rw [hq₂] at hdel
    have hgetamt := OrdMap.batchDelete_get? _ _ amt true hdel
    have hmay : (⟨m, q₁.quant⟩ : ExpirationQueue).mayGet (q₁.quant.quantizeUp faultExpiration) =
        q₁.mayGet (q₁.quant.quantizeUp faultExpiration) := by
      simp only [mayGet_eq]
      rw [hgetm, hqfe₁, if_neg hnot]
    rw [hmay] at h₄
    convert h₄ using 2
    · apply OrdMap.ext_get?
      intro k
      simp only [hgetamt, get?_mustUpdate, hgetm]
      by_cases hk : k = q₁.quant.quantizeUp faultExpiration
      · have hks : k ∉ (q.amt.entries.filter fun e => ¬ e.1 ≤ qfe).map Prod.fst := by
          rw [hk, hqfe₁]
          exact hnot
        simp only [if_pos hk, if_neg hks]
      · simp only [if_neg hk]
    · rw [hq₂]
      rfl

/-! ## Popping expired entries -/

theorem ExpirationSet.union_sectors (a b : ExpirationSet) :
    (a.union b).sectors = a.sectors ∪ b.sectors := by
  simp only [ExpirationSet.sectors, ExpirationSet.union]
  exact Finset.union_union_union_comm _ _ _ _

/-- **Popping entries.** The entries popped leave the queue, and their
sectors are those returned. -/
theorem Inv.popUntil (hinv : Inv sectorSize info sched faults live q) {untilEpoch : Int}
    {q' : ExpirationQueue} {popped : ExpirationSet}
    (h : q.popUntil untilEpoch = .ok (q', popped)) :
    Inv sectorSize info sched faults (live \ popped.sectors) q' := by
  simp only [ExpirationQueue.popUntil, Except.bind_eq_ok, Except.pure_eq_ok] at h
  obtain ⟨⟨acc, keys⟩, hwalk, amt, hdel, heq⟩ := h
  obtain ⟨rfl, rfl⟩ := Prod.mk.inj heq
  -- the walk collects the popped entries and their keys
  have hstep : ∀ (s : ExpirationSet × List Int) done k v rest s',
      (done ++ (k, v) :: rest = q.amt.entries ∧ s.1.sectors = unionAll (s.2.map q.sectorsAt)) →
      (if k > untilEpoch then .ok ((s.1, s.2), false) else .ok ((s.1.union v, s.2 ++ [k]), true) :
        Except String ((ExpirationSet × List Int) × Bool)) = .ok (s', true) →
      done ++ [(k, v)] ++ rest = q.amt.entries ∧
        s'.1.sectors = unionAll (s'.2.map q.sectorsAt) := by
    intro s done k v rest s' hI hf
    split at hf
    · cases hf
    · cases hf
      have hget : q.amt.get? k = some v :=
        OrdMap.get?_eq_some_iff.mpr (by rw [← hI.1]; simp)
      refine ⟨by simpa using hI.1, ?_⟩
      rw [ExpirationSet.union_sectors, hI.2, List.map_append, unionAll_append, List.map_singleton,
        sectorsAt_eq hget, unionAll_singleton]
  have hacc : acc.sectors = unionAll (keys.map q.sectorsAt) := by
    rcases Loop.foldWhile_cases (fun (s : ExpirationSet × List Int) done todo =>
        done ++ todo = q.amt.entries ∧ s.1.sectors = unionAll (s.2.map q.sectorsAt))
        hstep q.amt.entries [] _ _
        ⟨rfl, by simp [ExpirationSet.sectors, ExpirationSet.empty]⟩ hwalk with
      hend | ⟨pre, k, v, rest, s₀, -, hI, hf⟩
    · exact hend.2
    · -- the walk stopped at a later entry, which it leaves alone
      split at hf
      · cases hf
        exact hI.2
      · cases hf
  rw [hacc]
  exact hinv.erase rfl (OrdMap.batchDelete_get? keys q.amt amt true hdel)

end ExpirationQueue

end BuiltinActors.Miner
