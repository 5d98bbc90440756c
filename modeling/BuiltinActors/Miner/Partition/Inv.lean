import BuiltinActors.Miner.Partition.EarlyTerminations
import BuiltinActors.Miner.ExpirationQueue.Returns
import Mathlib.Algebra.Order.BigOperators.Group.Finset

/-! # The partition's invariant

What every partition the miner reaches satisfies, relative to the infos of
its live sectors, those the miner's sectors AMT holds for them: the bitfields
nest as `validate_bf_state` and the state checks of the miner's tests expect
(unproven and faulty sectors are live, recovering ones are faulty, no faulty
sector is unproven); each power total is the power of its sectors; the
expiration queue holds exactly the live sectors, each once, in entries that
are the memos of their sectors for the partition's faults; and the early
termination queue is well formed and holds terminated sectors only.

Each method keeps it under the conditions its callers guarantee: the sectors
AMT holds the tracked infos of the live sectors, and sectors given by their
infos are listed once. Checks the method makes itself (sectors new, inside the
partition, live or active) are not assumed: they are read off its success. -/

namespace BuiltinActors.Miner

open ExpirationQueue

/-! ## Loading and selecting sectors -/

/-- A list of the infos of the sectors `S`, each listed once. -/
structure Listing (info : Nat → SectorOnChainInfo) (S : Finset Nat)
    (L : List SectorOnChainInfo) : Prop where
  agree : InfosAgree info L
  numbers_eq : numbers L = S
  nodup : (L.map SectorOnChainInfo.sectorNumber).Nodup

section Listing

variable {info : Nat → SectorOnChainInfo} {S T : Finset Nat} {L : List SectorOnChainInfo}

/-- Where the sectors AMT holds the infos of `S`, loading `S` gives them in
increasing order of number. -/
theorem loadSectors_eq_ok {sectors : OrdMap Nat SectorOnChainInfo}
    (hget : ∀ n ∈ S, sectors.get? n = some (info n)) :
    loadSectors sectors S = .ok ((S.sort (· ≤ ·)).map info) :=
  Except.mapM_eq_ok_map fun n hn => by
    rw [hget n ((Finset.mem_sort _).mp hn)]

theorem listing_sort (hnum : ∀ n ∈ S, (info n).sectorNumber = n) :
    Listing info S ((S.sort (· ≤ ·)).map info) := by
  have hmap : ((S.sort (· ≤ ·)).map info).map SectorOnChainInfo.sectorNumber =
      S.sort (· ≤ ·) := by
    rw [List.map_map]
    exact (List.map_congr_left fun n hn => hnum n ((Finset.mem_sort _).mp hn)).trans
      (List.map_id _)
  refine ⟨fun s hs => ?_, ?_, ?_⟩
  · obtain ⟨n, hn, rfl⟩ := List.mem_map.mp hs
    rw [hnum n ((Finset.mem_sort _).mp hn)]
  · rw [numbers, hmap, Finset.sort_toFinset]
  · rw [hmap]
    exact Finset.sort_nodup _ _

theorem Listing.of_loadSectors {sectors : OrdMap Nat SectorOnChainInfo}
    (hget : ∀ n ∈ S, sectors.get? n = some (info n)) (hnum : ∀ n ∈ S, (info n).sectorNumber = n)
    (h : loadSectors sectors S = .ok L) : Listing info S L := by
  rw [loadSectors_eq_ok hget, Except.ok.injEq] at h
  subst h
  exact listing_sort hnum

theorem Listing.powerForSectors (h : Listing info S L) (sectorSize : Nat) :
    powerForSectors sectorSize L = ∑ n ∈ S, powerForSector sectorSize (info n) := by
  rw [powerForSectors_eq_sum, sum_map_eq_sum_numbers h.agree _ (List.Subset.refl L) h.nodup,
    ← h.numbers_eq]
  rfl

theorem Listing.isEmpty_iff (h : Listing info S L) : L.isEmpty = true ↔ S = ∅ := by
  rw [← h.numbers_eq, numbers, List.toFinset_eq_empty_iff, List.map_eq_nil_iff,
    List.isEmpty_iff]

/-- The walk of `select_sectors`, over sectors listed once, takes those still
to include and leaves the rest of `field` to include. -/
theorem foldl_selectStep : ∀ {L : List SectorOnChainInfo},
    (L.map SectorOnChainInfo.sectorNumber).Nodup → ∀ (T : Finset Nat) (I : List SectorOnChainInfo),
      L.foldl selectStep (T, I) = (T \ numbers L, I ++ L.filter (·.sectorNumber ∈ T))
  | [], _, T, I => by simp [numbers]
  | si :: L, hnd, T, I => by
    rw [List.map_cons, List.nodup_cons] at hnd
    have hsi : si.sectorNumber ∉ numbers L := fun h => hnd.1 (List.mem_toFinset.mp h)
    have hnumbers : numbers (si :: L) = insert si.sectorNumber (numbers L) := by simp [numbers]
    rw [List.foldl_cons, hnumbers]
    by_cases hT : si.sectorNumber ∈ T
    · -- the later sectors have other numbers, so erasing this one changes nothing for them
      have hfilter : L.filter (·.sectorNumber ∈ T.erase si.sectorNumber) =
          L.filter (·.sectorNumber ∈ T) :=
        List.filter_congr fun s hs => by
          have hne : s.sectorNumber ≠ si.sectorNumber := fun he => hsi (mem_numbers.mpr ⟨s, hs, he⟩)
          simp [Finset.mem_erase, hne]
      simp only [selectStep, if_pos hT]
      rw [foldl_selectStep hnd.2, hfilter, List.filter_cons_of_pos (by simpa using hT),
        List.append_assoc, List.singleton_append]
      congr 1
      ext n
      simp only [Finset.mem_sdiff, Finset.mem_erase, Finset.mem_insert]
      tauto
    · simp only [selectStep, if_neg hT]
      rw [foldl_selectStep hnd.2, List.filter_cons_of_neg (by simpa using hT),
        Finset.sdiff_insert_of_notMem hT]

theorem selectSectors_eq (hnd : (L.map SectorOnChainInfo.sectorNumber).Nodup)
    (hT : T ⊆ numbers L) : selectSectors L T = .ok (L.filter (·.sectorNumber ∈ T)) := by
  unfold selectSectors
  rw [foldl_selectStep hnd T [], Finset.sdiff_eq_empty_iff_subset.mpr hT]
  simp

/-- Selecting some of listed sectors lists them. -/
theorem Listing.selectSectors (h : Listing info S L) (hT : T ⊆ S) {L' : List SectorOnChainInfo}
    (hsel : selectSectors L T = .ok L') : Listing info T L' := by
  rw [selectSectors_eq h.nodup (h.numbers_eq ▸ hT), Except.ok.injEq] at hsel
  subst hsel
  refine ⟨fun s hs => h.agree s (List.mem_of_mem_filter hs), ?_,
    h.nodup.sublist (List.filter_sublist.map _)⟩
  rw [numbers_filter_mem, h.numbers_eq]
  exact Finset.inter_eq_right.mpr hT

end Listing

/-! ## Power totals -/

theorem PowerPair.sum_raw {ι : Type} (s : Finset ι) (f : ι → PowerPair) :
    (∑ i ∈ s, f i).raw = ∑ i ∈ s, (f i).raw := by
  induction s using Finset.cons_induction with
  | empty => rfl
  | cons a s ha ih => rw [Finset.sum_cons, Finset.sum_cons, PowerPair.add_raw, ih]

theorem PowerPair.sum_qa {ι : Type} (s : Finset ι) (f : ι → PowerPair) :
    (∑ i ∈ s, f i).qa = ∑ i ∈ s, (f i).qa := by
  induction s using Finset.cons_induction with
  | empty => rfl
  | cons a s ha ih => rw [Finset.sum_cons, Finset.sum_cons, PowerPair.add_qa, ih]

namespace Partition

/-- The sectors AMT holds the tracked infos of the live sectors. -/
def SectorsAgree (sectors : OrdMap Nat SectorOnChainInfo) (info : Nat → SectorOnChainInfo)
    (p : Partition) : Prop :=
  ∀ n ∈ p.liveSectors, sectors.get? n = some (info n)

section Inv

variable (sectorSize : Nat) (quant : QuantSpec) (info : Nat → SectorOnChainInfo)

/-- The invariant of a partition whose live sectors have the infos `info`, in
a deadline quantized by `quant`. -/
structure Inv (p : Partition) : Prop where
  unproven_live : p.unproven ⊆ p.liveSectors
  faults_live : p.faults ⊆ p.liveSectors
  terminated_sub : p.terminated ⊆ p.sectors
  recoveries_faults : p.recoveries ⊆ p.faults
  faults_unproven : Disjoint p.faults p.unproven
  numbered : ∀ n ∈ p.liveSectors, (info n).sectorNumber = n
  livePower : p.livePower = ∑ n ∈ p.liveSectors, powerForSector sectorSize (info n)
  unprovenPower : p.unprovenPower = ∑ n ∈ p.unproven, powerForSector sectorSize (info n)
  faultyPower : p.faultyPower = ∑ n ∈ p.faults, powerForSector sectorSize (info n)
  recoveringPower : p.recoveringPower = ∑ n ∈ p.recoveries, powerForSector sectorSize (info n)
  queue : ∃ sched, ExpirationQueue.Inv sectorSize info sched p.faults p.liveSectors
    (p.expirationQueue quant)
  unit : 0 < quant.unit
  early : p.earlyTerminationQueue.WellFormed
  early_terminated : ∀ k, p.earlyTerminationQueue.abs k ⊆ p.terminated

variable {sectorSize quant info}

/-- A new partition satisfies the invariant. -/
theorem inv_new (hu : 0 < quant.unit) : Inv sectorSize quant info new where
  unproven_live := Finset.empty_subset _
  faults_live := Finset.empty_subset _
  terminated_sub := Finset.empty_subset _
  recoveries_faults := Finset.empty_subset _
  faults_unproven := Finset.disjoint_empty_left _
  numbered n hn := absurd hn (by simp [liveSectors, new])
  livePower := by simp [liveSectors, new]
  unprovenPower := by simp [new]
  faultyPower := by simp [new]
  recoveringPower := by simp [new]
  queue := ⟨fun _ => 0, by
    rw [show new.liveSectors = ∅ by simp [liveSectors, new]]
    exact inv_empty quant⟩
  unit := hu
  early := ⟨fun _ _ h => (by cases h), fun _ _ h => (by cases h)⟩
  early_terminated k := by simp [BitFieldQueue.abs, earlyTerminationQueue, new]

section Preservation

variable {sectorSize : Nat} {quant : QuantSpec} {info : Nat → SectorOnChainInfo} {p : Partition}

/-- The queue with a new AMT and the deadline's quantization is the queue the
operation returned, which keeps its quantization. -/
theorem queue_eta {q : ExpirationQueue} (h : q.quant = (p.expirationQueue quant).quant) :
    (⟨q.amt, quant⟩ : ExpirationQueue) = q := by
  obtain ⟨amt, quant'⟩ := q
  change quant' = quant at h
  subst h
  rfl

/-- The queue invariant carries over to the AMT written back with the
deadline's quantization. -/
theorem queueInv_of_quant {q : ExpirationQueue} {sched : Nat → Int} {F L : Finset Nat}
    (hquant : q.quant = (p.expirationQueue quant).quant)
    (hq : ExpirationQueue.Inv sectorSize info sched F L q) :
    ExpirationQueue.Inv sectorSize info sched F L ⟨q.amt, quant⟩ := by
  rw [queue_eta hquant]
  exact hq

theorem liveSectors_subset (p : Partition) : p.liveSectors ⊆ p.sectors :=
  Finset.sdiff_subset

/-- The invariant reads the infos of live sectors only. -/
theorem Inv.congr_info (hI : Inv sectorSize quant info p) {info' : Nat → SectorOnChainInfo}
    (hinfo : ∀ n ∈ p.liveSectors, info' n = info n) : Inv sectorSize quant info' p := by
  have hsum : ∀ S ⊆ p.liveSectors, ∑ n ∈ S, powerForSector sectorSize (info' n) =
      ∑ n ∈ S, powerForSector sectorSize (info n) := fun S hS =>
    Finset.sum_congr rfl fun n hn => by rw [hinfo n (hS hn)]
  obtain ⟨sched, hq⟩ := hI.queue
  refine ⟨hI.unproven_live, hI.faults_live, hI.terminated_sub, hI.recoveries_faults,
    hI.faults_unproven, fun n hn => hinfo n hn ▸ hI.numbered n hn, ?_, ?_, ?_, ?_,
    ⟨sched, hq.congr hinfo (fun _ _ => rfl) fun _ _ => Iff.rfl⟩, hI.unit, hI.early,
    hI.early_terminated⟩
  · rw [hsum _ subset_rfl]
    exact hI.livePower
  · rw [hsum _ hI.unproven_live]
    exact hI.unprovenPower
  · rw [hsum _ hI.faults_live]
    exact hI.faultyPower
  · rw [hsum _ (hI.recoveries_faults.trans hI.faults_live)]
    exact hI.recoveringPower

/-- Live sectors, neither faulty nor unproven, turning unproven with their
power keep the invariant. -/
theorem Inv.markUnproven (hI : Inv sectorSize quant info p) {S : Finset Nat}
    (hS : S ⊆ p.liveSectors) (hSf : Disjoint S p.faults) (hSu : Disjoint S p.unproven)
    {power : PowerPair} (hpower : power = ∑ n ∈ S, powerForSector sectorSize (info n)) :
    Inv sectorSize quant info
      { p with unprovenPower := p.unprovenPower + power, unproven := p.unproven ∪ S } :=
  { hI with
    unproven_live := Finset.union_subset hI.unproven_live hS
    faults_unproven := Finset.disjoint_union_right.mpr ⟨hI.faults_unproven, hSf.symm⟩
    unprovenPower := by
      show p.unprovenPower + power = _
      rw [Finset.sum_union hSu.symm, hI.unprovenPower, hpower] }

/-- **Adding sectors.** New sectors, listed once, become live with their own
infos, and unproven unless proven; the power returned is theirs. That they are
new is the method's own check. -/
theorem Inv.addSectors (hI : Inv sectorSize quant info p) {proven : Bool}
    {sectors : List SectorOnChainInfo} (hnd : (sectors.map SectorOnChainInfo.sectorNumber).Nodup)
    {p' : Partition} {power : PowerPair} {fee : Int}
    (h : p.addSectors proven sectors sectorSize quant = .ok (p', power, fee)) :
    Inv sectorSize quant (overrideInfos info sectors) p' ∧
      power = ∑ n ∈ numbers sectors, powerForSector sectorSize (overrideInfos info sectors n) := by
  simp only [Partition.addSectors, Except.bind_eq_ok, Except.mapError_eq_ok, Except.throw_bind,
    Except.ite_throw_eq_ok, Except.pure_eq_ok] at h
  obtain ⟨⟨q₁, added, pw, pl, df⟩, hadd, hnew, _, -, h⟩ := h
  dsimp only at hnew h
  simp only [Prod.mk.injEq] at h
  obtain ⟨rfl, rfl, -⟩ := h
  obtain rfl := addActiveSectors_added hnd hadd
  set N := numbers sectors with hN
  set info' := overrideInfos info sectors with hinfo'
  -- the method's check: the sectors are new
  have hfresh : Disjoint N p.sectors :=
    Finset.disjoint_iff_inter_eq_empty.mpr ((Finset.inter_comm _ _).trans (not_not.mp hnew))
  have hI' : Inv sectorSize quant info' p := hI.congr_info fun n hn =>
    overrideInfos_of_notMem (Finset.disjoint_right.mp hfresh ((liveSectors_subset p) hn))
  have hlive : Disjoint N p.liveSectors := hfresh.mono_right (liveSectors_subset p)
  have hagree : InfosAgree info' sectors := overrideInfos_agree hnd
  obtain ⟨sched, hq⟩ := hI'.queue
  -- the new sectors are scheduled at their declared expirations
  set sched' := fun n => if n ∈ N then (info' n).expiration else sched n with hsched'
  have hq' : ExpirationQueue.Inv sectorSize info' sched' p.faults p.liveSectors
      (p.expirationQueue quant) :=
    hq.congr (fun _ _ => rfl) (fun n hn => if_neg (Finset.disjoint_right.mp hlive hn))
      fun _ _ => Iff.rfl
  obtain ⟨hq₁, -, hpw, -⟩ := hq'.addActiveSectors hI.unit hagree hnd hlive
    (hlive.mono_right hI.faults_live) (fun n hn => if_pos hn) hadd
  refine ⟨?_, hpw⟩
  -- the partition with the sectors added, proven; unproven ones are then marked
  have hB : Inv sectorSize quant info' { p with
      expirationsEpochs := q₁.amt
      sectors := p.sectors ∪ N
      livePower := p.livePower + pw } := by
    have hliveB : (p.sectors ∪ N) \ p.terminated = p.liveSectors ∪ N := by
      rw [Finset.union_sdiff_distrib, Finset.sdiff_eq_self_of_disjoint
        (hfresh.mono_right hI.terminated_sub)]
      rfl
    refine { hI' with
      unproven_live := ?_, faults_live := ?_, terminated_sub := ?_, numbered := ?_,
      livePower := ?_, queue := ?_ }
    · show p.unproven ⊆ (p.sectors ∪ N) \ p.terminated
      rw [hliveB]
      exact hI.unproven_live.trans Finset.subset_union_left
    · show p.faults ⊆ (p.sectors ∪ N) \ p.terminated
      rw [hliveB]
      exact hI.faults_live.trans Finset.subset_union_left
    · exact hI.terminated_sub.trans Finset.subset_union_left
    · intro n hn
      change n ∈ (p.sectors ∪ N) \ p.terminated at hn
      rw [hliveB, Finset.mem_union] at hn
      rcases hn with hn | hn
      · exact hI'.numbered n hn
      · exact hagree.sectorNumber_info hn
    · show p.livePower + pw = ∑ n ∈ (p.sectors ∪ N) \ p.terminated, _
      rw [hliveB, Finset.sum_union hlive.symm, hI'.livePower, hpw]
    · refine ⟨sched', ?_⟩
      show ExpirationQueue.Inv sectorSize info' sched' p.faults ((p.sectors ∪ N) \ p.terminated)
        ⟨q₁.amt, quant⟩
      rw [hliveB, queue_eta (addActiveSectors_quant hadd)]
      exact hq₁
  cases proven with
  | true => exact hB
  | false =>
    refine hB.markUnproven ?_ (hlive.mono_right hI.faults_live)
      (hlive.mono_right hI.unproven_live) hpw
    show N ⊆ (p.sectors ∪ N) \ p.terminated
    exact Finset.subset_sdiff.mpr ⟨Finset.subset_union_right,
      hfresh.mono_right hI.terminated_sub⟩

theorem validatePartitionContainsSectors_ok {S : Finset Nat} {u : Unit}
    (h : validatePartitionContainsSectors p S = .ok u) : S ⊆ p.sectors := by
  unfold validatePartitionContainsSectors at h
  split_ifs at h with hS
  exact hS

/-- What `add_faults` does: the sectors turn faulty in the queue and the
bitfields, and those unproven leave the unproven set with their power. -/
theorem addFaults_eq {S : Finset Nat} {sectors : List SectorOnChainInfo}
    (hL : Listing info S sectors) {faultExpiration : Int} {p' : Partition}
    {powerDelta newFaultyPower : PowerPair}
    (h : p.addFaults S sectors faultExpiration sectorSize quant =
      .ok (p', powerDelta, newFaultyPower)) :
    ∃ q₁ : ExpirationQueue,
      (p.expirationQueue quant).rescheduleAsFaults faultExpiration sectors sectorSize =
        .ok (q₁, newFaultyPower) ∧
      p' = { p with
        expirationsEpochs := q₁.amt
        faults := p.faults ∪ S
        faultyPower := p.faultyPower + newFaultyPower
        unproven := p.unproven \ (S ∩ p.unproven)
        unprovenPower := p.unprovenPower -
          ∑ n ∈ S ∩ p.unproven, powerForSector sectorSize (info n) } ∧
      powerDelta = -newFaultyPower + ∑ n ∈ S ∩ p.unproven, powerForSector sectorSize (info n) := by
  simp only [addFaults, Except.bind_eq_ok, Except.mapError_eq_ok, Except.pure_eq_ok] at h
  obtain ⟨⟨q₁, nfp⟩, hres, L', hsel, _, -, h⟩ := h
  have hL' := hL.selectSectors Finset.inter_subset_left hsel
  refine ⟨q₁, ?_⟩
  -- the unproven power changes only when some of the sectors were unproven
  cases hE : L'.isEmpty with
  | true =>
    have h0 : S ∩ p.unproven = ∅ := hL'.isEmpty_iff.mp hE
    simp only [hE, Bool.not_true, Bool.false_eq_true, if_false, Prod.mk.injEq] at h
    obtain ⟨rfl, rfl, rfl⟩ := h
    simp [hres, h0]
  | false =>
    simp only [hE, Bool.not_false, if_true, Prod.mk.injEq] at h
    obtain ⟨rfl, rfl, rfl⟩ := h
    rw [hL'.powerForSectors sectorSize]
    exact ⟨hres, rfl, rfl⟩

/-- **Adding faults.** Live sectors not yet faulty, listed with their infos,
turn faulty and leave the unproven set. -/
theorem Inv.addFaults (hI : Inv sectorSize quant info p) {S : Finset Nat}
    {sectors : List SectorOnChainInfo} (hL : Listing info S sectors)
    (hS : S ⊆ p.liveSectors \ p.faults) {faultExpiration : Int} {p' : Partition}
    {powerDelta newFaultyPower : PowerPair}
    (h : p.addFaults S sectors faultExpiration sectorSize quant =
      .ok (p', powerDelta, newFaultyPower)) :
    Inv sectorSize quant info p' := by
  obtain ⟨q₁, hres, rfl, -⟩ := addFaults_eq hL h
  obtain ⟨sched, hq⟩ := hI.queue
  have hSl : S ⊆ p.liveSectors := hS.trans Finset.sdiff_subset
  have hSf : Disjoint S p.faults := Finset.disjoint_of_subset_left hS Finset.sdiff_disjoint
  obtain ⟨hq₁, hnfp⟩ := hq.rescheduleAsFaults hL.agree (hL.numbers_eq ▸ hSf) hres
  rw [hL.numbers_eq] at hq₁ hnfp
  refine { hI with
    unproven_live := Finset.sdiff_subset.trans hI.unproven_live
    faults_live := Finset.union_subset hI.faults_live hSl
    recoveries_faults := hI.recoveries_faults.trans Finset.subset_union_left
    faults_unproven := ?_
    unprovenPower := ?_
    faultyPower := ?_
    queue := ⟨sched, queueInv_of_quant (rescheduleAsFaults_quant hres) hq₁⟩ }
  · -- the new faults are no longer unproven
    refine Finset.disjoint_union_left.mpr ⟨hI.faults_unproven.mono_right Finset.sdiff_subset, ?_⟩
    exact Finset.disjoint_left.mpr fun n hn hn' =>
      (Finset.mem_sdiff.mp hn').2 (Finset.mem_inter.mpr ⟨hn, (Finset.mem_sdiff.mp hn').1⟩)
  · show p.unprovenPower - _ = ∑ n ∈ p.unproven \ (S ∩ p.unproven), _
    rw [Finset.sum_sdiff_eq_sub Finset.inter_subset_right, hI.unprovenPower]
  · show p.faultyPower + newFaultyPower = ∑ n ∈ p.faults ∪ S, _
    rw [Finset.sum_union hSf.symm, hI.faultyPower, hnfp]

/-- Recovering sectors leaving the recoveries with their power keep the
invariant. -/
theorem Inv.removeRecoveries (hI : Inv sectorSize quant info p) {R : Finset Nat}
    (hR : R ⊆ p.recoveries) {power : PowerPair}
    (hpower : power = ∑ n ∈ R, powerForSector sectorSize (info n)) :
    Inv sectorSize quant info (p.removeRecoveries R power) := by
  unfold Partition.removeRecoveries
  split_ifs
  · exact hI
  · refine { hI with
      recoveries_faults := Finset.sdiff_subset.trans hI.recoveries_faults
      recoveringPower := ?_ }
    show p.recoveringPower - power = ∑ n ∈ p.recoveries \ R, _
    rw [Finset.sum_sdiff_eq_sub hR, hI.recoveringPower, hpower]

/-- Sectors of the partition that are live, listed by the sectors AMT. -/
theorem Inv.listing (hI : Inv sectorSize quant info p) {sectors : OrdMap Nat SectorOnChainInfo}
    (hagree : SectorsAgree sectors info p) {S : Finset Nat} (hS : S ⊆ p.liveSectors)
    {L : List SectorOnChainInfo} (h : loadSectors sectors S = .ok L) : Listing info S L :=
  Listing.of_loadSectors (fun n hn => hagree n (hS hn)) (fun n hn => hI.numbered n (hS hn)) h

/-- Faults added when some of the sectors are new keep the invariant, with the
recoveries as they were. -/
theorem Inv.addFaults_if (hI : Inv sectorSize quant info p) {S : Finset Nat}
    {sectors : List SectorOnChainInfo} (hL : Listing info S sectors)
    (hS : S ⊆ p.liveSectors \ p.faults) {faultExpiration : Int} {p₁ : Partition}
    {powerDelta newFaultyPower : PowerPair}
    {f : String → String}
    (h : (if !sectors.isEmpty then (p.addFaults S sectors faultExpiration sectorSize quant).mapError f
      else pure (p, 0, 0)) = .ok (p₁, powerDelta, newFaultyPower)) :
    Inv sectorSize quant info p₁ ∧ p₁.recoveries = p.recoveries := by
  cases hE : sectors.isEmpty with
  | false =>
    rw [hE, Bool.not_false, if_pos rfl, Except.mapError_eq_ok] at h
    refine ⟨hI.addFaults hL hS h, ?_⟩
    obtain ⟨q₁, -, rfl, -⟩ := addFaults_eq hL h
    rfl
  | true =>
    rw [hE, Bool.not_true, if_neg Bool.false_ne_true, Except.pure_eq_ok, Prod.mk.injEq] at h
    obtain ⟨rfl, -⟩ := h
    exact ⟨hI, rfl⟩

/-- **Declaring faults.** New faults are recorded and declared recoveries
retracted; sectors outside the partition are the method's own error. -/
theorem Inv.recordFaults (hI : Inv sectorSize quant info p)
    {sectors : OrdMap Nat SectorOnChainInfo} (hagree : SectorsAgree sectors info p)
    {sectorNumbers : Finset Nat} {faultExpirationEpoch : Int} {p' : Partition}
    {r : Finset Nat × PowerPair × PowerPair}
    (h : p.recordFaults sectors sectorNumbers faultExpirationEpoch sectorSize quant = .ok (p', r)) :
    Inv sectorSize quant info p' := by
  simp only [Partition.recordFaults, Except.bind_eq_ok, Except.mapError_eq_ok, Except.pure_eq_ok] at h
  obtain ⟨_, hval, L, hload, ⟨p₁, pd, nfp⟩, hadd, L₂, hload₂, _, -, h⟩ := h
  obtain ⟨rfl, -⟩ := Prod.mk.inj h
  have hsub := validatePartitionContainsSectors_ok hval
  -- the new faults are live and not yet faulty; the retracted recoveries are live
  have hNF : ((sectorNumbers \ (p.recoveries ∩ sectorNumbers)) \ p.terminated) \ p.faults ⊆
      p.liveSectors \ p.faults :=
    Finset.sdiff_subset_sdiff (Finset.sdiff_subset_sdiff (Finset.sdiff_subset.trans hsub) subset_rfl)
      subset_rfl
  have hR : p.recoveries ∩ sectorNumbers ⊆ p.liveSectors :=
    Finset.inter_subset_left.trans (hI.recoveries_faults.trans hI.faults_live)
  obtain ⟨hI₁, hrec⟩ := hI.addFaults_if (hI.listing hagree (hNF.trans Finset.sdiff_subset) hload)
    hNF hadd
  have hL₂ := hI.listing hagree hR hload₂
  split_ifs
  · exact hI₁.removeRecoveries (hrec ▸ Finset.inter_subset_left) (hL₂.powerForSectors sectorSize)
  · exact hI₁

/-- **Recording skipped faults.** The skipped sectors not yet faulty or
terminated turn faulty, and the recovering ones among them stop recovering;
sectors outside the partition are the method's own error. -/
theorem Inv.recordSkippedFaults (hI : Inv sectorSize quant info p)
    {sectors : OrdMap Nat SectorOnChainInfo} (hagree : SectorsAgree sectors info p)
    {faultExpiration : Int} {skipped : Finset Nat} {p' : Partition}
    {r : PowerPair × PowerPair × PowerPair × Bool}
    (h : p.recordSkippedFaults sectors sectorSize quant faultExpiration skipped = .ok (p', r)) :
    Inv sectorSize quant info p' := by
  unfold Partition.recordSkippedFaults at h
  by_cases h0 : skipped = ∅
  · rw [if_pos h0, Except.ok.injEq] at h
    obtain ⟨rfl, -⟩ := Prod.mk.inj h
    exact hI
  rw [if_neg h0] at h
  simp only [Except.bind_eq_ok, Except.mapError_eq_ok, Except.pure_eq_ok, Except.throw_bind,
    Except.ite_throw_eq_ok] at h
  obtain ⟨hsub, L₂, hload₂, L, hload, ⟨p₁, pd, nfp⟩, hadd, _, -, h⟩ := h
  obtain ⟨rfl, -⟩ := Prod.mk.inj h
  have hNF : (skipped \ p.terminated) \ p.faults ⊆ p.liveSectors \ p.faults :=
    Finset.sdiff_subset_sdiff (Finset.sdiff_subset_sdiff (not_not.mp hsub) subset_rfl) subset_rfl
  have hR : p.recoveries ∩ skipped ⊆ p.liveSectors :=
    Finset.inter_subset_left.trans (hI.recoveries_faults.trans hI.faults_live)
  have hL := hI.listing hagree (hNF.trans Finset.sdiff_subset) hload
  have hI₁ := hI.addFaults hL hNF hadd
  -- `add_faults` leaves the recoveries as they were
  obtain ⟨q₁, -, rfl, -⟩ := addFaults_eq hL hadd
  exact hI₁.removeRecoveries Finset.inter_subset_left
    ((hI.listing hagree hR hload₂).powerForSectors sectorSize)

/-- **Recovering faults.** The recovering sectors leave the faults and go
back to their declared expirations; the power returned is theirs. -/
theorem Inv.recoverFaults (hI : Inv sectorSize quant info p)
    {sectors : OrdMap Nat SectorOnChainInfo} (hagree : SectorsAgree sectors info p)
    {p' : Partition} {power : PowerPair}
    (h : p.recoverFaults sectors sectorSize quant = .ok (p', power)) :
    Inv sectorSize quant info p' ∧
      power = ∑ n ∈ p.recoveries, powerForSector sectorSize (info n) := by
  simp only [Partition.recoverFaults, Except.bind_eq_ok, Except.mapError_eq_ok,
    Except.pure_eq_ok] at h
  obtain ⟨L, hload, ⟨q₁, pw⟩, hres, _, -, h⟩ := h
  obtain ⟨rfl, rfl⟩ := Prod.mk.inj h
  have hL := hI.listing hagree (hI.recoveries_faults.trans hI.faults_live) hload
  obtain ⟨sched, hq⟩ := hI.queue
  obtain ⟨hq₁, hpw⟩ := hq.rescheduleRecovered hI.unit hL.agree
    (hL.numbers_eq ▸ hI.recoveries_faults) hres
  rw [hL.numbers_eq] at hq₁ hpw
  refine ⟨{ hI with
    faults_live := Finset.sdiff_subset.trans hI.faults_live
    recoveries_faults := Finset.empty_subset _
    faults_unproven := hI.faults_unproven.mono_left Finset.sdiff_subset
    faultyPower := ?_
    recoveringPower := ?_
    queue := ⟨_, queueInv_of_quant (rescheduleRecovered_quant hres) hq₁⟩ }, hpw⟩
  · show p.faultyPower - pw = ∑ n ∈ p.faults \ p.recoveries, _
    rw [Finset.sum_sdiff_eq_sub hI.recoveries_faults, hI.faultyPower, hpw]
  · show p.recoveringPower - pw = ∑ n ∈ ∅, _
    rw [hI.recoveringPower, hpw, sub_self, Finset.sum_empty]

/-- **Activating unproven sectors.** -/
theorem Inv.activateUnproven (hI : Inv sectorSize quant info p) :
    Inv sectorSize quant info p.activateUnproven.1 :=
  { hI with
    unproven_live := Finset.empty_subset _
    faults_unproven := Finset.disjoint_empty_right _
    unprovenPower := Finset.sum_empty.symm }

/-- **Declaring recoveries.** Faulty sectors among those declared, not yet
recovering, start recovering with their power. -/
theorem Inv.declareFaultsRecovered (hI : Inv sectorSize quant info p)
    {sectors : OrdMap Nat SectorOnChainInfo} (hagree : SectorsAgree sectors info p)
    {sectorNumbers : Finset Nat} {p' : Partition}
    (h : p.declareFaultsRecovered sectors sectorSize sectorNumbers = .ok p') :
    Inv sectorSize quant info p' := by
  simp only [Partition.declareFaultsRecovered, Except.bind_eq_ok, Except.mapError_eq_ok,
    Except.pure_eq_ok] at h
  obtain ⟨_, -, L, hload, _, -, rfl⟩ := h
  have hR : (sectorNumbers ∩ p.faults) \ p.recoveries ⊆ p.faults :=
    Finset.sdiff_subset.trans Finset.inter_subset_right
  have hL := hI.listing hagree (hR.trans hI.faults_live) hload
  refine { hI with
    recoveries_faults := Finset.union_subset hI.recoveries_faults hR
    recoveringPower := ?_ }
  show p.recoveringPower + powerForSectors sectorSize L = ∑ n ∈ p.recoveries ∪ _, _
  rw [Finset.sum_union Finset.disjoint_sdiff, hI.recoveringPower, hL.powerForSectors sectorSize]

/-- **Rescheduling expirations.** The active sectors among those given move
on time to the new expiration; nothing else the invariant reads changes. -/
theorem Inv.rescheduleExpirations (hI : Inv sectorSize quant info p)
    {sectors : OrdMap Nat SectorOnChainInfo} (hagree : SectorsAgree sectors info p)
    {newExpiration : Int} {sectorNumbers : Finset Nat} {p' : Partition}
    {infos : List SectorOnChainInfo}
    (h : p.rescheduleExpirations sectors newExpiration sectorNumbers sectorSize quant =
      .ok (p', infos)) :
    Inv sectorSize quant info p' := by
  simp only [Partition.rescheduleExpirations, Except.bind_eq_ok, Except.pure_eq_ok] at h
  obtain ⟨L, hload, q₁, hres, _, -, h⟩ := h
  obtain ⟨rfl, -⟩ := Prod.mk.inj h
  have hA : ((sectorNumbers ∩ p.sectors) \ p.terminated) \ p.faults ⊆ p.liveSectors \ p.faults :=
    Finset.sdiff_subset_sdiff (Finset.sdiff_subset_sdiff Finset.inter_subset_right subset_rfl)
      subset_rfl
  have hL := hI.listing hagree (hA.trans Finset.sdiff_subset) hload
  obtain ⟨sched, hq⟩ := hI.queue
  have hq₁ := hq.rescheduleExpirations hL.agree
    (hL.numbers_eq ▸ Finset.disjoint_of_subset_left hA Finset.sdiff_disjoint) hres
  exact { hI with queue := ⟨_, queueInv_of_quant (rescheduleExpirations_quant hres) hq₁⟩ }

/-! ### Terminating and expiring sectors -/

/-- Recording early terminations of sectors among `T` keeps the early
termination queue well formed and within `T`. -/
theorem early_recordEarlyTermination {T : Finset Nat} (hw : p.earlyTerminationQueue.WellFormed)
    (hT : ∀ k, p.earlyTerminationQueue.abs k ⊆ T) {epoch : Int} {S : Finset Nat} (hS : S ⊆ T)
    {p' : Partition} (h : p.recordEarlyTermination epoch S = .ok p') :
    (∃ amt, p' = { p with earlyTerminated := amt }) ∧ p'.earlyTerminationQueue.WellFormed ∧
      ∀ k, p'.earlyTerminationQueue.abs k ⊆ T := by
  simp only [recordEarlyTermination, Except.bind_eq_ok, Except.mapError_eq_ok,
    Except.pure_eq_ok] at h
  obtain ⟨q', hq', rfl⟩ := h
  -- the queue written back is the one `add_to_queue` returned
  have heta : (⟨q'.amt, noQuantization⟩ : BitFieldQueue) = q' := by
    obtain ⟨amt, quant⟩ := q'
    cases BitFieldQueue.addToQueue_quant _ _ hq'
    rfl
  refine ⟨⟨_, rfl⟩, ?_, fun k => ?_⟩
  · show BitFieldQueue.WellFormed ⟨q'.amt, noQuantization⟩
    rw [heta]
    exact hw.addToQueue hq'
  · show BitFieldQueue.abs ⟨q'.amt, noQuantization⟩ k ⊆ T
    rw [heta]
    exact (BitFieldQueue.abs_addToQueue_subset _ _ hq' k).trans (Finset.union_subset (hT k) hS)

/-- The power of a memo whose early sectors are faulty and not on time: all of
it is that of its sectors, and the faulty part that of its faulty ones. -/
theorem memoOf_power_split {faults on early : Finset Nat} {es : ExpirationSet}
    (hmemo : es = ExpirationSet.memoOf sectorSize info faults on early) (hd : Disjoint on early)
    (hf : early ⊆ faults) :
    es.activePower + es.faultyPower = ∑ n ∈ on ∪ early, powerForSector sectorSize (info n) ∧
    es.faultyPower = ∑ n ∈ (on ∪ early) ∩ faults, powerForSector sectorSize (info n) := by
  subst hmemo
  refine ⟨by rw [ExpirationSet.memoOf_power_total, Finset.sum_union hd], ?_⟩
  have hsplit : (on ∪ early) ∩ faults = on.filter (· ∈ faults) ∪ early := by
    ext n
    simp only [Finset.mem_inter, Finset.mem_union, Finset.mem_filter]
    constructor
    · rintro ⟨hn | hn, hnf⟩
      · exact .inl ⟨hn, hnf⟩
      · exact .inr hn
    · rintro (⟨hn, hnf⟩ | hn)
      · exact ⟨.inl hn, hnf⟩
      · exact ⟨.inr hn, hf hn⟩
  rw [hsplit, Finset.sum_union (hd.mono_left (Finset.filter_subset _ _))]
  rfl

/-- Live sectors leaving with their power leave the power of the others. -/
theorem Inv.livePower_sub (hI : Inv sectorSize quant info p) {E : Finset Nat}
    (hE : E ⊆ p.liveSectors) {power : PowerPair}
    (hpower : power = ∑ n ∈ E, powerForSector sectorSize (info n)) :
    p.livePower - power = ∑ n ∈ p.liveSectors \ E, powerForSector sectorSize (info n) := by
  rw [Finset.sum_sdiff_eq_sub hE, hI.livePower, hpower]

theorem Inv.faultyPower_sub (hI : Inv sectorSize quant info p) {E : Finset Nat} {power : PowerPair}
    (hpower : power = ∑ n ∈ E ∩ p.faults, powerForSector sectorSize (info n)) :
    p.faultyPower - power = ∑ n ∈ p.faults \ E, powerForSector sectorSize (info n) := by
  rw [← Finset.sdiff_inter_self_right, Finset.sum_sdiff_eq_sub Finset.inter_subset_right,
    hI.faultyPower, hpower]

theorem liveSectors_terminate (p : Partition) (E : Finset Nat) :
    p.sectors \ (p.terminated ∪ E) = p.liveSectors \ E := by
  rw [liveSectors, sdiff_sdiff_left]
  rfl

/-- Live sectors `E` joining the terminated ones keep the faults left live,
the terminated sectors inside the partition and the numbering of the sectors
still live. -/
theorem Inv.terminate_live (hI : Inv sectorSize quant info p) {E : Finset Nat}
    (hE : E ⊆ p.liveSectors) :
    p.faults \ E ⊆ p.sectors \ (p.terminated ∪ E) ∧ p.terminated ∪ E ⊆ p.sectors ∧
      ∀ n ∈ p.sectors \ (p.terminated ∪ E), (info n).sectorNumber = n := by
  rw [liveSectors_terminate]
  exact ⟨Finset.sdiff_subset_sdiff hI.faults_live subset_rfl,
    Finset.union_subset hI.terminated_sub (hE.trans (liveSectors_subset p)),
    fun n hn => hI.numbered n (Finset.sdiff_subset hn)⟩

/-- The queue invariant reads the faults among its live sectors only. -/
theorem queueInv_faults_sdiff {sched : Nat → Int} {F L E : Finset Nat} {q : ExpirationQueue}
    (hq : ExpirationQueue.Inv sectorSize info sched F (L \ E) q) :
    ExpirationQueue.Inv sectorSize info sched (F \ E) (L \ E) q :=
  hq.congr (fun _ _ => rfl) (fun _ _ => rfl) fun n hn => by simp [(Finset.mem_sdiff.mp hn).2]

/-- **Terminating sectors.** Live sectors, which the method checks they are,
leave the queue and the faults and recoveries, and join the terminated ones
and the early termination queue. -/
theorem Inv.terminateSectors (hI : Inv sectorSize quant info p) {addressedSectorsMax : Nat}
    {sectors : OrdMap Nat SectorOnChainInfo} (hagree : SectorsAgree sectors info p) {epoch : Int}
    {sectorNumbers : Finset Nat} {p' : Partition} {r : ExpirationSet × PowerPair}
    (h : p.terminateSectors addressedSectorsMax sectors epoch sectorNumbers sectorSize quant =
      .ok (p', r)) :
    Inv sectorSize quant info p' := by
  simp only [Partition.terminateSectors, Except.bind_eq_ok, Except.mapError_eq_ok,
    Except.throw_bind, Except.ite_throw_eq_ok, Except.pure_eq_ok] at h
  obtain ⟨hsn, L, hload, ⟨q₁, removed, removedRecovering⟩, hrem, p₂, hrec, L', hsel, _, -, h⟩ := h
  obtain ⟨rfl, -⟩ := Prod.mk.inj h
  set E := sectorNumbers with hE
  have hElive : E ⊆ p.liveSectors := not_not.mp hsn
  have hL := hI.listing hagree hElive hload
  obtain ⟨sched, hq⟩ := hI.queue
  obtain ⟨hq₁, -, hmemo, hsec, hrr, hsplit, hearly⟩ := hq.removeSectors hL.agree hL.nodup hrem
  rw [hL.numbers_eq] at hq₁ hsec hrr
  -- the sectors removed from the queue are those terminated
  have hRS : removed.onTimeSectors ∪ removed.earlySectors = E := hsec
  rw [hRS] at hrec hsel ⊢
  obtain ⟨⟨amt, rfl⟩, hw, hT⟩ := early_recordEarlyTermination
    (p := { p with expirationsEpochs := q₁.amt }) (T := p.terminated ∪ E) hI.early
    (fun k => (hI.early_terminated k).trans Finset.subset_union_left) Finset.subset_union_right hrec
  have hL' := hL.selectSectors Finset.inter_subset_left hsel
  obtain ⟨hpower, hfaulty⟩ := memoOf_power_split hmemo hsplit hearly
  rw [hRS] at hpower hfaulty
  have hlive' := liveSectors_terminate p E
  obtain ⟨hfl, hts, hnum⟩ := hI.terminate_live hElive
  refine ⟨?_, hfl, hts, ?_, ?_, hnum, ?_, ?_, ?_, ?_, ⟨sched, ?_⟩, hI.unit, hw, hT⟩
  · show p.unproven \ (E ∩ p.unproven) ⊆ p.sectors \ (p.terminated ∪ E)
    rw [hlive', Finset.sdiff_inter_self_right]
    exact Finset.sdiff_subset_sdiff hI.unproven_live subset_rfl
  · exact Finset.sdiff_subset_sdiff hI.recoveries_faults subset_rfl
  · exact (hI.faults_unproven.mono Finset.sdiff_subset Finset.sdiff_subset)
  · show p.livePower - removed.activePower - removed.faultyPower =
      ∑ n ∈ p.sectors \ (p.terminated ∪ E), _
    rw [hlive', sub_sub]
    exact hI.livePower_sub hElive hpower
  · show p.unprovenPower - powerForSectors sectorSize L' = ∑ n ∈ p.unproven \ (E ∩ p.unproven), _
    rw [hL'.powerForSectors sectorSize, Finset.sum_sdiff_eq_sub Finset.inter_subset_right,
      hI.unprovenPower]
  · show p.faultyPower - removed.faultyPower = ∑ n ∈ p.faults \ E, _
    exact hI.faultyPower_sub hfaulty
  · -- the recovering power removed is that of the recovering sectors terminated
    have hrec' : (E ∩ p.faults).filter (· ∈ p.recoveries) = p.recoveries ∩ E := by
      ext n
      simp only [Finset.mem_filter, Finset.mem_inter]
      constructor
      · rintro ⟨⟨hE, -⟩, hR⟩
        exact ⟨hR, hE⟩
      · rintro ⟨hR, hE⟩
        exact ⟨⟨hE, hI.recoveries_faults hR⟩, hR⟩
    show p.recoveringPower - removedRecovering = ∑ n ∈ p.recoveries \ E, _
    rw [hrr, hrec', ← Finset.sdiff_inter_self_left, Finset.sum_sdiff_eq_sub Finset.inter_subset_left,
      hI.recoveringPower]
  · show ExpirationQueue.Inv sectorSize info sched (p.faults \ E) (p.sectors \ (p.terminated ∪ E))
      ⟨q₁.amt, quant⟩
    rw [hlive']
    exact queueInv_faults_sdiff (queueInv_of_quant (removeSectors_quant hrem) hq₁)

/-- **Expiring sectors.** The sectors of the entries due by the epoch leave the
queue and the faults and join the terminated ones, the early ones also the
early termination queue. The method's own checks exclude unproven and
recovering sectors. -/
theorem Inv.popExpiredSectors (hI : Inv sectorSize quant info p) {untilEpoch : Int}
    {p' : Partition} {popped : ExpirationSet}
    (h : p.popExpiredSectors untilEpoch quant = .ok (p', popped)) :
    Inv sectorSize quant info p' := by
  simp only [Partition.popExpiredSectors, Except.bind_eq_ok, Except.mapError_eq_ok,
    Except.throw_bind, Except.ite_throw_eq_ok, Except.pure_eq_ok] at h
  obtain ⟨hunproven, ⟨q₁, pp⟩, hpop, hrecoveries, -, -, p₂, hrec, _, -, h⟩ := h
  obtain ⟨rfl, rfl⟩ := Prod.mk.inj h
  have hu : p.unproven = ∅ := not_not.mp hunproven
  have hr : p.recoveries = ∅ := not_not.mp hrecoveries
  obtain ⟨sched, hq⟩ := hI.queue
  have hq₁ := hq.popUntil hpop
  obtain ⟨hmemo, hsplit, hearly, hElive⟩ := hq.popUntil_popped hpop
  set E := pp.onTimeSectors ∪ pp.earlySectors with hE
  obtain ⟨⟨amt, rfl⟩, hw, hT⟩ := early_recordEarlyTermination (T := p.terminated ∪ E)
    (p := { p with
      expirationsEpochs := q₁.amt
      terminated := p.terminated ∪ E
      faults := p.faults \ E
      livePower := p.livePower - (pp.activePower + pp.faultyPower)
      faultyPower := p.faultyPower - pp.faultyPower })
    hI.early (fun k => (hI.early_terminated k).trans Finset.subset_union_left)
    (Finset.subset_union_right.trans Finset.subset_union_right) hrec
  obtain ⟨hpower, hfaulty⟩ := memoOf_power_split hmemo hsplit hearly
  have hlive' := liveSectors_terminate p E
  obtain ⟨hfl, hts, hnum⟩ := hI.terminate_live hElive
  refine ⟨?_, hfl, hts, ?_, hI.faults_unproven.mono_left Finset.sdiff_subset, hnum, ?_,
    hI.unprovenPower, hI.faultyPower_sub hfaulty, hI.recoveringPower, ⟨sched, ?_⟩, hI.unit, hw, hT⟩
  · show p.unproven ⊆ _
    rw [hu]
    exact Finset.empty_subset _
  · show p.recoveries ⊆ _
    rw [hr]
    exact Finset.empty_subset _
  · show p.livePower - (pp.activePower + pp.faultyPower) = ∑ n ∈ p.sectors \ (p.terminated ∪ E), _
    rw [hlive']
    exact hI.livePower_sub hElive hpower
  · show ExpirationQueue.Inv sectorSize info sched (p.faults \ E) (p.sectors \ (p.terminated ∪ E))
      ⟨q₁.amt, quant⟩
    rw [hlive']
    exact queueInv_faults_sdiff (queueInv_of_quant (popUntil_quant hpop) hq₁)

/-- **A missed proof.** Every live sector turns faulty and no sector stays
recovering or unproven. -/
theorem Inv.recordMissedPost (hI : Inv sectorSize quant info p) {faultExpiration : Int}
    {p' : Partition} {r : PowerPair × PowerPair × PowerPair}
    (h : p.recordMissedPost faultExpiration quant = .ok (p', r)) :
    Inv sectorSize quant info p' := by
  simp only [Partition.recordMissedPost, Except.bind_eq_ok, Except.mapError_eq_ok,
    Except.pure_eq_ok] at h
  obtain ⟨q₁, hres, _, -, h⟩ := h
  obtain ⟨rfl, -⟩ := Prod.mk.inj h
  obtain ⟨sched, hq⟩ := hI.queue
  have hq₁ := hq.rescheduleAllAsFaults hres
  refine { hI with
    unproven_live := Finset.empty_subset _
    faults_live := subset_rfl
    recoveries_faults := Finset.empty_subset _
    faults_unproven := Finset.disjoint_empty_right _
    unprovenPower := Finset.sum_empty.symm
    faultyPower := hI.livePower
    recoveringPower := Finset.sum_empty.symm
    queue := ⟨sched, ?_⟩ }
  show ExpirationQueue.Inv sectorSize info sched p.liveSectors p.liveSectors ⟨q₁.amt, quant⟩
  rw [queue_eta (rescheduleAllAsFaults_quant hres)]
  exact hq₁.congr (fun _ _ => rfl) (fun _ _ => rfl) fun n hn => by simp [hn]

/-! ### Replacing sectors -/

/-- **Replacing sectors.** Old sectors, given with their infos, which the
method checks are active, are replaced by new sectors listed once with infos
of their own; the new numbers may reuse the old ones but no other sector's. -/
theorem Inv.replaceSectors (hI : Inv sectorSize quant info p)
    {oldSectors newSectors : List SectorOnChainInfo} (hold : InfosAgree info oldSectors)
    (hnd : (newSectors.map SectorOnChainInfo.sectorNumber).Nodup)
    (hfresh : Disjoint (numbers newSectors) (p.sectors \ numbers oldSectors)) {p' : Partition}
    {r : PowerPair × Int × Int}
    (h : p.replaceSectors oldSectors newSectors sectorSize quant = .ok (p', r)) :
    Inv sectorSize quant (overrideInfos info newSectors) p' := by
  simp only [Partition.replaceSectors, Except.bind_eq_ok, Except.mapError_eq_ok,
    Except.throw_bind, Except.ite_throw_eq_ok, Except.pure_eq_ok] at h
  obtain ⟨⟨q₁, oldN, newN, pd, pld, fd⟩, hrep, hact, _, -, h⟩ := h
  obtain ⟨rfl, -⟩ := Prod.mk.inj h
  obtain ⟨rfl, rfl⟩ := replaceSectors_numbers hnd hrep
  set O := numbers oldSectors with hO
  set N := numbers newSectors with hN
  -- the method's check: the old sectors are active
  have hOact : O ⊆ (p.liveSectors \ p.faults) \ p.unproven := not_not.mp hact
  have hOlive : O ⊆ p.liveSectors := hOact.trans (Finset.sdiff_subset.trans Finset.sdiff_subset)
  have hOf : Disjoint O p.faults :=
    Finset.disjoint_of_subset_left (hOact.trans Finset.sdiff_subset) Finset.sdiff_disjoint
  have hOu : Disjoint O p.unproven := Finset.disjoint_of_subset_left hOact Finset.sdiff_disjoint
  have hNlive : Disjoint N (p.liveSectors \ O) :=
    hfresh.mono_right (Finset.sdiff_subset_sdiff (liveSectors_subset p) subset_rfl)
  -- the sectors kept are out of the new numbers, so their infos stay
  have hkeep : ∀ S ⊆ p.liveSectors \ O,
      ∑ n ∈ S, powerForSector sectorSize (overrideInfos info newSectors n) =
      ∑ n ∈ S, powerForSector sectorSize (info n) := fun S hS =>
    Finset.sum_congr rfl fun n hn =>
      by rw [overrideInfos_of_notMem (Finset.disjoint_right.mp hNlive (hS hn))]
  have hsub : ∀ S ⊆ p.liveSectors, Disjoint S O → S ⊆ p.liveSectors \ O := fun S hS hSO =>
    Finset.subset_sdiff.mpr ⟨hS, hSO⟩
  have hfaults : p.faults ⊆ p.liveSectors \ O := hsub _ hI.faults_live hOf.symm
  have hunproven : p.unproven ⊆ p.liveSectors \ O := hsub _ hI.unproven_live hOu.symm
  have hliveN : ((p.sectors \ O) ∪ N) \ p.terminated = (p.liveSectors \ O) ∪ N := by
    have hNt : Disjoint N p.terminated := hfresh.mono_right (Finset.subset_sdiff.mpr
      ⟨hI.terminated_sub, Finset.disjoint_of_subset_right hOlive Finset.disjoint_sdiff⟩)
    rw [Finset.union_sdiff_distrib, Finset.sdiff_eq_self_of_disjoint hNt, liveSectors,
      sdiff_right_comm]
  obtain ⟨sched, hq⟩ := hI.queue
  have hq₁ := hq.replaceSectors hI.unit hold hOf hnd hNlive (hNlive.mono_right hfaults) hrep
  have hpd := hq.replaceSectors_power hI.unit hold hOf hnd hNlive (hNlive.mono_right hfaults) hrep
  dsimp only at hpd
  refine ⟨?_, ?_, ?_, hI.recoveries_faults, hI.faults_unproven, ?_, ?_, ?_, ?_, ?_,
    ⟨fun n => if n ∈ N then (overrideInfos info newSectors n).expiration else sched n, ?_⟩,
    hI.unit, hI.early, hI.early_terminated⟩
  · show p.unproven ⊆ ((p.sectors \ O) ∪ N) \ p.terminated
    rw [hliveN]
    exact hunproven.trans Finset.subset_union_left
  · show p.faults ⊆ ((p.sectors \ O) ∪ N) \ p.terminated
    rw [hliveN]
    exact hfaults.trans Finset.subset_union_left
  · exact Finset.subset_union_left.trans' (Finset.subset_sdiff.mpr ⟨hI.terminated_sub,
      Finset.disjoint_of_subset_right hOlive Finset.disjoint_sdiff⟩)
  · intro n hn
    change n ∈ ((p.sectors \ O) ∪ N) \ p.terminated at hn
    rw [hliveN, Finset.mem_union] at hn
    rcases hn with hn | hn
    · rw [overrideInfos_of_notMem (Finset.disjoint_right.mp hNlive hn)]
      exact hI.numbered n (Finset.sdiff_subset hn)
    · exact (overrideInfos_agree hnd).sectorNumber_info hn
  · -- the live power loses the old sectors' power and gains the new ones'
    show p.livePower + pd = ∑ n ∈ ((p.sectors \ O) ∪ N) \ p.terminated, _
    rw [hliveN, Finset.sum_union hNlive.symm, hkeep _ subset_rfl, hpd, hI.livePower,
      ← Finset.sum_sdiff hOlive]
    abel
  · rw [hkeep _ hunproven]
    exact hI.unprovenPower
  · rw [hkeep _ hfaults]
    exact hI.faultyPower
  · rw [hkeep _ (hI.recoveries_faults.trans hfaults)]
    exact hI.recoveringPower
  · show ExpirationQueue.Inv sectorSize _ _ p.faults (((p.sectors \ O) ∪ N) \ p.terminated)
      ⟨q₁.amt, quant⟩
    rw [hliveN, queue_eta (replaceSectors_quant hrep)]
    exact hq₁

/-! ### Processing early terminations -/

/-- What a pop guarantees keeps the invariant: entries leave the early
termination queue, or part of one is left in place; nothing else changes. -/
theorem Inv.earlyPop (hI : Inv sectorSize quant info p) {maxSectors : Nat} {p' : Partition}
    {r : TerminationResult} {more : Bool} (hp : EarlyPop p p' maxSectors r more) :
    Inv sectorSize quant info p' := by
  obtain ⟨amt, rfl⟩ := hp.frame
  refine { hI with
    early := hI.early.of_get? rfl fun k v hk => ?_
    early_terminated := fun k => ?_ }
  · rcases hp.entries k v hk with hold | ⟨v₀, h₀, -, hne⟩
    · exact .inl hold
    · exact .inr ⟨hI.early.quantized k v₀ h₀, hne⟩
  · -- what is left at an epoch is part of the entry there
    calc _ ⊆ r.sectorsAt k ∪ BitFieldQueue.abs ⟨amt, noQuantization⟩ k := Finset.subset_union_right
      _ = p.earlyTerminationQueue.abs k := hp.split k
      _ ⊆ p.terminated := hI.early_terminated k

/-- **Processing early terminations.** -/
theorem Inv.popEarlyTerminations (hI : Inv sectorSize quant info p) {maxSectors : Nat}
    {p' : Partition} {r : TerminationResult × Bool}
    (h : p.popEarlyTerminations maxSectors = .ok (p', r)) : Inv sectorSize quant info p' :=
  hI.earlyPop (earlyPop_of_ok h)

end Preservation

/-! ## The state checks -/

section Checks

variable {sectorSize : Nat} {quant : QuantSpec} {info : Nat → SectorOnChainInfo} {p : Partition}

/-- The raw power of sectors is their count times the sector size. -/
theorem sum_power_raw (S : Finset Nat) :
    (∑ n ∈ S, powerForSector sectorSize (info n)).raw = S.card * (sectorSize : Int) := by
  simp [PowerPair.sum_raw, powerForSector]

/-- Every check of `validate_state` passes on a partition with the invariant
whose live sectors have quality-adjusted power of at least zero. -/
theorem Inv.validateState (hI : Inv sectorSize quant info p)
    (hqa : ∀ n ∈ p.liveSectors, 0 ≤ qaPowerForSector sectorSize (info n)) :
    p.validateState = .ok () := by
  -- a power total over live sectors is not negative
  have hnn : ∀ S ⊆ p.liveSectors,
      ¬((∑ n ∈ S, powerForSector sectorSize (info n)).raw < 0 ∨
        (∑ n ∈ S, powerForSector sectorSize (info n)).qa < 0) := fun S hS => by
    have hq : 0 ≤ (∑ n ∈ S, powerForSector sectorSize (info n)).qa := by
      rw [PowerPair.sum_qa]
      exact Finset.sum_nonneg fun n hn => hqa n (hS hn)
    have hr := Int.mul_nonneg (Int.natCast_nonneg S.card) (Int.natCast_nonneg sectorSize)
    rw [sum_power_raw]
    omega
  -- and the raw power of fewer sectors is no more
  have hle : ∀ S T : Finset Nat, S ⊆ T →
      ¬(∑ n ∈ S, powerForSector sectorSize (info n)).raw >
        (∑ n ∈ T, powerForSector sectorSize (info n)).raw := fun S T h => by
    have hcard := Finset.card_le_card h
    rw [sum_power_raw, sum_power_raw, not_lt]
    exact mul_le_mul_of_nonneg_right (by exact_mod_cast hcard) (Int.natCast_nonneg _)
  have hrec := hI.recoveries_faults.trans hI.faults_live
  have huf : p.unproven ∪ p.faults ⊆ p.liveSectors := Finset.union_subset hI.unproven_live hI.faults_live
  simp only [Partition.validateState, Partition.validatePowerState, Partition.validateBfState,
    Except.bind_eq_ok, Except.throw_bind, Except.ite_throw_eq_ok, Except.pure_eq_ok,
    hI.livePower, hI.unprovenPower, hI.faultyPower, hI.recoveringPower]
  refine ⟨(), ⟨hnn _ subset_rfl, hnn _ hI.unproven_live, hnn _ hI.faults_live, hnn _ hrec,
    hle _ _ hI.unproven_live, hle _ _ hI.faults_live,
    not_or.mpr ⟨hle _ _ hrec, hle _ _ hI.recoveries_faults⟩, trivial⟩, ?_, ?_,
    not_not.mpr hI.recoveries_faults, trivial⟩
  · -- unproven and faulty sectors are live, so not terminated
    exact not_not.mpr (Finset.disjoint_iff_inter_eq_empty.mp
      (Finset.disjoint_of_subset_right huf Finset.disjoint_sdiff))
  · exact not_not.mpr (Finset.union_subset (huf.trans (liveSectors_subset p)) hI.terminated_sub)

/-- Active power is the power of the active sectors. -/
theorem Inv.activePower_eq (hI : Inv sectorSize quant info p) :
    p.activePower = ∑ n ∈ p.activeSectors, powerForSector sectorSize (info n) := by
  have hset : p.activeSectors = p.liveSectors \ (p.faults ∪ p.unproven) := sdiff_sdiff_left
  rw [activePower, hset, Finset.sum_sdiff_eq_sub (Finset.union_subset hI.faults_live hI.unproven_live),
    Finset.sum_union hI.faults_unproven, hI.livePower, hI.faultyPower, hI.unprovenPower, sub_sub]

end Checks

end Inv

end Partition

end BuiltinActors.Miner
