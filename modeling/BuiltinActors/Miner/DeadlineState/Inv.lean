import BuiltinActors.Miner.DeadlineState.EarlyTerminations
import BuiltinActors.Miner.Partition.Inv

/-! # The deadline's invariant

What every deadline the miner reaches satisfies, relative to one assignment
`info` of infos to sectors, as the deadline checks of the miner's tests
expect: every partition has the partition invariant of `Partition/Inv.lean`,
the partitions are numbered from zero without gaps and hold distinct sectors,
the memoized counts and powers are the totals over the partitions, and the
index of partitions with early terminations is exactly the partitions whose
early termination queue has entries.

A deadline method changes the partitions it names through their own methods
and moves its totals by what they return; what each partition method changes
of the totals is stated once here (its delta), and one lemma, `Inv.replace`,
turns a partition replaced with matching totals into the invariant. A method
that walks several partitions keeps the invariant turn by turn, by
`Loop.foldlM_inv`. The callers' condition is that a sectors AMT they pass
holds the infos of the live sectors (`SectorsAgree`). -/

namespace BuiltinActors.Miner

theorem BitFieldQueue.count_pos_addToQueue {q q' : BitFieldQueue} {e : Int} {values : Finset Nat}
    (h : q.addToQueue e values = .ok q') : 0 < q'.amt.count ↔ 0 < q.amt.count ∨ values ≠ ∅ := by
  by_cases hv : values = ∅
  · rw [BitFieldQueue.addToQueue_of_empty q e hv, Except.ok.injEq] at h
    subst h
    simp [hv]
  by_cases hneg : q.quant.quantizeUp e < 0
  · rw [BitFieldQueue.addToQueue_of_neg q e hv hneg] at h
    cases h
  rw [BitFieldQueue.addToQueue_of_nonneg q e hv (not_lt.mp hneg), Except.ok.injEq] at h
  subst h
  -- the entry written holds the values
  simp only [hv, ne_eq, not_false_eq_true, or_true, iff_true]
  exact OrdMap.count_pos_iff.mpr ⟨_, _, by rw [OrdMap.get?_set, if_pos rfl]⟩

theorem ExpirationSet.len_eq_card {es : ExpirationSet} (h : Disjoint es.onTimeSectors es.earlySectors) :
    es.len = es.sectors.card :=
  (Finset.card_union_of_disjoint h).symm

@[simp] theorem subU64_eq_ok {a b c : Nat} : subU64 a b = .ok c ↔ b ≤ a ∧ a - b = c := by
  unfold subU64
  split_ifs with h <;> simp [h]

/-! ## What the partition methods change

The part of a partition the deadline totals read: its sectors, live
sectors, faulty and live power, and whether its early termination queue has
entries. -/

namespace Partition

section Deltas

variable {sectorSize : Nat} {quant : QuantSpec} {info : Nat → SectorOnChainInfo} {p p' : Partition}

/-- Recording early terminations changes only the early termination queue,
which has entries afterwards when it had some or sectors were recorded. -/
theorem recordEarlyTermination_count {epoch : Int} {S : Finset Nat}
    (h : p.recordEarlyTermination epoch S = .ok p') :
    (∃ amt, p' = { p with earlyTerminated := amt }) ∧
      (0 < p'.earlyTerminated.count ↔ 0 < p.earlyTerminated.count ∨ S ≠ ∅) := by
  simp only [recordEarlyTermination, Except.bind_eq_ok, Except.mapError_eq_ok,
    Except.pure_eq_ok] at h
  obtain ⟨q', hq', rfl⟩ := h
  exact ⟨⟨_, rfl⟩, BitFieldQueue.count_pos_addToQueue hq'⟩

/-- **Terminating sectors**, for the deadline: the live sectors lose those
removed, each power loses theirs, and the early termination queue has entries
once sectors were removed. -/
theorem terminateSectors_delta (hI : Inv sectorSize quant info p) {addressedSectorsMax : Nat}
    {sectors : OrdMap Nat SectorOnChainInfo} (hagree : SectorsAgree sectors info p) {epoch : Int}
    {sectorNumbers : Finset Nat} {removed : ExpirationSet} {unprovenPower : PowerPair}
    (h : p.terminateSectors addressedSectorsMax sectors epoch sectorNumbers sectorSize quant =
      .ok (p', removed, unprovenPower)) :
    p'.sectors = p.sectors ∧ p'.liveSectors ⊆ p.liveSectors ∧
      p'.liveSectors.card + removed.len = p.liveSectors.card ∧
      p'.faultyPower = p.faultyPower - removed.faultyPower ∧
      p'.livePower = p.livePower - removed.activePower - removed.faultyPower - unprovenPower ∧
      (0 < p'.earlyTerminated.count ↔ 0 < p.earlyTerminated.count ∨ removed.isEmpty = false) := by
  simp only [Partition.terminateSectors, Except.bind_eq_ok, Except.mapError_eq_ok,
    Except.throw_bind, Except.ite_throw_eq_ok, Except.pure_eq_ok] at h
  obtain ⟨hsn, L, hload, ⟨q₁, removed₀, removedRecovering⟩, hrem, p₂, hrec, L', hsel, _, -, h⟩ := h
  simp only [Prod.mk.injEq] at h
  obtain ⟨rfl, rfl, rfl⟩ := h
  have hL := hI.listing hagree (not_not.mp hsn) hload
  obtain ⟨sched, hq⟩ := hI.queue
  obtain ⟨-, hsub, -, hsec, -, hsplit, -⟩ := hq.removeSectors hL.agree hL.nodup hrem
  rw [← hsec] at hsub
  obtain ⟨⟨amt, rfl⟩, hcount⟩ := recordEarlyTermination_count hrec
  have hlive' := liveSectors_terminate p removed₀.sectors
  refine ⟨rfl, ?_, ?_, rfl, ?_, ?_⟩
  · show p.sectors \ (p.terminated ∪ removed₀.sectors) ⊆ p.liveSectors
    rw [hlive']
    exact Finset.sdiff_subset
  · show (p.sectors \ (p.terminated ∪ removed₀.sectors)).card + removed₀.len = p.liveSectors.card
    rw [hlive', ExpirationSet.len_eq_card hsplit]
    exact Finset.card_sdiff_add_card_eq_card hsub
  · show p.livePower - removed₀.activePower - removed₀.faultyPower =
      p.livePower - (removed₀.activePower - _) - removed₀.faultyPower - _
    abel
  · rw [hcount, ExpirationSet.isEmpty_eq_false_iff, Finset.nonempty_iff_ne_empty]
    rfl

/-- **Expiring sectors**, for the deadline: the live sectors lose the expired
ones, which were live and are on time or early but not both; each power loses
theirs, and the early termination queue has entries once some expired
early. -/
theorem popExpiredSectors_delta (hI : Inv sectorSize quant info p) {untilEpoch : Int}
    {popped : ExpirationSet} (h : p.popExpiredSectors untilEpoch quant = .ok (p', popped)) :
    p'.sectors = p.sectors ∧ p'.liveSectors = p.liveSectors \ popped.sectors ∧
      popped.sectors ⊆ p.liveSectors ∧ Disjoint popped.onTimeSectors popped.earlySectors ∧
      p'.faultyPower = p.faultyPower - popped.faultyPower ∧
      p'.livePower = p.livePower - (popped.activePower + popped.faultyPower) ∧
      (0 < p'.earlyTerminated.count ↔ 0 < p.earlyTerminated.count ∨ popped.earlySectors ≠ ∅) := by
  simp only [Partition.popExpiredSectors, Except.bind_eq_ok, Except.mapError_eq_ok,
    Except.throw_bind, Except.ite_throw_eq_ok, Except.pure_eq_ok] at h
  obtain ⟨-, ⟨q₁, pp⟩, hpop, -, -, -, p₂, hrec, _, -, h⟩ := h
  obtain ⟨rfl, rfl⟩ := Prod.mk.inj h
  obtain ⟨sched, hq⟩ := hI.queue
  obtain ⟨-, hsplit, -, hElive⟩ := hq.popUntil_popped hpop
  obtain ⟨⟨amt, rfl⟩, hcount⟩ := recordEarlyTermination_count hrec
  exact ⟨rfl, liveSectors_terminate p pp.sectors, hElive, hsplit, rfl, rfl, hcount⟩

/-- What `add_faults` leaves and what it adds to the faulty power. -/
theorem addFaults_frame {S : Finset Nat} {sectors : List SectorOnChainInfo} {faultExpiration : Int}
    {powerDelta newFaultyPower : PowerPair}
    (h : p.addFaults S sectors faultExpiration sectorSize quant = .ok (p', powerDelta, newFaultyPower)) :
    p'.sectors = p.sectors ∧ p'.terminated = p.terminated ∧ p'.livePower = p.livePower ∧
      p'.earlyTerminated = p.earlyTerminated ∧ p'.faultyPower = p.faultyPower + newFaultyPower := by
  simp only [addFaults, Except.bind_eq_ok, Except.mapError_eq_ok, Except.pure_eq_ok] at h
  obtain ⟨⟨q₁, nfp⟩, -, L', -, _, -, h⟩ := h
  -- either way the unproven sectors are the only other change
  cases hE : L'.isEmpty with
  | true =>
    simp only [hE, Bool.not_true, Bool.false_eq_true, if_false, Prod.mk.injEq] at h
    obtain ⟨rfl, -, rfl⟩ := h
    exact ⟨rfl, rfl, rfl, rfl, rfl⟩
  | false =>
    simp only [hE, Bool.not_false, if_true, Prod.mk.injEq] at h
    obtain ⟨rfl, -, rfl⟩ := h
    exact ⟨rfl, rfl, rfl, rfl, rfl⟩

/-- **Declaring faults**, for the deadline: only the faulty power, of the
totals, changes, by the new faulty power returned. -/
theorem recordFaults_frame {sectors : OrdMap Nat SectorOnChainInfo} {sectorNumbers : Finset Nat}
    {faultExpirationEpoch : Int} {newFaults : Finset Nat} {powerDelta newFaultyPower : PowerPair}
    (h : p.recordFaults sectors sectorNumbers faultExpirationEpoch sectorSize quant =
      .ok (p', newFaults, powerDelta, newFaultyPower)) :
    p'.sectors = p.sectors ∧ p'.terminated = p.terminated ∧ p'.livePower = p.livePower ∧
      p'.earlyTerminated = p.earlyTerminated ∧ p'.faultyPower = p.faultyPower + newFaultyPower := by
  simp only [Partition.recordFaults, Except.bind_eq_ok, Except.mapError_eq_ok, Except.pure_eq_ok] at h
  obtain ⟨_, -, L, -, ⟨p₁, pd, nfp⟩, hadd, L₂, -, _, -, h⟩ := h
  simp only [Prod.mk.injEq] at h
  obtain ⟨rfl, -, -, rfl⟩ := h
  -- the faults added, if any, then the recoveries retracted, which touch no total
  have h₁ : p₁.sectors = p.sectors ∧ p₁.terminated = p.terminated ∧ p₁.livePower = p.livePower ∧
      p₁.earlyTerminated = p.earlyTerminated ∧ p₁.faultyPower = p.faultyPower + nfp := by
    cases hE : L.isEmpty with
    | false =>
      rw [hE, Bool.not_false, if_pos rfl, Except.mapError_eq_ok] at hadd
      exact addFaults_frame hadd
    | true =>
      rw [hE, Bool.not_true, if_neg Bool.false_ne_true, Except.pure_eq_ok, Prod.mk.injEq] at hadd
      obtain ⟨rfl, -, rfl⟩ := hadd
      exact ⟨rfl, rfl, rfl, rfl, (add_zero _).symm⟩
  split_ifs
  · unfold Partition.removeRecoveries
    split_ifs
    · exact h₁
    · exact h₁
  · exact h₁

/-- **Declaring recoveries** changes only the recoveries and their power. -/
theorem declareFaultsRecovered_frame {sectors : OrdMap Nat SectorOnChainInfo}
    {sectorNumbers : Finset Nat} (h : p.declareFaultsRecovered sectors sectorSize sectorNumbers = .ok p') :
    ∃ recoveries recoveringPower, p' = { p with recoveries, recoveringPower } := by
  simp only [Partition.declareFaultsRecovered, Except.bind_eq_ok, Except.mapError_eq_ok,
    Except.pure_eq_ok] at h
  obtain ⟨_, -, L, -, _, -, rfl⟩ := h
  exact ⟨_, _, rfl⟩

end Deltas

end Partition

namespace DeadlineState

/-- A sectors AMT holds the infos of the live sectors of every partition. -/
def SectorsAgree (sectors : OrdMap Nat SectorOnChainInfo) (info : Nat → SectorOnChainInfo)
    (d : DeadlineState) : Prop :=
  ∀ j p, d.partitions.get? j = some p → Partition.SectorsAgree sectors info p

section Inv

variable (sectorSize : Nat) (quant : QuantSpec) (info : Nat → SectorOnChainInfo)

/-- The invariant of a deadline whose live sectors have the infos `info`. -/
structure Inv (d : DeadlineState) : Prop where
  partition : ∀ j p, d.partitions.get? j = some p → Partition.Inv sectorSize quant info p
  /-- Partitions are numbered from zero, without gaps. -/
  sequential : ∀ j, (d.partitions.get? j).isSome ↔ j < d.partitions.count
  /-- No sector is in two partitions. -/
  disjoint : ∀ i j p q, d.partitions.get? i = some p → d.partitions.get? j = some q → i ≠ j →
    Disjoint p.sectors q.sectors
  liveSectors : d.liveSectors = d.partitions.sumBy fun _ p => p.liveSectors.card
  totalSectors : d.totalSectors = d.partitions.sumBy fun _ p => p.sectors.card
  faultyPower : d.faultyPower = d.partitions.sumBy fun _ p => p.faultyPower
  livePower : d.livePower = d.partitions.sumBy fun _ p => p.livePower
  /-- The index holds exactly the partitions with early terminations. -/
  early : ∀ j, j ∈ d.earlyTerminations ↔
    ∃ p, d.partitions.get? j = some p ∧ 0 < p.earlyTerminated.count

theorem inv_new : Inv sectorSize quant info new where
  partition _ _ h := by cases h
  sequential _ := by
    simp only [new, OrdMap.get?_empty]
    simp [OrdMap.count, OrdMap.empty]
  disjoint _ _ _ _ h := by cases h
  liveSectors := rfl
  totalSectors := rfl
  faultyPower := rfl
  livePower := rfl
  early j := by
    constructor
    · intro h
      exact absurd h (Finset.notMem_empty j)
    · rintro ⟨_, h, -⟩
      cases h

variable {sectorSize quant info} {d d' : DeadlineState}

theorem Inv.early_iff (hI : Inv sectorSize quant info d) {j : Nat} {p : Partition}
    (hj : d.partitions.get? j = some p) : j ∈ d.earlyTerminations ↔ 0 < p.earlyTerminated.count := by
  rw [hI.early j, hj]
  simp

/-- Partitions hold distinct sectors, so their early termination queues,
which hold terminated sectors, do too. -/
theorem Inv.earlySeparated (hI : Inv sectorSize quant info d) : d.EarlySeparated := by
  intro i j p q hp hq hij k
  have hsub : ∀ j p, d.partitions.get? j = some p → p.earlyTerminationQueue.abs k ⊆ p.sectors :=
    fun j p hp => ((hI.partition j p hp).early_terminated k).trans (hI.partition j p hp).terminated_sub
  exact (hI.disjoint i j p q hp hq hij).mono (hsub i p hp) (hsub j q hq)

/-- **Replacing one partition.** A partition replaced by one with the same
sectors and the partition invariant keeps the deadline's invariant when each
total moves by the partition's change, and the index marks the partition
exactly when its queue has entries. -/
theorem Inv.replace (hI : Inv sectorSize quant info d) {j : Nat} {p p' : Partition}
    (hj : d.partitions.get? j = some p) (hp' : Partition.Inv sectorSize quant info p')
    (hsec : p'.sectors = p.sectors) (hparts : d'.partitions = d.partitions.set j p')
    (hlive : d'.liveSectors + p.liveSectors.card = d.liveSectors + p'.liveSectors.card)
    (htotal : d'.totalSectors = d.totalSectors)
    (hfaulty : d'.faultyPower + p.faultyPower = d.faultyPower + p'.faultyPower)
    (hlivePower : d'.livePower + p.livePower = d.livePower + p'.livePower)
    (hearly : ∀ i, i ∈ d'.earlyTerminations ↔
      if i = j then 0 < p'.earlyTerminated.count else i ∈ d.earlyTerminations) :
    Inv sectorSize quant info d' := by
  have hget : ∀ i, d'.partitions.get? i = if i = j then some p' else d.partitions.get? i := fun i => by
    rw [hparts, OrdMap.get?_set]
  -- a partition after the replacement is `p'` at `j` and as it was elsewhere
  have hat : ∀ i q, d'.partitions.get? i = some q → (i = j ∧ q = p') ∨ (i ≠ j ∧ d.partitions.get? i = some q) :=
    fun i q hq => by
      rw [hget] at hq
      split_ifs at hq with hij
      · exact .inl ⟨hij, (Option.some.inj hq).symm⟩
      · exact .inr ⟨hij, hq⟩
  -- a total of a group over the partitions moves by the partition's change
  have hsum : ∀ {M : Type} [AddCommGroup M] (f : Partition → M),
      d'.partitions.sumBy (fun _ q => f q) = d.partitions.sumBy (fun _ q => f q) - f p + f p' :=
    fun f => by rw [hparts, OrdMap.sumBy_set_of_get? hj]
  have hcount : d'.partitions.count = d.partitions.count := by
    rw [hparts, OrdMap.count_eq_card_keySet, OrdMap.count_eq_card_keySet, OrdMap.keySet_set,
      Finset.insert_eq_of_mem (OrdMap.mem_keySet.mpr (by simp [hj]))]
  refine ⟨fun i q hq => ?_, fun i => ?_, fun i i' q q' hq hq' hii' => ?_, ?_, ?_, ?_, ?_, fun i => ?_⟩
  · rcases hat i q hq with ⟨-, rfl⟩ | ⟨-, hq⟩
    · exact hp'
    · exact hI.partition i q hq
  · rw [hget, hcount, ← hI.sequential i]
    split_ifs with hij
    · subst hij
      simp [hj]
    · rfl
  · -- the replacement has the sectors of the partition it replaces
    have hsecs : ∀ i q, d'.partitions.get? i = some q →
        ∃ q₀, d.partitions.get? i = some q₀ ∧ q.sectors = q₀.sectors := fun i q hq => by
      rcases hat i q hq with ⟨rfl, rfl⟩ | ⟨-, hq⟩
      · exact ⟨p, hj, hsec⟩
      · exact ⟨q, hq, rfl⟩
    obtain ⟨q₀, hq₀, he⟩ := hsecs i q hq
    obtain ⟨q₀', hq₀', he'⟩ := hsecs i' q' hq'
    rw [he, he']
    exact hI.disjoint i i' q₀ q₀' hq₀ hq₀' hii'
  · have h := OrdMap.sumBy_set d.partitions (fun _ q => q.liveSectors.card) j p'
    rw [hj, Option.elim_some, ← hparts, ← hI.liveSectors] at h
    omega
  · have h := OrdMap.sumBy_set d.partitions (fun _ q => q.sectors.card) j p'
    rw [hj, Option.elim_some, ← hparts, ← hI.totalSectors, hsec] at h
    omega
  · rw [hsum, ← hI.faultyPower, eq_sub_of_add_eq hfaulty]
    abel
  · rw [hsum, ← hI.livePower, eq_sub_of_add_eq hlivePower]
    abel
  · rw [hearly i, hget]
    split_ifs with hij
    · simp
    · exact hI.early i

/-- The invariant reads only the partitions, the index and the totals. -/
theorem Inv.of_eq (hI : Inv sectorSize quant info d) (hparts : d'.partitions = d.partitions)
    (hE : d'.earlyTerminations = d.earlyTerminations) (hlive : d'.liveSectors = d.liveSectors)
    (htotal : d'.totalSectors = d.totalSectors) (hfaulty : d'.faultyPower = d.faultyPower)
    (hlivePower : d'.livePower = d.livePower) : Inv sectorSize quant info d' := by
  obtain ⟨partitions, _, E, _, _, _, _, _⟩ := d'
  dsimp only at hparts hE hlive htotal hfaulty hlivePower
  subst hparts hE hlive htotal hfaulty hlivePower
  exact ⟨hI.partition, hI.sequential, hI.disjoint, hI.liveSectors, hI.totalSectors, hI.faultyPower,
    hI.livePower, hI.early⟩

end Inv

/-! ## The methods keep the invariant -/

section Preservation

variable {sectorSize : Nat} {quant : QuantSpec} {info : Nat → SectorOnChainInfo}
  {sectors : OrdMap Nat SectorOnChainInfo} {d d' : DeadlineState}

theorem SectorsAgree.replace (hagree : SectorsAgree sectors info d) {j : Nat} {p p' : Partition}
    (hj : d.partitions.get? j = some p) (hlive : p'.liveSectors ⊆ p.liveSectors)
    (hparts : d'.partitions = d.partitions.set j p') : SectorsAgree sectors info d' := by
  intro i q hq
  rw [hparts, OrdMap.get?_set] at hq
  split_ifs at hq with hij
  · cases hq
    exact fun n hn => hagree j p (hij ▸ hj) n (hlive hn)
  · exact hagree i q hq

/-- Two partitions with the same sectors and the same terminated ones have
the same live sectors. -/
theorem liveSectors_eq {p p' : Partition} (hsec : p'.sectors = p.sectors)
    (hterm : p'.terminated = p.terminated) : p'.liveSectors = p.liveSectors := by
  rw [Partition.liveSectors, Partition.liveSectors, hsec, hterm]

/-! ### Terminating sectors -/

/-- One partition of `terminate_sectors`: its sectors are terminated, and the
deadline's totals lose what the partition lost. -/
theorem Inv.terminateStep {acc acc' : DeadlineState × PowerPair}
    (hI : Inv sectorSize quant info acc.1) (hagree : SectorsAgree sectors info acc.1)
    {addressedSectorsMax : Nat} {epoch : Int} {e : Nat × Finset Nat}
    (h : terminateStep addressedSectorsMax sectors epoch sectorSize quant acc e = .ok acc') :
    Inv sectorSize quant info acc'.1 ∧ SectorsAgree sectors info acc'.1 := by
  obtain ⟨d, pw⟩ := acc
  dsimp only at hI hagree
  obtain ⟨j, S⟩ := e
  cases hj : d.partitions.get? j with
  | none => simp [DeadlineState.terminateStep, hj] at h
  | some p =>
    simp only [DeadlineState.terminateStep, hj, Except.bind_eq_ok, Except.mapError_eq_ok,
      Except.pure_eq_ok] at h
    obtain ⟨_, rfl, ⟨p', removed, unp⟩, hterm, h⟩ := h
    have hp := hI.partition j _ hj
    have hagj := hagree j _ hj
    have hp' := hp.terminateSectors hagj hterm
    obtain ⟨hsec, hlive, hcard, hfaulty, hlivePower, hcount⟩ :=
      Partition.terminateSectors_delta hp hagj hterm
    have hE := hI.early_iff hj
    -- the power totals move by the partition's change whether or not sectors left it
    have hF : d.faultyPower - removed.faultyPower + p.faultyPower = d.faultyPower + p'.faultyPower := by
      rw [hfaulty]
      abel
    have hL : d.livePower - removed.activePower - removed.faultyPower - unp + p.livePower =
        d.livePower + p'.livePower := by
      rw [hlivePower]
      abel
    cases hrm : removed.isEmpty with
    | false =>
      -- sectors left the partition, which now has early terminations
      simp only [hrm, Bool.not_false, if_true, Except.bind_eq_ok, subU64_eq_ok, Except.pure_eq_ok,
        exists_eq_left'] at h
      obtain ⟨live, ⟨hle, rfl⟩, rfl⟩ := h
      refine ⟨hI.replace hj hp' hsec rfl ?_ rfl hF hL fun i => ?_, hagree.replace hj hlive rfl⟩
      · show d.liveSectors - removed.len + _ = _
        omega
      · show i ∈ insert j d.earlyTerminations ↔ _
        split_ifs with hij
        · simp [hij, hcount, hrm]
        · simp [hij]
    | true =>
      simp only [hrm, Bool.not_true, Bool.false_eq_true, if_false, Except.bind_eq_ok,
        Except.pure_eq_ok, exists_eq_left'] at h
      obtain rfl := h
      -- nothing left the partition, so no count and no mark changes
      have hlen : removed.len = 0 := by
        have h0 := (ExpirationSet.isEmpty_iff removed).mp hrm
        rw [ExpirationSet.sectors, Finset.union_eq_empty] at h0
        simp [ExpirationSet.len, h0.1, h0.2]
      refine ⟨hI.replace hj hp' hsec rfl ?_ rfl hF hL fun i => ?_, hagree.replace hj hlive rfl⟩
      · show d.liveSectors + _ = _
        omega
      · show i ∈ d.earlyTerminations ↔ _
        split_ifs with hij
        · simp [hij, hE, hcount, hrm]
        · rfl

/-- **Terminating sectors** keeps the invariant. -/
theorem Inv.terminateSectors (hI : Inv sectorSize quant info d) (hagree : SectorsAgree sectors info d)
    {addressedSectorsMax : Nat} {epoch : Int} {partitionSectors : OrdMap Nat (Finset Nat)}
    {power : PowerPair}
    (h : d.terminateSectors addressedSectorsMax sectors epoch partitionSectors sectorSize quant =
      .ok (d', power)) :
    Inv sectorSize quant info d' ∧ SectorsAgree sectors info d' :=
  Loop.foldlM_inv (fun acc _ _ => Inv sectorSize quant info acc.1 ∧ SectorsAgree sectors info acc.1)
    (fun _ _ _ _ _ hacc hstep => Inv.terminateStep hacc.1 hacc.2 hstep)
    partitionSectors.entries [] (d, 0) (d', power) ⟨hI, hagree⟩ h

/-! ### Faults and recoveries -/

/-- One partition of `record_faults`: the faulty power gains the partition's
new faulty power. -/
theorem Inv.faultStep {acc acc' : DeadlineState × List Nat × PowerPair}
    (hI : Inv sectorSize quant info acc.1) (hagree : SectorsAgree sectors info acc.1)
    {faultExpirationEpoch : Int} {e : Nat × Finset Nat}
    (h : faultStep sectors sectorSize quant faultExpirationEpoch acc e = .ok acc') :
    Inv sectorSize quant info acc'.1 ∧ SectorsAgree sectors info acc'.1 := by
  obtain ⟨d, l, pw⟩ := acc
  dsimp only at hI hagree
  obtain ⟨j, S⟩ := e
  cases hj : d.partitions.get? j with
  | none => simp [DeadlineState.faultStep, hj] at h
  | some p =>
    simp only [DeadlineState.faultStep, hj, Except.bind_eq_ok, Except.mapError_eq_ok,
      Except.pure_eq_ok] at h
    obtain ⟨_, rfl, ⟨p', newFaults, pd, nfp⟩, hrec, rfl⟩ := h
    have hp' := (hI.partition j _ hj).recordFaults (hagree j _ hj) hrec
    obtain ⟨hsec, hterm, hlivePower, hearly, hfaulty⟩ := Partition.recordFaults_frame hrec
    have hlive := liveSectors_eq hsec hterm
    refine ⟨hI.replace hj hp' hsec rfl (by rw [hlive]) rfl ?_ (by rw [hlivePower]) fun i => ?_,
      hagree.replace hj hlive.le rfl⟩
    · show d.faultyPower + nfp + _ = _
      rw [hfaulty]
      abel
    · show i ∈ d.earlyTerminations ↔ _
      split_ifs with hij
      · rw [hij, hearly]
        exact hI.early_iff hj
      · rfl

theorem addExpirationPartitions_frame {expirationEpoch : Int} {partitions : List Nat}
    (h : d.addExpirationPartitions expirationEpoch partitions quant = .ok d') :
    ∃ amt, d' = { d with expirationsEpochs := amt } := by
  unfold addExpirationPartitions at h
  split at h
  · exact ⟨d.expirationsEpochs, (Except.pure_eq_ok.mp h).symm⟩
  · simp only [Except.bind_eq_ok, Except.mapError_eq_ok, Except.pure_eq_ok] at h
    obtain ⟨_, -, rfl⟩ := h
    exact ⟨_, rfl⟩

/-- **Declaring faults** keeps the invariant. -/
theorem Inv.recordFaults (hI : Inv sectorSize quant info d) (hagree : SectorsAgree sectors info d)
    {faultExpirationEpoch : Int} {partitionSectors : OrdMap Nat (Finset Nat)} {powerDelta : PowerPair}
    (h : d.recordFaults sectors sectorSize quant faultExpirationEpoch partitionSectors =
      .ok (d', powerDelta)) :
    Inv sectorSize quant info d' ∧ SectorsAgree sectors info d' := by
  simp only [DeadlineState.recordFaults, Except.bind_eq_ok, Except.mapError_eq_ok,
    Except.pure_eq_ok] at h
  obtain ⟨⟨d₁, l, pw⟩, hwalk, d₂, hexp, h⟩ := h
  obtain ⟨rfl, -⟩ := Prod.mk.inj h
  obtain ⟨hI₁, hagree₁⟩ := Loop.foldlM_inv
    (fun acc _ _ => Inv sectorSize quant info acc.1 ∧ SectorsAgree sectors info acc.1)
    (fun _ _ _ _ _ hacc hstep => Inv.faultStep hacc.1 hacc.2 hstep)
    partitionSectors.entries [] (d, [], 0) _ ⟨hI, hagree⟩ hwalk
  -- queueing the partitions at the fault expiration touches nothing the invariant reads
  obtain ⟨amt, rfl⟩ := addExpirationPartitions_frame hexp
  exact ⟨hI₁.of_eq rfl rfl rfl rfl rfl rfl, hagree₁⟩

/-- One partition of `declare_faults_recovered`. -/
theorem Inv.recoverStep (hI : Inv sectorSize quant info d) (hagree : SectorsAgree sectors info d)
    {e : Nat × Finset Nat} (h : recoverStep sectors sectorSize d e = .ok d') :
    Inv sectorSize quant info d' ∧ SectorsAgree sectors info d' := by
  obtain ⟨j, S⟩ := e
  cases hj : d.partitions.get? j with
  | none => simp [DeadlineState.recoverStep, hj] at h
  | some p =>
    simp only [DeadlineState.recoverStep, hj, Except.bind_eq_ok, Except.mapError_eq_ok,
      Except.pure_eq_ok] at h
    obtain ⟨_, rfl, p', hrec, rfl⟩ := h
    have hp' := (hI.partition j _ hj).declareFaultsRecovered (hagree j _ hj) hrec
    obtain ⟨R, RP, rfl⟩ := Partition.declareFaultsRecovered_frame hrec
    refine ⟨hI.replace hj hp' rfl rfl rfl rfl rfl rfl fun i => ?_,
      hagree.replace hj (by exact subset_rfl) rfl⟩
    show i ∈ d.earlyTerminations ↔ _
    split_ifs with hij
    · rw [hij, hI.early_iff hj]
    · rfl

/-- **Declaring recoveries** keeps the invariant. -/
theorem Inv.declareFaultsRecovered (hI : Inv sectorSize quant info d)
    (hagree : SectorsAgree sectors info d) {partitionSectors : OrdMap Nat (Finset Nat)}
    (h : d.declareFaultsRecovered sectors sectorSize partitionSectors = .ok d') :
    Inv sectorSize quant info d' ∧ SectorsAgree sectors info d' :=
  Loop.foldlM_inv (fun d _ _ => Inv sectorSize quant info d ∧ SectorsAgree sectors info d)
    (fun _ _ _ _ _ hacc hstep => Inv.recoverStep hacc.1 hacc.2 hstep)
    partitionSectors.entries [] d d' ⟨hI, hagree⟩ h

/-! ### Early terminations -/

/-- A deadline whose partitions were each left as they were or had only their
early termination queue replaced: what the totals read of a partition is
unchanged. -/
theorem map_get?_of_frame {P : Finset Nat} {m m' : OrdMap Nat Partition}
    (hout : ∀ j, j ∉ P → m'.get? j = m.get? j)
    (hin : ∀ j ∈ P, ∃ p amt, m.get? j = some p ∧ m'.get? j = some { p with earlyTerminated := amt })
    {M : Type} (f : Partition → M) (hf : ∀ p amt, f { p with earlyTerminated := amt } = f p) (j : Nat) :
    (m'.get? j).map f = (m.get? j).map f := by
  by_cases hj : j ∈ P
  · obtain ⟨p, amt, hp, hp'⟩ := hin j hj
    rw [hp, hp', Option.map_some, Option.map_some, hf]
  · rw [hout j hj]

theorem count_eq_of_isSome {m m' : OrdMap Nat Partition}
    (h : ∀ j, (m'.get? j).isSome = (m.get? j).isSome) : m'.count = m.count := by
  rw [OrdMap.count_eq_card_keySet, OrdMap.count_eq_card_keySet]
  congr 1
  ext j
  rw [OrdMap.mem_keySet, OrdMap.mem_keySet, h j]

/-- Partitions with the same sectors at the same indices: the invariant's
conditions on numbering and distinct sectors carry over. -/
theorem Inv.sequential_disjoint_of_sectors (hI : Inv sectorSize quant info d)
    {m : OrdMap Nat Partition}
    (hsec : ∀ j, (m.get? j).map Partition.sectors = (d.partitions.get? j).map Partition.sectors) :
    (∀ j, (m.get? j).isSome ↔ j < m.count) ∧
      ∀ i j p q, m.get? i = some p → m.get? j = some q → i ≠ j → Disjoint p.sectors q.sectors := by
  have hsome : ∀ j, (m.get? j).isSome = (d.partitions.get? j).isSome := fun j => by
    rw [← Option.isSome_map (f := Partition.sectors), hsec j, Option.isSome_map]
  -- a partition of `m` has the sectors of the one of `d` at its index
  have hfrom : ∀ j p, m.get? j = some p → ∃ p₀, d.partitions.get? j = some p₀ ∧ p.sectors = p₀.sectors :=
    fun j p hp => by
      have h := hsec j
      rw [hp, Option.map_some] at h
      obtain ⟨p₀, hp₀, he⟩ := Option.map_eq_some_iff.mp h.symm
      exact ⟨p₀, hp₀, he.symm⟩
  refine ⟨fun j => by rw [hsome, count_eq_of_isSome hsome]; exact hI.sequential j,
    fun i j p q hp hq hij => ?_⟩
  obtain ⟨p₀, hp₀, hp⟩ := hfrom i p hp
  obtain ⟨q₀, hq₀, hq⟩ := hfrom j q hq
  rw [hp, hq]
  exact hI.disjoint i j p₀ q₀ hp₀ hq₀ hij

/-- **Processing early terminations** keeps the invariant: the partitions
popped keep theirs, and the index loses exactly those with no more. -/
theorem Inv.popEarlyTerminations (hI : Inv sectorSize quant info d)
    {maxPartitions maxSectors : Nat} {result : TerminationResult} {hasMore : Bool}
    (h : d.popEarlyTerminations maxPartitions maxSectors = .ok (d', result, hasMore)) :
    Inv sectorSize quant info d' := by
  simp only [DeadlineState.popEarlyTerminations, Except.bind_eq_ok, Except.pure_eq_ok] at h
  obtain ⟨w, hw, h⟩ := h
  obtain ⟨rfl, -⟩ := Prod.mk.inj h.symm
  obtain ⟨done, rest, P, R, M, hL, hT, -, -⟩ := forWhile_terminationStep hI.earlySeparated hw
  have hin : ∀ j ∈ P, ∃ p amt, d.partitions.get? j = some p ∧
      w.partitions.get? j = some { p with earlyTerminated := amt } := fun j hj => by
    obtain ⟨p, p', b, hp, hp', hE, -⟩ := hT.pop j hj
    obtain ⟨amt, rfl⟩ := hE.frame
    exact ⟨p, amt, hp, hp'⟩
  have hmap : ∀ {M : Type} (f : Partition → M), (∀ p amt, f { p with earlyTerminated := amt } = f p) →
      ∀ j, (w.partitions.get? j).map f = (d.partitions.get? j).map f :=
    fun f hf => map_get?_of_frame hT.untouched hin f hf
  obtain ⟨hseq, hdisj⟩ := hI.sequential_disjoint_of_sectors (hmap Partition.sectors fun _ _ => rfl)
  have hdoneE : ∀ j ∈ done, j ∈ d.earlyTerminations := fun j hj =>
    (Finset.mem_sort _).mp (hL ▸ List.mem_append_left rest hj)
  refine ⟨fun j q hq => ?_, hseq, hdisj, ?_, ?_, ?_, ?_, fun j => ?_⟩
  · by_cases hjP : j ∈ P
    · obtain ⟨p, p', b, hp, hp', hE, -⟩ := hT.pop j hjP
      rw [show q = p' from Option.some.inj (hq.symm.trans hp')]
      exact (hI.partition j p hp).earlyPop hE
    · exact hI.partition j q ((hT.untouched j hjP).symm.trans hq)
  · rw [hI.liveSectors]
    exact (OrdMap.sumBy_congr_map (hmap (fun p => p.liveSectors.card) fun _ _ => rfl)).symm
  · rw [hI.totalSectors]
    exact (OrdMap.sumBy_congr_map (hmap (fun p => p.sectors.card) fun _ _ => rfl)).symm
  · rw [hI.faultyPower]
    exact (OrdMap.sumBy_congr_map (hmap (fun p => p.faultyPower) fun _ _ => rfl)).symm
  · rw [hI.livePower]
    exact (OrdMap.sumBy_congr_map (hmap (fun p => p.livePower) fun _ _ => rfl)).symm
  · show j ∈ d.earlyTerminations \ w.partitionsFinished.toFinset ↔ _
    rw [Finset.mem_sdiff, List.mem_toFinset, hT.finished j]
    by_cases hjP : j ∈ P
    · -- popped: marked exactly when it has more
      obtain ⟨p, p', b, -, hp', hE, -⟩ := hT.pop j hjP
      rw [hp', hE.hasMore]
      simp [hdoneE j (hT.popped_done j hjP), hT.popped_done j hjP, hjP]
    · rw [hT.untouched j hjP]
      by_cases hjd : j ∈ done
      · -- missing: finished, and there is no partition
        simp [hT.missing j hjd hjP, hjd, hjP]
      · simp only [hjd, false_and, not_false_eq_true, and_true]
        exact hI.early j

/-! ### Expiring sectors -/

/-- What the walk of `pop_expired_sectors` has done after popping the
partitions `done`, `X` giving what each returned: the totals over the
partitions, with what the walk gathered, are those before it. -/
structure ExpiredDone (sectorSize : Nat) (quant : QuantSpec) (info : Nat → SectorOnChainInfo)
    (d : DeadlineState) (done : List Nat) (w : ExpiredWalk) (X : Nat → ExpirationSet) : Prop where
  untouched : ∀ j, j ∉ done → w.partitions.get? j = d.partitions.get? j
  partition : ∀ j p, w.partitions.get? j = some p → Partition.Inv sectorSize quant info p
  sectors : ∀ j, (w.partitions.get? j).map Partition.sectors = (d.partitions.get? j).map Partition.sectors
  /-- What expired in a partition was live there, on time or early. -/
  popped : ∀ j ∈ done, ∃ p, d.partitions.get? j = some p ∧ (X j).sectors ⊆ p.liveSectors ∧
    Disjoint (X j).onTimeSectors (X j).earlySectors
  onTimeSectors : w.onTimeSectors = done.map fun j => (X j).onTimeSectors
  earlySectors : w.earlySectors = done.map fun j => (X j).earlySectors
  liveSectors : (w.partitions.sumBy fun _ p => p.liveSectors.card) + (done.map fun j => (X j).len).sum =
    d.partitions.sumBy fun _ p => p.liveSectors.card
  faultyPower : (w.partitions.sumBy fun _ p => p.faultyPower) + w.allFaultyPower =
    d.partitions.sumBy fun _ p => p.faultyPower
  livePower : (w.partitions.sumBy fun _ p => p.livePower) + w.allFaultyPower + w.allActivePower =
    d.partitions.sumBy fun _ p => p.livePower
  withEarly_done : ∀ j ∈ w.partitionsWithEarlyTerminations, j ∈ done
  early : ∀ j, (∃ p, w.partitions.get? j = some p ∧ 0 < p.earlyTerminated.count) ↔
    (∃ p, d.partitions.get? j = some p ∧ 0 < p.earlyTerminated.count) ∨
      j ∈ w.partitionsWithEarlyTerminations

theorem expiredDone_init (hI : Inv sectorSize quant info d) (X : Nat → ExpirationSet) :
    ExpiredDone sectorSize quant info d [] ⟨d.partitions, [], [], 0, 0, 0, 0, []⟩ X where
  untouched _ _ := rfl
  partition := hI.partition
  sectors _ := rfl
  popped _ h := absurd h List.not_mem_nil
  onTimeSectors := rfl
  earlySectors := rfl
  liveSectors := by simp
  faultyPower := add_zero _
  livePower := by simp
  withEarly_done _ h := absurd h List.not_mem_nil
  early _ := by simp

/-- One partition of `pop_expired_sectors`: its expired sectors are popped and
gathered. -/
theorem ExpiredDone.step {done : List Nat} {w w' : ExpiredWalk} {X : Nat → ExpirationSet}
    (hT : ExpiredDone sectorSize quant info d done w X) {j : Nat} (hj : j ∉ done) {untilEpoch : Int}
    (h : expiredStep untilEpoch quant w j = .ok w') :
    ∃ x, ExpiredDone sectorSize quant info d (done ++ [j]) w' (Function.update X j x) := by
  cases hw : w.partitions.get? j with
  | none => simp [DeadlineState.expiredStep, hw] at h
  | some p =>
    simp only [DeadlineState.expiredStep, hw, Except.bind_eq_ok, Except.mapError_eq_ok,
      Except.pure_eq_ok] at h
    obtain ⟨_, rfl, ⟨p', x⟩, hpop, rfl⟩ := h
    have hd : d.partitions.get? j = some p := (hT.untouched j hj).symm.trans hw
    have hp := hT.partition j p hw
    obtain ⟨hsec, hlive, hsub, hdisj, hfaulty, hlivePower, hcount⟩ :=
      Partition.popExpiredSectors_delta hp hpop
    have hne : ∀ i ∈ done, i ≠ j := fun i hi h => hj (h ▸ hi)
    have hX : ∀ i ∈ done, Function.update X j x i = X i := fun i hi => Function.update_of_ne (hne i hi) _ _
    have hmapX : ∀ {β : Type} (g : ExpirationSet → β),
        (done ++ [j]).map (fun i => g (Function.update X j x i)) = done.map (fun i => g (X i)) ++ [g x] :=
      fun g => by
        rw [List.map_append, List.map_singleton, Function.update_self]
        exact congrArg (· ++ _) (List.map_congr_left fun i hi => by rw [hX i hi])
    have hget : ∀ i, (w.partitions.set j p').get? i = if i = j then some p' else w.partitions.get? i :=
      fun i => OrdMap.get?_set _ _ _ _
    have hjW : j ∉ w.partitionsWithEarlyTerminations := fun h => hj (hT.withEarly_done j h)
    refine ⟨x, fun i hi => ?_, fun i q hq => ?_, fun i => ?_, fun i hi => ?_, ?_, ?_, ?_, ?_, ?_,
      fun i hi => ?_, fun i => ?_⟩
    · obtain ⟨hid, hij⟩ : i ∉ done ∧ i ≠ j := by simpa using hi
      show (w.partitions.set j p').get? i = _
      rw [hget, if_neg hij]
      exact hT.untouched i hid
    · rw [hget] at hq
      split_ifs at hq
      · cases hq
        exact hp.popExpiredSectors hpop
      · exact hT.partition i q hq
    · show ((w.partitions.set j p').get? i).map _ = _
      rw [hget]
      split_ifs with hij
      · rw [hij, hd, Option.map_some, Option.map_some, hsec]
      · exact hT.sectors i
    · rcases List.mem_append.mp hi with hi | hi
      · rw [hX i hi]
        exact hT.popped i hi
      · rw [List.mem_singleton.mp hi, Function.update_self]
        exact ⟨p, hd, hsub, hdisj⟩
    · show w.onTimeSectors ++ [x.onTimeSectors] = _
      rw [hmapX, hT.onTimeSectors]
    · show w.earlySectors ++ [x.earlySectors] = _
      rw [hmapX, hT.earlySectors]
    · -- the partition lost the sectors that expired, which the walk gathered
      have hset := OrdMap.sumBy_set w.partitions (fun _ q => q.liveSectors.card) j p'
      rw [hw, Option.elim_some] at hset
      have hcard : p'.liveSectors.card + x.len = p.liveSectors.card := by
        rw [hlive, ExpirationSet.len_eq_card hdisj]
        exact Finset.card_sdiff_add_card_eq_card hsub
      have hold := hT.liveSectors
      show (w.partitions.set j p').sumBy (fun _ q => q.liveSectors.card) +
        ((done ++ [j]).map fun i => (Function.update X j x i).len).sum = _
      rw [hmapX ExpirationSet.len, List.sum_append, List.sum_singleton]
      omega
    · show (w.partitions.set j p').sumBy _ + (w.allFaultyPower + x.faultyPower) = _
      rw [OrdMap.sumBy_set_of_get? hw, hfaulty, ← hT.faultyPower]
      abel
    · show (w.partitions.set j p').sumBy _ + (w.allFaultyPower + x.faultyPower) +
        (w.allActivePower + x.activePower) = _
      rw [OrdMap.sumBy_set_of_get? hw, hlivePower, ← hT.livePower]
      abel
    · change i ∈ (if x.earlySectors ≠ ∅ then w.partitionsWithEarlyTerminations ++ [j]
        else w.partitionsWithEarlyTerminations) at hi
      split_ifs at hi
      · rcases List.mem_append.mp hi with hi | hi
        · exact List.mem_append_left _ (hT.withEarly_done i hi)
        · exact List.mem_append_right _ hi
      · exact List.mem_append_left _ (hT.withEarly_done i hi)
    · show (∃ q, (w.partitions.set j p').get? i = some q ∧ _) ↔ _ ∨
        i ∈ (if x.earlySectors ≠ ∅ then w.partitionsWithEarlyTerminations ++ [j]
          else w.partitionsWithEarlyTerminations)
      rw [hget]
      by_cases hij : i = j
      · subst hij
        by_cases hx : x.earlySectors = ∅ <;> simp [hd, hcount, hx, hjW]
      · rw [if_neg hij, hT.early i]
        split_ifs <;> simp [hij]

/-- Sectors gathered from partitions with distinct sectors: the union counts
each one once. -/
theorem card_foldl_union : ∀ (l : List (Finset Nat)) (acc : Finset Nat), l.Pairwise Disjoint →
    (∀ s ∈ l, Disjoint acc s) → (l.foldl (· ∪ ·) acc).card = acc.card + (l.map Finset.card).sum
  | [], acc, _, _ => by simp
  | s :: rest, acc, hpw, hacc => by
    obtain ⟨hs, hrest⟩ := List.pairwise_cons.mp hpw
    rw [List.foldl_cons, card_foldl_union rest (acc ∪ s) hrest fun t ht =>
        Finset.disjoint_union_left.mpr ⟨hacc t (List.mem_cons_of_mem _ ht), hs t ht⟩,
      Finset.card_union_of_disjoint (hacc s List.mem_cons_self), List.map_cons, List.sum_cons]
    omega

/-- **Expiring sectors** keeps the invariant: the partitions queued up to the
epoch lose their expired sectors, and the deadline's totals lose them too. -/
theorem Inv.popExpiredSectors (hI : Inv sectorSize quant info d) {untilEpoch : Int}
    {expired : ExpirationSet} (h : d.popExpiredSectors untilEpoch quant = .ok (d', expired)) :
    Inv sectorSize quant info d' := by
  simp only [DeadlineState.popExpiredSectors, Except.bind_eq_ok] at h
  obtain ⟨⟨d₁, parts, modified⟩, hpart, h⟩ := h
  -- popping the queue of partitions touches nothing the invariant reads
  have hI₁ : Inv sectorSize quant info d₁ := by
    simp only [DeadlineState.popExpiredPartitions, Except.bind_eq_ok, Except.mapError_eq_ok,
      Except.pure_eq_ok] at hpart
    obtain ⟨_, -, hpart⟩ := hpart
    obtain ⟨rfl, -, -⟩ := Prod.mk.inj hpart.symm
    split_ifs
    · exact hI.of_eq rfl rfl rfl rfl rfl rfl
    · exact hI
  cases modified with
  | false =>
    simp only [Bool.not_false, if_true, Except.pure_eq_ok, Prod.mk.injEq] at h
    rw [← h.1]
    exact hI₁
  | true =>
    simp only [Bool.not_true, Bool.false_eq_true, if_false, Except.bind_eq_ok, subU64_eq_ok,
      Except.pure_eq_ok] at h
    obtain ⟨w, hw, live, ⟨hle, rfl⟩, h⟩ := h
    obtain ⟨rfl, -⟩ := Prod.mk.inj h.symm
    set L := parts.sort (· ≤ ·) with hL
    have hnd : L.Nodup := Finset.sort_nodup _ _
    obtain ⟨-, X, hT⟩ := Loop.foldlM_inv
      (fun w done rest => done ++ rest = L ∧ ∃ X, ExpiredDone sectorSize quant info d₁ done w X)
      (fun _ _ _ _ _ hacc hstep => by
        obtain ⟨hdr, X, hT⟩ := hacc
        obtain ⟨x, hx⟩ := hT.step (Loop.notMem_prefix hnd hdr) hstep
        exact ⟨by rw [List.append_assoc]; exact hdr, _, hx⟩)
      L [] _ w ⟨rfl, fun _ => ExpirationSet.empty, expiredDone_init hI₁ _⟩ hw
    rw [List.nil_append] at hT
    obtain ⟨hseq, hdisj⟩ := hI₁.sequential_disjoint_of_sectors hT.sectors
    -- what expired in distinct partitions is distinct, so the unions count it once
    have hsep : ∀ i ∈ L, ∀ j ∈ L, i ≠ j → Disjoint (X i).sectors (X j).sectors := by
      intro i hi j hj hij
      obtain ⟨p, hp, hsubp, -⟩ := hT.popped i hi
      obtain ⟨q, hq, hsubq, -⟩ := hT.popped j hj
      exact (hI₁.disjoint i j p q hp hq hij).mono (hsubp.trans (Partition.liveSectors_subset p))
        (hsubq.trans (Partition.liveSectors_subset q))
    have hunion : ∀ g : ExpirationSet → Finset Nat, (∀ e, g e ⊆ e.sectors) →
        ((L.map fun j => g (X j)).foldl (· ∪ ·) ∅).card = (L.map fun j => (g (X j)).card).sum :=
      fun g hg => by
        rw [card_foldl_union _ _ ?_ fun _ _ => Finset.disjoint_empty_left _, Finset.card_empty,
          zero_add, List.map_map]
        · rfl
        · exact List.pairwise_map.mpr (hnd.imp_of_mem fun hi hj hij =>
            (hsep _ hi _ hj hij).mono (hg _) (hg _))
    have hlen : (L.map fun j => (X j).len).sum =
        (L.map fun j => (X j).onTimeSectors.card).sum + (L.map fun j => (X j).earlySectors.card).sum := by
      rw [← List.sum_map_add]
      rfl
    have hon := hunion ExpirationSet.onTimeSectors fun _ => Finset.subset_union_left
    have hea := hunion ExpirationSet.earlySectors fun _ => Finset.subset_union_right
    rw [← hT.onTimeSectors] at hon
    rw [← hT.earlySectors] at hea
    refine ⟨hT.partition, hseq, hdisj, ?_, ?_, ?_, ?_, fun j => ?_⟩
    · show d₁.liveSectors - _ = w.partitions.sumBy fun _ p => p.liveSectors.card
      have := hT.liveSectors
      rw [hon, hea, hI₁.liveSectors]
      omega
    · show d₁.totalSectors = w.partitions.sumBy fun _ p => p.sectors.card
      rw [hI₁.totalSectors]
      refine (OrdMap.sumBy_congr_map fun j => ?_).symm
      simpa only [Option.map_map, Function.comp_def] using
        congrArg (Option.map Finset.card) (hT.sectors j)
    · show d₁.faultyPower - w.allFaultyPower = _
      rw [hI₁.faultyPower, ← hT.faultyPower]
      abel
    · show d₁.livePower - w.allFaultyPower - w.allActivePower = _
      rw [hI₁.livePower, ← hT.livePower]
      abel
    · show j ∈ d₁.earlyTerminations ∪ w.partitionsWithEarlyTerminations.toFinset ↔ _
      rw [Finset.mem_union, List.mem_toFinset, hT.early j, hI₁.early j]

end Preservation

end DeadlineState

end BuiltinActors.Miner
