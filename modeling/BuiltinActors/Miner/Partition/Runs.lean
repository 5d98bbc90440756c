import BuiltinActors.Miner.Partition.Inv

/-! # The partition over runs

A partition changes only through the methods its deadline calls, one at a
time. The caller decides which sector infos a method loads, so a partition is
tracked together with the infos of its sectors (`Tracked`). `add_sectors` and
`replace_sectors` supply the infos of the sectors they add. A call's
precondition (`Call.Pre`) says that what the caller passes agrees with the
tracked infos.

Each call also reports a change of active power, the amount the deadline adds
to the power it claims:
- the power delta of a fault declaration, of skipped faults and of a missed proof;
- the power recovered or activated;
- the power delta of a replacement;
- minus the active power of the sectors terminated or expired.

`add_sectors` reports its sectors' power only when they are added proven. The
miner adds sectors unproven and ignores that power, which counts once
`activate_unproven` runs.

Along every run from a new partition the invariant of `Partition/Inv.lean`
holds, so the checks of `validate_state` never fail, and the power claimed is
exactly the power of the active sectors. -/

namespace BuiltinActors.Miner

open ExpirationQueue BuiltinActors.Miner.Partition

/-- A partition with the infos of its sectors. -/
structure Tracked where
  partition : Partition
  info : Nat → SectorOnChainInfo

/-- The methods a deadline calls on one of its partitions, with their
arguments. -/
inductive Call where
  | addSectors (proven : Bool) (sectors : List SectorOnChainInfo)
  | recordFaults (sectors : OrdMap Nat SectorOnChainInfo) (sectorNumbers : Finset Nat)
      (faultExpirationEpoch : Int)
  | recordSkippedFaults (sectors : OrdMap Nat SectorOnChainInfo) (faultExpiration : Int)
      (skipped : Finset Nat)
  | recoverFaults (sectors : OrdMap Nat SectorOnChainInfo)
  | activateUnproven
  | declareFaultsRecovered (sectors : OrdMap Nat SectorOnChainInfo) (sectorNumbers : Finset Nat)
  | rescheduleExpirations (sectors : OrdMap Nat SectorOnChainInfo) (newExpiration : Int)
      (sectorNumbers : Finset Nat)
  | replaceSectors (oldSectors newSectors : List SectorOnChainInfo)
  | terminateSectors (addressedSectorsMax : Nat) (sectors : OrdMap Nat SectorOnChainInfo)
      (epoch : Int) (sectorNumbers : Finset Nat)
  | popExpiredSectors (untilEpoch : Int)
  | recordMissedPost (faultExpiration : Int)
  | popEarlyTerminations (maxSectors : Nat)

namespace Call

variable (sectorSize : Nat) (quant : QuantSpec)

/-- A call on a tracked partition, with the change of active power it
reports. -/
def apply : Call → Tracked → Except String (Tracked × PowerPair)
  | addSectors proven sectors, t => do
    let (p, power, _) ← t.partition.addSectors proven sectors sectorSize quant
    pure (⟨p, overrideInfos t.info sectors⟩, if proven then power else 0)
  | recordFaults sectors sectorNumbers faultExpirationEpoch, t => do
    let (p, _, powerDelta, _) ←
      t.partition.recordFaults sectors sectorNumbers faultExpirationEpoch sectorSize quant
    pure (⟨p, t.info⟩, powerDelta)
  | recordSkippedFaults sectors faultExpiration skipped, t => do
    let (p, powerDelta, _) ←
      t.partition.recordSkippedFaults sectors sectorSize quant faultExpiration skipped
    pure (⟨p, t.info⟩, powerDelta)
  | recoverFaults sectors, t => do
    let (p, recoveredPower) ← t.partition.recoverFaults sectors sectorSize quant
    pure (⟨p, t.info⟩, recoveredPower)
  | activateUnproven, t =>
    let (p, activatedPower) := t.partition.activateUnproven
    pure (⟨p, t.info⟩, activatedPower)
  | declareFaultsRecovered sectors sectorNumbers, t => do
    let p ← t.partition.declareFaultsRecovered sectors sectorSize sectorNumbers
    pure (⟨p, t.info⟩, 0)
  | rescheduleExpirations sectors newExpiration sectorNumbers, t => do
    let (p, _) ← t.partition.rescheduleExpirations sectors newExpiration sectorNumbers sectorSize quant
    pure (⟨p, t.info⟩, 0)
  | replaceSectors oldSectors newSectors, t => do
    let (p, powerDelta, _) ← t.partition.replaceSectors oldSectors newSectors sectorSize quant
    pure (⟨p, overrideInfos t.info newSectors⟩, powerDelta)
  | terminateSectors addressedSectorsMax sectors epoch sectorNumbers, t => do
    let (p, removed, _) ← t.partition.terminateSectors addressedSectorsMax sectors epoch
      sectorNumbers sectorSize quant
    pure (⟨p, t.info⟩, -removed.activePower)
  | popExpiredSectors untilEpoch, t => do
    let (p, popped) ← t.partition.popExpiredSectors untilEpoch quant
    pure (⟨p, t.info⟩, -popped.activePower)
  | recordMissedPost faultExpiration, t => do
    let (p, powerDelta, _) ← t.partition.recordMissedPost faultExpiration quant
    pure (⟨p, t.info⟩, powerDelta)
  | popEarlyTerminations maxSectors, t => do
    let (p, _) ← t.partition.popEarlyTerminations maxSectors
    pure (⟨p, t.info⟩, 0)

/-- What the caller guarantees. A sectors AMT it passes holds the tracked
infos of the live sectors. Sectors it adds are listed once. Sectors it
replaces come with their tracked infos, and their replacements are listed
once, with numbers that are either the old ones or not in the partition. -/
def Pre : Call → Tracked → Prop
  | addSectors _ sectors, _ => (sectors.map SectorOnChainInfo.sectorNumber).Nodup
  | recordFaults sectors _ _, t => SectorsAgree sectors t.info t.partition
  | recordSkippedFaults sectors _ _, t => SectorsAgree sectors t.info t.partition
  | recoverFaults sectors, t => SectorsAgree sectors t.info t.partition
  | declareFaultsRecovered sectors _, t => SectorsAgree sectors t.info t.partition
  | rescheduleExpirations sectors _ _, t => SectorsAgree sectors t.info t.partition
  | terminateSectors _ sectors _ _, t => SectorsAgree sectors t.info t.partition
  | replaceSectors oldSectors newSectors, t => InfosAgree t.info oldSectors ∧
      (newSectors.map SectorOnChainInfo.sectorNumber).Nodup ∧
      Disjoint (numbers newSectors) (t.partition.sectors \ numbers oldSectors)
  | activateUnproven, _ => True
  | popExpiredSectors _, _ => True
  | recordMissedPost _, _ => True
  | popEarlyTerminations _, _ => True

end Call

/-- The tracked partitions of every run from a new partition, with the power
claimed for it, which is the sum of the changes of active power its calls
reported. -/
inductive Reachable (sectorSize : Nat) (quant : QuantSpec) : Tracked → PowerPair → Prop
  | new (info : Nat → SectorOnChainInfo) : Reachable sectorSize quant ⟨Partition.new, info⟩ 0
  | step {t t' : Tracked} {claimed delta : PowerPair} {c : Call} :
      Reachable sectorSize quant t claimed → c.Pre t →
      c.apply sectorSize quant t = .ok (t', delta) →
      Reachable sectorSize quant t' (claimed + delta)

/-! ## Active power

What each method does to the active power, read off the power totals it
updates. No invariant is needed for this. -/

namespace Partition

section ActivePower

variable {sectorSize : Nat} {quant : QuantSpec} {p p' : Partition}

theorem addSectors_activePower {proven : Bool} {sectors : List SectorOnChainInfo}
    {power : PowerPair} {fee : Int}
    (h : p.addSectors proven sectors sectorSize quant = .ok (p', power, fee)) :
    p'.activePower = p.activePower + if proven then power else 0 := by
  simp only [Partition.addSectors, Except.bind_eq_ok, Except.mapError_eq_ok, Except.throw_bind,
    Except.ite_throw_eq_ok, Except.pure_eq_ok] at h
  obtain ⟨⟨q₁, added, pw, pl, df⟩, -, -, _, -, h⟩ := h
  dsimp only at h
  simp only [Prod.mk.injEq] at h
  obtain ⟨rfl, rfl, -⟩ := h
  -- unproven sectors bring their power to the unproven total as well
  cases proven
  · simp only [activePower, Bool.not_false, Bool.false_eq_true, ↓reduceIte]
    abel
  · simp only [activePower, Bool.not_true, Bool.false_eq_true, ↓reduceIte]
    abel

theorem addFaults_activePower {S : Finset Nat} {sectors : List SectorOnChainInfo}
    {faultExpiration : Int} {powerDelta newFaultyPower : PowerPair}
    (h : p.addFaults S sectors faultExpiration sectorSize quant =
      .ok (p', powerDelta, newFaultyPower)) :
    p'.activePower = p.activePower + powerDelta := by
  simp only [addFaults, Except.bind_eq_ok, Except.mapError_eq_ok, Except.pure_eq_ok] at h
  obtain ⟨⟨q₁, nfp⟩, -, L, -, _, -, h⟩ := h
  -- the unproven power changes only when some of the sectors were unproven
  cases hE : L.isEmpty with
  | true =>
    simp only [hE, Bool.not_true, Bool.false_eq_true, if_false, Prod.mk.injEq] at h
    obtain ⟨rfl, rfl, rfl⟩ := h
    simp only [activePower]
    abel
  | false =>
    simp only [hE, Bool.not_false, if_true, Prod.mk.injEq] at h
    obtain ⟨rfl, rfl, rfl⟩ := h
    simp only [activePower]
    abel

@[simp] theorem removeRecoveries_activePower (R : Finset Nat) (power : PowerPair) :
    (p.removeRecoveries R power).activePower = p.activePower := by
  unfold removeRecoveries
  split_ifs <;> rfl

theorem recordFaults_activePower {sectors : OrdMap Nat SectorOnChainInfo}
    {sectorNumbers : Finset Nat} {faultExpirationEpoch : Int}
    {r : Finset Nat × PowerPair × PowerPair}
    (h : p.recordFaults sectors sectorNumbers faultExpirationEpoch sectorSize quant = .ok (p', r)) :
    p'.activePower = p.activePower + r.2.1 := by
  simp only [Partition.recordFaults, Except.bind_eq_ok, Except.mapError_eq_ok,
    Except.pure_eq_ok] at h
  obtain ⟨_, -, L, -, ⟨p₁, pd, nfp⟩, hadd, L₂, -, _, -, h⟩ := h
  obtain ⟨rfl, rfl⟩ := Prod.mk.inj h
  -- faults are added only when some are new
  have h₁ : p₁.activePower = p.activePower + pd := by
    split_ifs at hadd
    · exact addFaults_activePower (Except.mapError_eq_ok.mp hadd)
    · simp only [Except.pure_eq_ok, Prod.mk.injEq] at hadd
      obtain ⟨rfl, rfl, -⟩ := hadd
      simp
  split_ifs <;> simp [h₁]

theorem recordSkippedFaults_activePower {sectors : OrdMap Nat SectorOnChainInfo}
    {faultExpiration : Int} {skipped : Finset Nat} {r : PowerPair × PowerPair × PowerPair × Bool}
    (h : p.recordSkippedFaults sectors sectorSize quant faultExpiration skipped = .ok (p', r)) :
    p'.activePower = p.activePower + r.1 := by
  unfold Partition.recordSkippedFaults at h
  by_cases h0 : skipped = ∅
  · rw [if_pos h0, Except.ok.injEq] at h
    obtain ⟨rfl, rfl⟩ := Prod.mk.inj h
    simp
  rw [if_neg h0] at h
  simp only [Except.bind_eq_ok, Except.mapError_eq_ok, Except.pure_eq_ok, Except.throw_bind,
    Except.ite_throw_eq_ok] at h
  obtain ⟨-, L₂, -, L, -, ⟨p₁, pd, nfp⟩, hadd, _, -, h⟩ := h
  obtain ⟨rfl, rfl⟩ := Prod.mk.inj h
  rw [removeRecoveries_activePower, addFaults_activePower hadd]

theorem recoverFaults_activePower {sectors : OrdMap Nat SectorOnChainInfo} {power : PowerPair}
    (h : p.recoverFaults sectors sectorSize quant = .ok (p', power)) :
    p'.activePower = p.activePower + power := by
  simp only [Partition.recoverFaults, Except.bind_eq_ok, Except.mapError_eq_ok,
    Except.pure_eq_ok] at h
  obtain ⟨L, -, ⟨q₁, pw⟩, -, _, -, h⟩ := h
  obtain ⟨rfl, rfl⟩ := Prod.mk.inj h
  simp only [activePower]
  abel

theorem activateUnproven_activePower :
    p.activateUnproven.1.activePower = p.activePower + p.activateUnproven.2 := by
  simp only [activateUnproven, activePower]
  abel

theorem declareFaultsRecovered_activePower {sectors : OrdMap Nat SectorOnChainInfo}
    {sectorNumbers : Finset Nat}
    (h : p.declareFaultsRecovered sectors sectorSize sectorNumbers = .ok p') :
    p'.activePower = p.activePower := by
  simp only [Partition.declareFaultsRecovered, Except.bind_eq_ok, Except.mapError_eq_ok,
    Except.pure_eq_ok] at h
  obtain ⟨_, -, L, -, _, -, rfl⟩ := h
  rfl

theorem rescheduleExpirations_activePower {sectors : OrdMap Nat SectorOnChainInfo}
    {newExpiration : Int} {sectorNumbers : Finset Nat} {infos : List SectorOnChainInfo}
    (h : p.rescheduleExpirations sectors newExpiration sectorNumbers sectorSize quant =
      .ok (p', infos)) :
    p'.activePower = p.activePower := by
  simp only [Partition.rescheduleExpirations, Except.bind_eq_ok, Except.pure_eq_ok] at h
  obtain ⟨L, -, q₁, -, _, -, h⟩ := h
  obtain ⟨rfl, -⟩ := Prod.mk.inj h
  rfl

theorem replaceSectors_activePower {oldSectors newSectors : List SectorOnChainInfo}
    {r : PowerPair × Int × Int}
    (h : p.replaceSectors oldSectors newSectors sectorSize quant = .ok (p', r)) :
    p'.activePower = p.activePower + r.1 := by
  simp only [Partition.replaceSectors, Except.bind_eq_ok, Except.mapError_eq_ok,
    Except.throw_bind, Except.ite_throw_eq_ok, Except.pure_eq_ok] at h
  obtain ⟨⟨q₁, oldN, newN, pd, pld, fd⟩, -, -, _, -, h⟩ := h
  obtain ⟨rfl, rfl⟩ := Prod.mk.inj h
  simp only [activePower]
  abel

theorem recordEarlyTermination_eq {epoch : Int} {S : Finset Nat}
    (h : p.recordEarlyTermination epoch S = .ok p') :
    ∃ amt, p' = { p with earlyTerminated := amt } := by
  simp only [recordEarlyTermination, Except.bind_eq_ok, Except.mapError_eq_ok,
    Except.pure_eq_ok] at h
  obtain ⟨q', -, rfl⟩ := h
  exact ⟨_, rfl⟩

/-- Terminated sectors take away the active power that the method returns
with them, unproven ones excluded. -/
theorem terminateSectors_activePower {addressedSectorsMax : Nat}
    {sectors : OrdMap Nat SectorOnChainInfo} {epoch : Int} {sectorNumbers : Finset Nat}
    {removed : ExpirationSet} {removedUnprovenPower : PowerPair}
    (h : p.terminateSectors addressedSectorsMax sectors epoch sectorNumbers sectorSize quant =
      .ok (p', removed, removedUnprovenPower)) :
    p'.activePower = p.activePower - removed.activePower := by
  simp only [Partition.terminateSectors, Except.bind_eq_ok, Except.mapError_eq_ok,
    Except.throw_bind, Except.ite_throw_eq_ok, Except.pure_eq_ok] at h
  obtain ⟨-, L, -, ⟨q₁, rm, rr⟩, -, p₂, hrec, L', -, _, -, h⟩ := h
  simp only [Prod.mk.injEq] at h
  obtain ⟨rfl, rfl, -⟩ := h
  obtain ⟨amt, rfl⟩ := recordEarlyTermination_eq hrec
  simp only [activePower]
  abel

theorem popExpiredSectors_activePower {untilEpoch : Int} {popped : ExpirationSet}
    (h : p.popExpiredSectors untilEpoch quant = .ok (p', popped)) :
    p'.activePower = p.activePower - popped.activePower := by
  simp only [Partition.popExpiredSectors, Except.bind_eq_ok, Except.mapError_eq_ok,
    Except.throw_bind, Except.ite_throw_eq_ok, Except.pure_eq_ok] at h
  obtain ⟨-, ⟨q₁, pp⟩, -, -, -, -, p₂, hrec, _, -, h⟩ := h
  obtain ⟨rfl, rfl⟩ := Prod.mk.inj h
  obtain ⟨amt, rfl⟩ := recordEarlyTermination_eq hrec
  simp only [activePower]
  abel

/-- After a missed proof no power is active: the power delta takes all of it. -/
theorem recordMissedPost_activePower {faultExpiration : Int}
    {r : PowerPair × PowerPair × PowerPair}
    (h : p.recordMissedPost faultExpiration quant = .ok (p', r)) :
    p'.activePower = p.activePower + r.1 := by
  simp only [Partition.recordMissedPost, Except.bind_eq_ok, Except.mapError_eq_ok,
    Except.pure_eq_ok] at h
  obtain ⟨q₁, -, _, -, h⟩ := h
  obtain ⟨rfl, rfl⟩ := Prod.mk.inj h
  simp only [activePower]
  abel

theorem popEarlyTerminations_activePower {maxSectors : Nat} {r : TerminationResult × Bool}
    (h : p.popEarlyTerminations maxSectors = .ok (p', r)) : p'.activePower = p.activePower := by
  simp only [Partition.popEarlyTerminations, Except.bind_eq_ok, Except.mapError_eq_ok,
    Except.pure_eq_ok] at h
  obtain ⟨walk, -, amt, -, _, -, h⟩ := h
  obtain ⟨rfl, -⟩ := Prod.mk.inj h
  rfl

end ActivePower

end Partition

/-! ## One call -/

namespace Call

variable {sectorSize : Nat} {quant : QuantSpec}

/-- Every call, under its precondition, keeps the invariant. -/
theorem inv {c : Call} {t t' : Tracked} {delta : PowerPair}
    (hI : Inv sectorSize quant t.info t.partition) (hpre : c.Pre t)
    (h : c.apply sectorSize quant t = .ok (t', delta)) :
    Inv sectorSize quant t'.info t'.partition := by
  cases c <;> simp only [apply, Except.bind_eq_ok, Except.pure_eq_ok, Prod.mk.injEq] at h
  case addSectors =>
    obtain ⟨a, hp, rfl, -⟩ := h
    exact (hI.addSectors hpre hp).1
  case recordFaults =>
    obtain ⟨a, hp, rfl, -⟩ := h
    exact hI.recordFaults hpre hp
  case recordSkippedFaults =>
    obtain ⟨a, hp, rfl, -⟩ := h
    exact hI.recordSkippedFaults hpre hp
  case recoverFaults =>
    obtain ⟨a, hp, rfl, -⟩ := h
    exact (hI.recoverFaults hpre hp).1
  case activateUnproven =>
    obtain ⟨rfl, -⟩ := h
    exact hI.activateUnproven
  case declareFaultsRecovered =>
    obtain ⟨a, hp, rfl, -⟩ := h
    exact hI.declareFaultsRecovered hpre hp
  case rescheduleExpirations =>
    obtain ⟨a, hp, rfl, -⟩ := h
    exact hI.rescheduleExpirations hpre hp
  case replaceSectors =>
    obtain ⟨a, hp, rfl, -⟩ := h
    exact hI.replaceSectors hpre.1 hpre.2.1 hpre.2.2 hp
  case terminateSectors =>
    obtain ⟨a, hp, rfl, -⟩ := h
    exact hI.terminateSectors hpre hp
  case popExpiredSectors =>
    obtain ⟨a, hp, rfl, -⟩ := h
    exact hI.popExpiredSectors hp
  case recordMissedPost =>
    obtain ⟨a, hp, rfl, -⟩ := h
    exact hI.recordMissedPost hp
  case popEarlyTerminations =>
    obtain ⟨a, hp, rfl, -⟩ := h
    exact hI.popEarlyTerminations hp

/-- Every call changes the active power by what it reports. -/
theorem activePower_apply {c : Call} {t t' : Tracked} {delta : PowerPair}
    (h : c.apply sectorSize quant t = .ok (t', delta)) :
    t'.partition.activePower = t.partition.activePower + delta := by
  cases c <;> simp only [apply, Except.bind_eq_ok, Except.pure_eq_ok, Prod.mk.injEq] at h
  case addSectors =>
    obtain ⟨a, hp, rfl, rfl⟩ := h
    exact addSectors_activePower hp
  case recordFaults =>
    obtain ⟨a, hp, rfl, rfl⟩ := h
    exact recordFaults_activePower hp
  case recordSkippedFaults =>
    obtain ⟨a, hp, rfl, rfl⟩ := h
    exact recordSkippedFaults_activePower hp
  case recoverFaults =>
    obtain ⟨a, hp, rfl, rfl⟩ := h
    exact recoverFaults_activePower hp
  case activateUnproven =>
    obtain ⟨rfl, rfl⟩ := h
    exact activateUnproven_activePower
  case declareFaultsRecovered =>
    obtain ⟨a, hp, rfl, rfl⟩ := h
    rw [declareFaultsRecovered_activePower hp, add_zero]
  case rescheduleExpirations =>
    obtain ⟨a, hp, rfl, rfl⟩ := h
    rw [rescheduleExpirations_activePower hp, add_zero]
  case replaceSectors =>
    obtain ⟨a, hp, rfl, rfl⟩ := h
    exact replaceSectors_activePower hp
  case terminateSectors =>
    obtain ⟨a, hp, rfl, rfl⟩ := h
    rw [terminateSectors_activePower hp, sub_eq_add_neg]
  case popExpiredSectors =>
    obtain ⟨a, hp, rfl, rfl⟩ := h
    rw [popExpiredSectors_activePower hp, sub_eq_add_neg]
  case recordMissedPost =>
    obtain ⟨a, hp, rfl, rfl⟩ := h
    exact recordMissedPost_activePower hp
  case popEarlyTerminations =>
    obtain ⟨a, hp, rfl, rfl⟩ := h
    rw [popEarlyTerminations_activePower hp, add_zero]

end Call

/-! ## Runs -/

namespace Reachable

variable {sectorSize : Nat} {quant : QuantSpec} {t : Tracked} {claimed : PowerPair}

/-- Every tracked partition of a run satisfies the invariant. -/
theorem inv (hu : 0 < quant.unit) (h : Reachable sectorSize quant t claimed) :
    Inv sectorSize quant t.info t.partition := by
  induction h with
  | new info => exact inv_new hu
  | step _ hpre hstep ih => exact Call.inv ih hpre hstep

/-- The power claimed along a run is the partition's active power. -/
theorem claimed_eq (h : Reachable sectorSize quant t claimed) :
    claimed = t.partition.activePower := by
  induction h with
  | new info => simp [activePower, Partition.new]
  | step _ _ hstep ih => rw [Call.activePower_apply hstep, ih]

end Reachable

section Runs

variable {sectorSize : Nat} {quant : QuantSpec} {t : Tracked} {claimed : PowerPair}

end Runs

end BuiltinActors.Miner
