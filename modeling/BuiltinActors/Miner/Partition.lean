import BuiltinActors.Miner.BitFieldQueue
import BuiltinActors.Miner.ExpirationQueue.Spec

/-! # A partition of a deadline

A partition tracks a set of sectors through their lives: new sectors may be
unproven; sectors turn faulty, are declared recovering and recover; they
expire or are terminated, and the terminated ones wait in the early
termination queue for their fees. The expiration queue records when each live
sector expires, and four power totals are kept beside the bitfields.

The AMTs are those of the queue models, held as their key-ordered maps; the
sectors AMT of the miner, which the methods read, is a map from numbers to
infos. A method that fails leaves nothing: its writes are discarded with the
message that aborts it, so each method returns the new partition with its
results only on success. Loading an AMT from the store and flushing it never
fail here. Error texts keep the source's words; the debug renderings of
bitfields in them are left out. -/

namespace BuiltinActors.Miner

/-! ## Reading sectors -/

/-- The infos of the given sectors, in increasing order of number, as
`Sectors::load_sectors` iterates a bitfield. -/
def loadSectors (sectors : OrdMap Nat SectorOnChainInfo) (sectorNumbers : Finset Nat) :
    Except String (List SectorOnChainInfo) :=
  (sectorNumbers.sort (· ≤ ·)).mapM fun sectorNumber =>
    match sectors.get? sectorNumber with
    | some sectorOnChain => .ok sectorOnChain
    | none => .error s!"sector not found: {sectorNumber}"

/-- One sector of `select_sectors`: taken if its number is still to include,
which it then no longer is. -/
def selectStep (acc : Finset Nat × List SectorOnChainInfo) (si : SectorOnChainInfo) :
    Finset Nat × List SectorOnChainInfo :=
  let (toInclude, included) := acc
  if si.sectorNumber ∈ toInclude then (toInclude.erase si.sectorNumber, included ++ [si])
  else (toInclude, included)

/-- The sectors of the list whose numbers are in `field`, each taken once, in
the list's order; all of `field` must be found. -/
def selectSectors (sectors : List SectorOnChainInfo) (field : Finset Nat) :
    Except String (List SectorOnChainInfo) :=
  let (toInclude, included) := sectors.foldl selectStep (field, [])
  if toInclude ≠ ∅ then
    let missing := toInclude.card
    .error s!"failed to find {missing} expected sectors"
  else .ok included

/-! ## The partition -/

structure Partition where
  /-- Sector numbers in this partition, including faulty, unproven and terminated sectors. -/
  sectors : Finset Nat
  unproven : Finset Nat
  faults : Finset Nat
  recoveries : Finset Nat
  terminated : Finset Nat
  /-- The expiration queue's AMT, keyed by quantized epoch. -/
  expirationsEpochs : OrdMap Int ExpirationSet
  /-- The early termination queue's AMT, not quantized. -/
  earlyTerminated : OrdMap Nat (Finset Nat)
  livePower : PowerPair
  unprovenPower : PowerPair
  faultyPower : PowerPair
  recoveringPower : PowerPair

/-- What `Partition::pop_early_terminations` returns: the sectors processed by
termination epoch, and how many partitions and sectors were processed. -/
structure TerminationResult where
  sectors : OrdMap Int (Finset Nat)
  partitionsProcessed : Nat
  sectorsProcessed : Nat

def validatePartitionContainsSectors (partition : Partition) (sectors : Finset Nat) :
    Except String Unit :=
  if sectors ⊆ partition.sectors then .ok ()
  else .error "not all sectors are assigned to the partition"

namespace Partition

/-- A new partition, with empty queues. -/
def new : Partition := ⟨∅, ∅, ∅, ∅, ∅, OrdMap.empty, OrdMap.empty, 0, 0, 0, 0⟩

/-- Live sectors are those that are not terminated (but may be faulty). -/
def liveSectors (p : Partition) : Finset Nat := p.sectors \ p.terminated

/-- Active sectors are neither terminated nor faulty nor unproven. -/
def activeSectors (p : Partition) : Finset Nat := (p.liveSectors \ p.faults) \ p.unproven

/-- Active power is power of non-faulty sectors. -/
def activePower (p : Partition) : PowerPair := p.livePower - p.faultyPower - p.unprovenPower

/-- The expiration queue of the partition, with the deadline's quantization. -/
def expirationQueue (p : Partition) (quant : QuantSpec) : ExpirationQueue :=
  ⟨p.expirationsEpochs, quant⟩

/-- The early termination queue of the partition. -/
def earlyTerminationQueue (p : Partition) : BitFieldQueue := ⟨p.earlyTerminated, noQuantization⟩

def validatePowerState (p : Partition) : Except String Unit := do
  if p.livePower.raw < 0 ∨ p.livePower.qa < 0 then
    throw "Partition left with negative live power"
  if p.unprovenPower.raw < 0 ∨ p.unprovenPower.qa < 0 then
    throw "Partition left with negative unproven power"
  if p.faultyPower.raw < 0 ∨ p.faultyPower.qa < 0 then
    throw "Partition left with negative faulty power"
  if p.recoveringPower.raw < 0 ∨ p.recoveringPower.qa < 0 then
    throw "Partition left with negative recovering power"
  if p.unprovenPower.raw > p.livePower.raw then
    throw "Partition left with invalid unproven power"
  if p.faultyPower.raw > p.livePower.raw then
    throw "Partition left with invalid faulty power"
  if p.recoveringPower.raw > p.livePower.raw ∨ p.recoveringPower.raw > p.faultyPower.raw then
    throw "Partition left with invalid recovering power"

def validateBfState (p : Partition) : Except String Unit := do
  let merge := p.unproven ∪ p.faults
  -- unproven or faulty sectors should not be in terminated
  if p.terminated ∩ merge ≠ ∅ then
    throw "Partition left with terminated sectors in multiple states"
  let merge := merge ∪ p.terminated
  if ¬ merge ⊆ p.sectors then throw "Partition left with invalid sector state"
  if ¬ p.recoveries ⊆ p.faults then throw "Partition left with invalid recovery state"

def validateState (p : Partition) : Except String Unit := do
  p.validatePowerState
  p.validateBfState

/-! ## Adding sectors and faults -/

/-- Adds new sectors, live and neither faulty, recovering nor terminated, and
unproven unless `proven`. Returns their power and daily fee. -/
def addSectors (p : Partition) (proven : Bool) (sectors : List SectorOnChainInfo)
    (sectorSize : Nat) (quant : QuantSpec) : Except String (Partition × PowerPair × Int) := do
  let (expirations, sectorNumbers, power, _, dailyFee) ←
    ((p.expirationQueue quant).addActiveSectors sectors sectorSize).mapError
      (wrap "failed to record new sector expirations")
  let p := { p with expirationsEpochs := expirations.amt }
  if p.sectors ∩ sectorNumbers ≠ ∅ then throw "not all added sectors are new"
  let p := { p with sectors := p.sectors ∪ sectorNumbers, livePower := p.livePower + power }
  let p := if !proven then
      { p with unprovenPower := p.unprovenPower + power, unproven := p.unproven ∪ sectorNumbers }
    else p
  p.validateState
  return (p, power, dailyFee)

/-- Marks sectors faulty, given with their infos; they leave the unproven set.
Returns the power delta and the new faulty power. -/
def addFaults (p : Partition) (sectorNumbers : Finset Nat) (sectors : List SectorOnChainInfo)
    (faultExpiration : Int) (sectorSize : Nat) (quant : QuantSpec) :
    Except String (Partition × PowerPair × PowerPair) := do
  let (queue, newFaultyPower) ←
    ((p.expirationQueue quant).rescheduleAsFaults faultExpiration sectors sectorSize).mapError
      (wrap "failed to add faults to partition queue")
  let p := { p with
    expirationsEpochs := queue.amt
    faults := p.faults ∪ sectorNumbers
    faultyPower := p.faultyPower + newFaultyPower }
  -- once marked faulty, sectors are moved out of the unproven set
  let unproven := sectorNumbers ∩ p.unproven
  let p := { p with unproven := p.unproven \ unproven }
  let powerDelta := -newFaultyPower
  let unprovenInfos ← (selectSectors sectors unproven).mapError
    (wrap "failed to select unproven sectors")
  let (p, powerDelta) := if !unprovenInfos.isEmpty then
      let lostUnprovenPower := powerForSectors sectorSize unprovenInfos
      ({ p with unprovenPower := p.unprovenPower - lostUnprovenPower },
        powerDelta + lostUnprovenPower)
    else (p, powerDelta)
  p.validateState
  return (p, powerDelta, newFaultyPower)

/-- Removes sectors, assumed faulty and recovering, from the recoveries. -/
def removeRecoveries (p : Partition) (sectorNumbers : Finset Nat) (power : PowerPair) : Partition :=
  if sectorNumbers = ∅ then p
  else { p with recoveries := p.recoveries \ sectorNumbers, recoveringPower := p.recoveringPower - power }

/-- Declares sectors faulty: faulty ones are ignored, terminated ones skipped
and recovering ones reverted to faulty. Returns the new faults, the power
delta and the new faulty power. -/
def recordFaults (p : Partition) (sectors : OrdMap Nat SectorOnChainInfo)
    (sectorNumbers : Finset Nat) (faultExpirationEpoch : Int) (sectorSize : Nat)
    (quant : QuantSpec) : Except String (Partition × Finset Nat × PowerPair × PowerPair) := do
  (validatePartitionContainsSectors p sectorNumbers).mapError (wrap "failed fault declaration")
  -- declarations of new faults, and retractions of declared recoveries
  let retractedRecoveries := p.recoveries ∩ sectorNumbers
  let newFaults := sectorNumbers \ retractedRecoveries
  let newFaults := newFaults \ p.terminated
  let newFaults := newFaults \ p.faults
  let newFaultSectors ← (loadSectors sectors newFaults).mapError (wrap "failed to load fault sectors")
  let (p, powerDelta, newFaultyPower) ← (if !newFaultSectors.isEmpty then
      (p.addFaults newFaults newFaultSectors faultExpirationEpoch sectorSize quant).mapError
        (wrap "failed to add faults")
    else pure (p, 0, 0))
  let retractedRecoverySectors ← (loadSectors sectors retractedRecoveries).mapError
    (wrap "failed to load recovery sectors")
  let p := if !retractedRecoverySectors.isEmpty then
      p.removeRecoveries retractedRecoveries (powerForSectors sectorSize retractedRecoverySectors)
    else p
  p.validateState
  return (p, newFaults, powerDelta, newFaultyPower)

/-- Recovers the recovering sectors: they leave the faults and go back to
their declared expirations. Returns their power. -/
def recoverFaults (p : Partition) (sectors : OrdMap Nat SectorOnChainInfo) (sectorSize : Nat)
    (quant : QuantSpec) : Except String (Partition × PowerPair) := do
  let recoveredSectors ← (loadSectors sectors p.recoveries).mapError
    (wrap "failed to load recovered sectors")
  let (queue, power) ←
    ((p.expirationQueue quant).rescheduleRecovered recoveredSectors sectorSize).mapError
      (wrap "failed to reschedule faults in partition queue")
  let p := { p with
    expirationsEpochs := queue.amt
    faults := p.faults \ p.recoveries
    recoveries := ∅
    faultyPower := p.faultyPower - power
    recoveringPower := p.recoveringPower - power }
  p.validateState
  return (p, power)

/-- Activates the unproven sectors, returning the activated power. -/
def activateUnproven (p : Partition) : Partition × PowerPair :=
  ({ p with unproven := ∅, unprovenPower := 0 }, p.unprovenPower)

/-- Declares faulty sectors recovering; others and those already recovering
are skipped. -/
def declareFaultsRecovered (p : Partition) (sectors : OrdMap Nat SectorOnChainInfo)
    (sectorSize : Nat) (sectorNumbers : Finset Nat) : Except String Partition := do
  (validatePartitionContainsSectors p sectorNumbers).mapError (wrap "failed fault declaration")
  let recoveries := (sectorNumbers ∩ p.faults) \ p.recoveries
  let recoverySectors ← (loadSectors sectors recoveries).mapError
    (wrap "failed to load recovery sectors")
  let p := { p with
    recoveries := p.recoveries ∪ recoveries
    recoveringPower := p.recoveringPower + powerForSectors sectorSize recoverySectors }
  p.validateState
  return p

/-! ## Moving and replacing sectors -/

/-- Moves the active sectors among `sectorNumbers` to expire on time at the
new epoch, skipping those not in the partition, terminated or faulty. Returns
their infos. -/
def rescheduleExpirations (p : Partition) (sectors : OrdMap Nat SectorOnChainInfo)
    (newExpiration : Int) (sectorNumbers : Finset Nat) (sectorSize : Nat) (quant : QuantSpec) :
    Except String (Partition × List SectorOnChainInfo) := do
  let present := sectorNumbers ∩ p.sectors
  let live := present \ p.terminated
  let active := live \ p.faults
  let sectorInfos ← loadSectors sectors active
  let expirations ←
    (p.expirationQueue quant).rescheduleExpirations newExpiration sectorInfos sectorSize
  let p := { p with expirationsEpochs := expirations.amt }
  p.validateState
  return (p, sectorInfos)

/-- Replaces old sectors, which must be active, by new ones. Returns the power,
pledge and fee deltas. -/
def replaceSectors (p : Partition) (oldSectors newSectors : List SectorOnChainInfo)
    (sectorSize : Nat) (quant : QuantSpec) : Except String (Partition × PowerPair × Int × Int) := do
  let (expirations, oldSectorNumbers, newSectorNumbers, powerDelta, pledgeDelta, feeDelta) ←
    ((p.expirationQueue quant).replaceSectors oldSectors newSectors sectorSize).mapError
      (wrap "failed to replace sector expirations")
  let p := { p with expirationsEpochs := expirations.amt }
  let active := p.activeSectors
  if ¬ oldSectorNumbers ⊆ active then throw "refusing to replace inactive sectors"
  let p := { p with
    sectors := (p.sectors \ oldSectorNumbers) ∪ newSectorNumbers
    livePower := p.livePower + powerDelta }
  p.validateState
  return (p, powerDelta, pledgeDelta, feeDelta)

/-! ## Terminations and expirations -/

/-- Records the epoch of sectors terminated early, for their fees later. -/
def recordEarlyTermination (p : Partition) (epoch : Int) (sectors : Finset Nat) :
    Except String Partition := do
  let earlyTerminationQueue ← (p.earlyTerminationQueue.addToQueue epoch sectors).mapError
    (wrap "failed to add to early termination queue")
  return { p with earlyTerminated := earlyTerminationQueue.amt }

/-- Terminates live sectors: they leave the faults and recoveries, and their
epoch of termination is recorded. Returns what was removed from the queue,
its active power without the unproven sectors, and the unproven power. -/
def terminateSectors (p : Partition) (addressedSectorsMax : Nat)
    (sectors : OrdMap Nat SectorOnChainInfo) (epoch : Int) (sectorNumbers : Finset Nat)
    (sectorSize : Nat) (quant : QuantSpec) : Except String (Partition × ExpirationSet × PowerPair) := do
  let liveSectors := p.liveSectors
  if ¬ sectorNumbers ⊆ liveSectors then throw "can only terminate live sectors"
  let sectorInfos ← loadSectors sectors sectorNumbers
  let (expirations, removed, removedRecovering) ←
    ((p.expirationQueue quant).removeSectors addressedSectorsMax sectorInfos p.faults p.recoveries
      sectorSize).mapError (wrap "failed to remove sector expirations")
  let p := { p with expirationsEpochs := expirations.amt }
  let removedSectors := removed.onTimeSectors ∪ removed.earlySectors
  let p ← (p.recordEarlyTermination epoch removedSectors).mapError
    (wrap "failed to record early sector termination")
  let unprovenNos := removedSectors ∩ p.unproven
  let p := { p with
    faults := p.faults \ removedSectors
    recoveries := p.recoveries \ removedSectors
    terminated := p.terminated ∪ removedSectors
    livePower := p.livePower - removed.activePower - removed.faultyPower
    faultyPower := p.faultyPower - removed.faultyPower
    recoveringPower := p.recoveringPower - removedRecovering
    unproven := p.unproven \ unprovenNos }
  let unprovenInfos ← selectSectors sectorInfos unprovenNos
  let removedUnprovenPower := powerForSectors sectorSize unprovenInfos
  let p := { p with unprovenPower := p.unprovenPower - removedUnprovenPower }
  let removed := { removed with activePower := removed.activePower - removedUnprovenPower }
  p.validateState
  return (p, removed, removedUnprovenPower)

/-- Terminates every sector expiring up to and including `untilEpoch`, and
records those expiring early. Returns what was popped. -/
def popExpiredSectors (p : Partition) (untilEpoch : Int) (quant : QuantSpec) :
    Except String (Partition × ExpirationSet) := do
  -- proofs are handled before expirations
  if p.unproven ≠ ∅ then
    throw "cannot pop expired sectors from a partition with unproven sectors"
  let (expirations, popped) ← ((p.expirationQueue quant).popUntil untilEpoch).mapError
    (wrap s!"failed to pop expiration queue until {untilEpoch}")
  let p := { p with expirationsEpochs := expirations.amt }
  let expiredSectors := popped.onTimeSectors ∪ popped.earlySectors
  if p.recoveries ≠ ∅ then throw "unexpected recoveries while processing expirations"
  if !p.recoveringPower.isZero then
    throw "unexpected recovering power while processing expirations"
  if p.terminated ∩ expiredSectors ≠ ∅ then throw "expiring sectors already terminated"
  let p := { p with
    terminated := p.terminated ∪ expiredSectors
    faults := p.faults \ expiredSectors
    livePower := p.livePower - (popped.activePower + popped.faultyPower)
    faultyPower := p.faultyPower - popped.faultyPower }
  let p ← (p.recordEarlyTermination untilEpoch popped.earlySectors).mapError
    (wrap "failed to record early terminations")
  p.validateState
  return (p, popped)

/-- Marks every live sector faulty after a missed proof and clears the
recoveries. Returns the power delta, the penalized power and the new faulty
power. -/
def recordMissedPost (p : Partition) (faultExpiration : Int) (quant : QuantSpec) :
    Except String (Partition × PowerPair × PowerPair × PowerPair) := do
  let queue ← ((p.expirationQueue quant).rescheduleAllAsFaults faultExpiration).mapError
    (wrap "failed to reschedule all as faults")
  let p := { p with expirationsEpochs := queue.amt }
  let newFaultyPower := p.livePower - p.faultyPower
  let penalizedPower := p.recoveringPower + newFaultyPower
  -- unproven power was never activated
  let powerDelta := p.unprovenPower - newFaultyPower
  let allFaults := p.liveSectors
  let p := { p with
    faults := allFaults
    recoveries := ∅
    unproven := ∅
    faultyPower := p.livePower
    recoveringPower := 0
    unprovenPower := 0 }
  p.validateState
  return (p, powerDelta, penalizedPower, newFaultyPower)

/-- What the walk of `popEarlyTerminations` carries: the epochs fully
processed, the part of an entry left over, and the result so far. -/
structure EarlyWalk where
  processed : List Nat
  remaining : Option (Finset Nat × Int)
  result : TerminationResult

/-- One entry of the early termination queue: all of it if it fits under
`maxSectors`, otherwise its first sectors, the rest left in place. -/
def earlyStep (maxSectors : Nat) (acc : EarlyWalk) (i : Nat) (sectors : Finset Nat) :
    Except String (EarlyWalk × Bool) :=
  let epoch : Int := i
  let count := sectors.card
  let limit := maxSectors - acc.result.sectorsProcessed
  let (acc, toProcess) :=
    if limit < count then
      let toProcess := ((sectors.sort (· ≤ ·)).take limit).toFinset
      let rest := sectors \ toProcess
      ({ acc with
          remaining := some (rest, epoch)
          result := { acc.result with sectorsProcessed := acc.result.sectorsProcessed + limit } },
        toProcess)
    else
      ({ acc with
          processed := acc.processed ++ [i]
          result := { acc.result with sectorsProcessed := acc.result.sectorsProcessed + count } },
        sectors)
  let acc := { acc with result := { acc.result with sectors := acc.result.sectors.set epoch toProcess } }
  .ok (acc, decide (acc.result.sectorsProcessed < maxSectors))

/-- Takes up to `maxSectors` sectors from the early termination queue, in
epoch order. Returns them by epoch and whether the queue has more. -/
def popEarlyTerminations (p : Partition) (maxSectors : Nat) :
    Except String (Partition × TerminationResult × Bool) := do
  let walk ← (p.earlyTerminated.forEachWhile (earlyStep maxSectors)
      ⟨[], none, ⟨OrdMap.empty, 1, 0⟩⟩).mapError (wrap "failed to walk early terminations queue")
  let amt ← (p.earlyTerminated.batchDelete walk.processed true).mapError
    (wrap "failed to remove entries from early terminations queue")
  let amt := match walk.remaining with
    | some (remainingSectors, remainingEpoch) => amt.set remainingEpoch.toNat remainingSectors
    | none => amt
  let p := { p with earlyTerminated := amt }
  p.validateState
  let hasMore := decide (amt.count > 0)
  return (p, walk.result, hasMore)

/-- Records the skipped faults of a proof: those outside the partition are an
error, those faulty or terminated are ignored, and recovering ones turn faulty
again. Returns the power delta, the new faulty power, the retracted recovery
power and whether there were new faults. -/
def recordSkippedFaults (p : Partition) (sectors : OrdMap Nat SectorOnChainInfo)
    (sectorSize : Nat) (quant : QuantSpec) (faultExpiration : Int) (skipped : Finset Nat) :
    Except String (Partition × PowerPair × PowerPair × PowerPair × Bool) :=
  if skipped = ∅ then .ok (p, 0, 0, 0, false) else do
  if ¬ skipped ⊆ p.sectors then throw "skipped faults contains sectors outside partition"
  let retractedRecoveries := p.recoveries ∩ skipped
  let retractedRecoverySectors ← (loadSectors sectors retractedRecoveries).mapError
    (wrap "failed to load sectors")
  let retractedRecoveryPower := powerForSectors sectorSize retractedRecoverySectors
  -- skipped faults already faulty or terminated are ignored
  let newFaults := (skipped \ p.terminated) \ p.faults
  let newFaultSectors ← (loadSectors sectors newFaults).mapError (wrap "failed to load sectors")
  let (p, powerDelta, newFaultPower) ←
    (p.addFaults newFaults newFaultSectors faultExpiration sectorSize quant).mapError
      (wrap "failed to add skipped faults")
  let p := p.removeRecoveries retractedRecoveries retractedRecoveryPower
  p.validateState
  return (p, powerDelta, newFaultPower, retractedRecoveryPower, !newFaultSectors.isEmpty)

end Partition

end BuiltinActors.Miner
