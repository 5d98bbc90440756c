import Mathlib.Data.Finset.Sort
import BuiltinActors.Lib.OrdMap
import BuiltinActors.Miner.Quantize
import BuiltinActors.Miner.Sector

/-! # The expiration queue

A queue of expiration sets by epoch: the on-time or early termination epoch
of a partition's sectors. The AMT behind it is a key-ordered map; bitfields
are finite sets. Keys are quantized upwards by the queue's `QuantSpec` before
they are read or written.

Where the source walks a bitfield and accumulates per sector (grouping an
entry's on-time sectors, moving recovered sectors), the model takes the set of
sectors found and sums over it: the totals do not depend on the order of the
walk. Lists of sector numbers that the source only ever turns into bitfields
are sets here. Error texts keep the source's words; the debug renderings of
bitfields in them are left out. -/

namespace BuiltinActors.Miner

/-- An internal limit on the cardinality of a bitfield in a queue entry. -/
def entrySectorsMax : Nat := 10000

/-- A context added to an error, as `downcast_wrap` does. -/
def wrap (context e : String) : String := s!"{context}: {e}"

/-- The sectors expiring at one epoch, on time or early, with their totals. -/
structure ExpirationSet where
  onTimeSectors : Finset Nat
  earlySectors : Finset Nat
  onTimePledge : Int
  activePower : PowerPair
  faultyPower : PowerPair
  feeDeduction : Int
deriving DecidableEq

namespace ExpirationSet

def empty : ExpirationSet := ⟨∅, ∅, 0, 0, 0, 0⟩

def validateState (es : ExpirationSet) : Except String Unit := do
  if es.onTimePledge < 0 then throw "ExpirationSet left with negative pledge"
  if es.activePower.raw < 0 then throw "ExpirationSet left with negative raw active power"
  if es.activePower.qa < 0 then throw "ExpirationSet left with negative qa active power"
  if es.faultyPower.raw < 0 then throw "ExpirationSet left with negative raw faulty power"
  if es.faultyPower.qa < 0 then throw "ExpirationSet left with negative qa faulty power"
  if es.feeDeduction < 0 then throw "ExpirationSet left with negative fee deduction"

/-- Adds sectors and power to the set. -/
def add (es : ExpirationSet) (onTimeSectors earlySectors : Finset Nat) (onTimePledge : Int)
    (activePower faultyPower : PowerPair) (feeDeduction : Int) : Except String ExpirationSet := do
  let es : ExpirationSet :=
    { onTimeSectors := es.onTimeSectors ∪ onTimeSectors
      earlySectors := es.earlySectors ∪ earlySectors
      onTimePledge := es.onTimePledge + onTimePledge
      activePower := es.activePower + activePower
      faultyPower := es.faultyPower + faultyPower
      feeDeduction := es.feeDeduction + feeDeduction }
  es.validateState
  return es

/-- Removes sectors and power from the set. -/
def remove (es : ExpirationSet) (onTimeSectors earlySectors : Finset Nat) (onTimePledge : Int)
    (activePower faultyPower : PowerPair) (feeDeduction : Int) : Except String ExpirationSet := do
  if ¬ onTimeSectors ⊆ es.onTimeSectors then
    throw "removing on-time sectors not contained in the on-time sectors of the set"
  if ¬ earlySectors ⊆ es.earlySectors then
    throw "removing early sectors not contained in the early sectors of the set"
  let es : ExpirationSet :=
    { onTimeSectors := es.onTimeSectors \ onTimeSectors
      earlySectors := es.earlySectors \ earlySectors
      onTimePledge := es.onTimePledge - onTimePledge
      activePower := es.activePower - activePower
      faultyPower := es.faultyPower - faultyPower
      feeDeduction := es.feeDeduction - feeDeduction }
  if es.onTimePledge < 0 then throw "expiration set pledge underflow"
  if es.activePower.qa < 0 ∨ es.faultyPower.qa < 0 then throw "expiration set power underflow"
  if es.feeDeduction < 0 then throw "expiration set fee deduction underflow"
  es.validateState
  return es

/-- A set is empty if it has no sectors; power and pledge are not checked. -/
def isEmpty (es : ExpirationSet) : Bool := decide (es.onTimeSectors = ∅) && decide (es.earlySectors = ∅)

def len (es : ExpirationSet) : Nat := es.onTimeSectors.card + es.earlySectors.card

/-- The sectors and totals of two sets together, unchecked. -/
def union (a b : ExpirationSet) : ExpirationSet where
  onTimeSectors := a.onTimeSectors ∪ b.onTimeSectors
  earlySectors := a.earlySectors ∪ b.earlySectors
  onTimePledge := a.onTimePledge + b.onTimePledge
  activePower := a.activePower + b.activePower
  faultyPower := a.faultyPower + b.faultyPower
  feeDeduction := a.feeDeduction + b.feeDeduction

end ExpirationSet

/-- The sectors of one epoch found in a walk, with their totals. -/
structure SectorEpochSet where
  epoch : Int
  sectors : Finset Nat
  power : PowerPair
  pledge : Int
  dailyFee : Int

/-- A group of sectors found at an epoch, with the entry found there. -/
structure SectorExpirationSet where
  sectorEpochSet : SectorEpochSet
  expirationSet : ExpirationSet

structure ExpirationQueue where
  amt : OrdMap Int ExpirationSet
  quant : QuantSpec

/-- Groups sectors by quantized declared expiration, in epoch order. -/
def groupNewSectorsByDeclaredExpiration (sectorSize : Nat) (sectors : List SectorOnChainInfo)
    (quant : QuantSpec) : List SectorEpochSet :=
  let sectorsByExpiration : OrdMap Int (List SectorOnChainInfo) :=
    sectors.foldl (fun m sector =>
      let qExpiration := quant.quantizeUp sector.expiration
      m.set qExpiration ((m.get? qExpiration).getD [] ++ [sector])) OrdMap.empty
  sectorsByExpiration.entries.map fun (expiration, epochSectors) =>
    { epoch := expiration
      sectors := (epochSectors.map SectorOnChainInfo.sectorNumber).toFinset
      power := (epochSectors.map (powerForSector sectorSize)).sum
      pledge := (epochSectors.map SectorOnChainInfo.initialPledge).sum
      dailyFee := (epochSectors.map SectorOnChainInfo.dailyFee).sum }

/-- The infos of a list of sectors by number; a later duplicate wins. -/
def sectorsByNumber (sectors : List SectorOnChainInfo) : OrdMap Nat SectorOnChainInfo :=
  sectors.foldl (fun m sector => m.set sector.sectorNumber sector) OrdMap.empty

/-- The sectors of `includeSet` that expire on time in `es`, with their
totals, and `includeSet` without them. -/
def groupExpirationSet (sectorSize : Nat) (sectors : OrdMap Nat SectorOnChainInfo)
    (includeSet : Finset Nat) (es : ExpirationSet) (expiration : Int) :
    SectorExpirationSet × Finset Nat :=
  let found := es.onTimeSectors.filter (· ∈ includeSet)
  -- every number of `includeSet` has an info ("index should exist in sector set")
  let sector := fun u => (sectors.get? u).getD default
  ({ sectorEpochSet :=
      { epoch := expiration
        sectors := found
        power := ∑ u ∈ found, powerForSector sectorSize (sector u)
        pledge := ∑ u ∈ found, (sector u).initialPledge
        dailyFee := ∑ u ∈ found, (sector u).dailyFee }
     expirationSet := es }, includeSet \ found)

/-- One step of the search of `findSectorsByExpiration`: groups the remaining
sectors on time in `es`, and keeps the group unless it is empty. -/
def groupAt (sectorSize : Nat) (byNumber : OrdMap Nat SectorOnChainInfo)
    (acc : List SectorExpirationSet × Finset Nat) (es : ExpirationSet) (expiration : Int) :
    List SectorExpirationSet × Finset Nat :=
  let (group, remaining) := groupExpirationSet sectorSize byNumber acc.2 es expiration
  (if group.sectorEpochSet.sectors = ∅ then acc.1 else acc.1 ++ [group], remaining)

/-- Fails on a sector of `set` that `es` holds as early; the source reports
the first one. -/
def checkNoEarlySectors (set : Finset Nat) (es : ExpirationSet) : Except String Unit :=
  if h : (es.earlySectors.filter (· ∈ set)).Nonempty then
    let u := (es.earlySectors.filter (· ∈ set)).min' h
    .error s!"Invalid attempt to group sector {u} with an early expiration"
  else .ok ()

namespace ExpirationQueue

def mayGet (q : ExpirationQueue) (key : Int) : ExpirationSet :=
  (q.amt.get? key).getD ExpirationSet.empty

def mustUpdate (q : ExpirationQueue) (epoch : Int) (es : ExpirationSet) : ExpirationQueue :=
  { q with amt := q.amt.set epoch es }

/-- Writes the entry back, or deletes it when it has no sectors left. -/
def mustUpdateOrDelete (q : ExpirationQueue) (epoch : Int) (es : ExpirationSet) :
    ExpirationQueue :=
  if es.isEmpty then { q with amt := q.amt.erase epoch } else q.mustUpdate epoch es

def add (q : ExpirationQueue) (rawEpoch : Int) (onTimeSectors earlySectors : Finset Nat)
    (activePower faultyPower : PowerPair) (pledge dailyFee : Int) :
    Except String ExpirationQueue := do
  let epoch := q.quant.quantizeUp rawEpoch
  let expirationSet ← ((q.mayGet epoch).add onTimeSectors earlySectors pledge activePower
      faultyPower dailyFee).mapError
    fun e => s!"failed to add expiration values for epoch {epoch}: {e}"
  return q.mustUpdate epoch expirationSet

def remove (q : ExpirationQueue) (rawEpoch : Int) (onTimeSectors earlySectors : Finset Nat)
    (activePower faultyPower : PowerPair) (pledge feeDeduction : Int) :
    Except String ExpirationQueue := do
  let epoch := q.quant.quantizeUp rawEpoch
  let some expirationSet := q.amt.get? epoch
    | throw s!"missing expected expiration set at epoch {epoch}"
  let expirationSet ← (expirationSet.remove onTimeSectors earlySectors pledge activePower
      faultyPower feeDeduction).mapError
    fun e => s!"failed to remove expiration values for queue epoch {epoch}: {e}"
  return q.mustUpdateOrDelete epoch expirationSet

/-- Adds each group of new sectors at its epoch, in turn. -/
def addGroups : ExpirationQueue → List SectorEpochSet → Except String ExpirationQueue
  | q, [] => .ok q
  | q, group :: groups => do
    let q ← (q.add group.epoch group.sectors ∅ group.power 0 group.pledge group.dailyFee).mapError
      (wrap "failed to record new sector expirations")
    addGroups q groups

/-- Adds sectors, assumed active, at their quantized declared expirations.
Returns the sector numbers, power, pledge and daily fee added. -/
def addActiveSectors (q : ExpirationQueue) (sectors : List SectorOnChainInfo) (sectorSize : Nat) :
    Except String (ExpirationQueue × Finset Nat × PowerPair × Int × Int) := do
  let groups := groupNewSectorsByDeclaredExpiration sectorSize sectors q.quant
  let q ← q.addGroups groups
  return (q, (groups.map SectorEpochSet.sectors).foldr (· ∪ ·) ∅, (groups.map (·.power)).sum,
    (groups.map (·.pledge)).sum, (groups.map (·.dailyFee)).sum)

/-- Groups the given sectors by the entry where they expire on time: first at
their declared epochs, then, for sectors rescheduled elsewhere, by a walk of
the queue in epoch order. Groups come out in epoch order. -/
def findSectorsByExpiration (q : ExpirationQueue) (sectorSize : Nat)
    (sectors : List SectorOnChainInfo) : Except String (List SectorExpirationSet) := do
  let declaredExpirations : OrdMap Int Bool :=
    sectors.foldl (fun m sector => m.set (q.quant.quantizeUp sector.expiration) true) OrdMap.empty
  let byNumber := sectorsByNumber sectors
  let allRemaining := (sectors.map SectorOnChainInfo.sectorNumber).toFinset
  let (groups, allRemaining) := declaredExpirations.keys.foldl
    (fun acc expiration => groupAt sectorSize byNumber acc (q.mayGet expiration) expiration)
    ([], allRemaining)
  let (groups, allRemaining) ← if allRemaining = ∅ then pure (groups, allRemaining) else
    q.amt.forEachWhile (fun acc epoch es => do
      -- declared epochs were grouped above
      if (declaredExpirations.get? epoch).isSome then return (acc, true)
      checkNoEarlySectors acc.2 es
      let acc := groupAt sectorSize byNumber acc es epoch
      return (acc, decide (acc.2 ≠ ∅))) (groups, allRemaining)
  if allRemaining ≠ ∅ then throw "some sectors not found in expiration queue"
  return groups.mergeSort fun a b => decide (a.sectorEpochSet.epoch ≤ b.sectorEpochSet.epoch)

/-- Removes each group from the entry it was found in, in turn. -/
def removeGroups : ExpirationQueue → List SectorExpirationSet → Except String ExpirationQueue
  | q, [] => .ok q
  | q, group :: groups => do
    let ses := group.sectorEpochSet
    let q ← q.remove ses.epoch ses.sectors ∅ ses.power 0 ses.pledge ses.dailyFee
    removeGroups q groups

def removeActiveSectors (q : ExpirationQueue) (sectors : List SectorOnChainInfo)
    (sectorSize : Nat) : Except String (ExpirationQueue × Finset Nat × PowerPair × Int × Int) := do
  let groups ← q.findSectorsByExpiration sectorSize sectors
  let q ← q.removeGroups groups
  let sets := groups.map SectorExpirationSet.sectorEpochSet
  return (q, (sets.map SectorEpochSet.sectors).foldr (· ∪ ·) ∅, (sets.map (·.power)).sum,
    (sets.map (·.pledge)).sum, (sets.map (·.dailyFee)).sum)

/-- Reschedules active sectors to a new quantized expiration, on time. -/
def rescheduleExpirations (q : ExpirationQueue) (newExpiration : Int)
    (sectors : List SectorOnChainInfo) (sectorSize : Nat) : Except String ExpirationQueue := do
  if sectors.isEmpty then return q
  let (q, sectorNumbers, power, pledge, dailyFee) ← (q.removeActiveSectors sectors sectorSize).mapError
    (wrap "failed to remove sector expirations")
  (q.add newExpiration sectorNumbers ∅ power 0 pledge dailyFee).mapError
    (wrap "failed to record new sector expirations")

/-- What `rescheduleAsFaults` does to one group: a group due by the fault
epoch stays and turns faulty, a later one leaves its entry to be re-added
early. Returns the entry to write back, the sectors moved, and the expiring
power, rescheduled power and rescheduled fee. -/
def faultGroup (newQuantizedExpiration : Int) (group : SectorExpirationSet) :
    ExpirationSet × Finset Nat × PowerPair × PowerPair × Int :=
  let ses := group.sectorEpochSet
  let es := group.expirationSet
  if ses.epoch ≤ newQuantizedExpiration then
    ({ es with activePower := es.activePower - ses.power, faultyPower := es.faultyPower + ses.power },
      ∅, ses.power, 0, 0)
  else
    ({ es with
        onTimeSectors := es.onTimeSectors \ ses.sectors
        onTimePledge := es.onTimePledge - ses.pledge
        activePower := es.activePower - ses.power
        feeDeduction := es.feeDeduction - ses.dailyFee },
      ses.sectors, 0, ses.power, ses.dailyFee)

def faultGroups (newQuantizedExpiration : Int) :
    ExpirationQueue → List SectorExpirationSet →
      Except String (ExpirationQueue × Finset Nat × PowerPair × PowerPair × Int)
  | q, [] => .ok (q, ∅, 0, 0, 0)
  | q, group :: groups => do
    let (es, moved, expiring, rescheduled, dailyFee) := faultGroup newQuantizedExpiration group
    let q := q.mustUpdateOrDelete group.sectorEpochSet.epoch es
    es.validateState
    let (q, moved', expiring', rescheduled', dailyFee') ← faultGroups newQuantizedExpiration q groups
    return (q, moved ∪ moved', expiring + expiring', rescheduled + rescheduled', dailyFee + dailyFee')

/-- Reschedules active sectors to expire early at a fault epoch, unless they
expire on time before it. Returns the power of the sectors. -/
def rescheduleAsFaults (q : ExpirationQueue) (newExpiration : Int)
    (sectors : List SectorOnChainInfo) (sectorSize : Nat) :
    Except String (ExpirationQueue × PowerPair) := do
  let groups ← q.findSectorsByExpiration sectorSize sectors
  let newQuantizedExpiration := q.quant.quantizeUp newExpiration
  let (q, sectorsTotal, expiringPower, rescheduledPower, rescheduledDailyFee) ←
    faultGroups newQuantizedExpiration q groups
  let q ← if sectorsTotal ≠ ∅ then
      q.add newExpiration ∅ sectorsTotal 0 rescheduledPower 0 rescheduledDailyFee
    else pure q
  return (q, rescheduledPower + expiringPower)

/-- What the walk of `rescheduleAllAsFaults` collects: the epochs to move, their
sectors, power and fee, and the entries due by the fault epoch, turned faulty. -/
structure AllFaults where
  rescheduledEpochs : List Int
  rescheduledSectors : Finset Nat
  rescheduledPower : PowerPair
  rescheduledDailyFee : Int
  mutatedExpirationSets : List (Int × ExpirationSet)

def allFaultsStep (quantizedFaultExpiration : Int) (acc : AllFaults) (epoch : Int)
    (es : ExpirationSet) : Except String AllFaults :=
  if epoch ≤ quantizedFaultExpiration then
    -- all the power is now faulty; pledge and fee stay as they are
    .ok { acc with mutatedExpirationSets := acc.mutatedExpirationSets ++
      [(epoch, { es with faultyPower := es.faultyPower + es.activePower, activePower := 0 })] }
  else if es.earlySectors ≠ ∅ then
    .error "attempted to re-schedule early expirations to an earlier epoch"
  else
    .ok { acc with
      rescheduledEpochs := acc.rescheduledEpochs ++ [epoch]
      rescheduledSectors := acc.rescheduledSectors ∪ es.onTimeSectors
      rescheduledPower := acc.rescheduledPower + es.activePower + es.faultyPower
      rescheduledDailyFee := acc.rescheduledDailyFee + es.feeDeduction }

/-- Writes back the mutated entries; an invalid one fails after its write. -/
def mustUpdateAll : ExpirationQueue → List (Int × ExpirationSet) → Except String ExpirationQueue
  | q, [] => .ok q
  | q, (epoch, es) :: rest => do
    let res := es.validateState
    let q := q.mustUpdate epoch es
    res
    mustUpdateAll q rest

/-- Reschedules all sectors to expire early at the fault epoch, unless they
expire before it. -/
def rescheduleAllAsFaults (q : ExpirationQueue) (faultExpiration : Int) :
    Except String ExpirationQueue := do
  let quantizedFaultExpiration := q.quant.quantizeUp faultExpiration
  let acc ← q.amt.forEach (allFaultsStep quantizedFaultExpiration) ⟨[], ∅, 0, 0, []⟩
  let q ← q.mustUpdateAll acc.mutatedExpirationSets
  if acc.rescheduledEpochs.isEmpty then return q
  let q ← q.add faultExpiration ∅ acc.rescheduledSectors 0 acc.rescheduledPower 0
    acc.rescheduledDailyFee
  let amt ← q.amt.batchDelete acc.rescheduledEpochs true
  return { q with amt }

/-- Walks the queue with `f`, which may rewrite the entries it visits and stop
early; visited entries left with no sectors are deleted afterwards. -/
def iterWhileMut {σ : Type} (q : ExpirationQueue)
    (f : σ → Int → ExpirationSet → Except String (σ × ExpirationSet × Bool)) (s : σ) :
    Except String (σ × ExpirationQueue) := do
  let ((s, epochsEmptied), amt) ← q.amt.forEachWhileMut (fun (s, emptied) e es => do
      let (s, es, keepGoing) ← f s e es
      let emptied := if es.isEmpty then emptied ++ [e] else emptied
      return ((s, emptied), es, keepGoing)) (s, [])
  let amt ← amt.batchDelete epochsEmptied true
  return (s, { q with amt })

/-- What `rescheduleRecovered` carries through its walk: the sectors not yet
found, those to reschedule and the power recovered. -/
structure Recovery where
  remaining : Finset Nat
  sectorsRescheduled : List SectorOnChainInfo
  recoveredPower : PowerPair

/-- One entry of `rescheduleRecovered`: recovering sectors on time here keep
their place and turn active; those early here leave it to be rescheduled. -/
def recoverEntry (sectorSize : Nat) (byNumber : OrdMap Nat SectorOnChainInfo) (acc : Recovery)
    (es : ExpirationSet) : Except String (Recovery × ExpirationSet × Bool) := do
  let sector := fun u => (byNumber.get? u).getD default
  let onTimeFound := es.onTimeSectors.filter (· ∈ acc.remaining)
  let remaining := acc.remaining \ onTimeFound
  let earlyUnset := es.earlySectors.filter (· ∈ remaining)
  let remaining := remaining \ earlyUnset
  let onTimePower := ∑ u ∈ onTimeFound, powerForSector sectorSize (sector u)
  let earlyPower := ∑ u ∈ earlyUnset, powerForSector sectorSize (sector u)
  let faultyPowerDelta := -(onTimePower + earlyPower)
  let activePowerDelta := onTimePower
  let dailyFeeDelta := -∑ u ∈ earlyUnset, (sector u).dailyFee
  let es :=
    if earlyUnset ≠ ∅ ∨ faultyPowerDelta ≠ 0 ∨ activePowerDelta ≠ 0 then
      { es with
        activePower := es.activePower + activePowerDelta
        faultyPower := es.faultyPower + faultyPowerDelta
        feeDeduction := es.feeDeduction + dailyFeeDelta
        earlySectors := es.earlySectors \ earlyUnset }
    else es
  es.validateState
  let acc : Recovery :=
    { remaining
      sectorsRescheduled := acc.sectorsRescheduled ++ (earlyUnset.sort (· ≤ ·)).map sector
      recoveredPower := acc.recoveredPower + (onTimePower + earlyPower) }
  return (acc, es, decide (remaining ≠ ∅))

/-- Moves recovering sectors from early entries back to their declared
expirations and turns their power active. Returns the power recovered. -/
def rescheduleRecovered (q : ExpirationQueue) (sectors : List SectorOnChainInfo)
    (sectorSize : Nat) : Except String (ExpirationQueue × PowerPair) := do
  let byNumber := sectorsByNumber sectors
  let (acc, q) ← q.iterWhileMut (fun acc _ es => recoverEntry sectorSize byNumber acc es)
    ⟨(sectors.map SectorOnChainInfo.sectorNumber).toFinset, [], 0⟩
  if acc.remaining ≠ ∅ then throw "sectors not found in expiration queue"
  let (q, _) ← q.addActiveSectors acc.sectorsRescheduled sectorSize
  return (q, acc.recoveredPower)

/-- Removes some active sectors and adds others. Returns the old and new
sector numbers and the power, pledge and fee deltas, new minus old. -/
def replaceSectors (q : ExpirationQueue) (oldSectors newSectors : List SectorOnChainInfo)
    (sectorSize : Nat) :
    Except String (ExpirationQueue × Finset Nat × Finset Nat × PowerPair × Int × Int) := do
  let (q, oldSectorNumbers, oldPower, oldPledge, oldDailyFee) ←
    (q.removeActiveSectors oldSectors sectorSize).mapError (wrap "failed to remove replaced sectors")
  let (q, newSectorNumbers, newPower, newPledge, newDailyFee) ←
    (q.addActiveSectors newSectors sectorSize).mapError (wrap "failed to add replacement sectors")
  return (q, oldSectorNumbers, newSectorNumbers, newPower - oldPower, newPledge - oldPledge,
    newDailyFee - oldDailyFee)

/-- What the walk over faulty sectors of `removeSectors` carries: the entry,
what is removed so far, the recovering power and the sectors not yet found. -/
structure Removal where
  es : ExpirationSet
  removed : ExpirationSet
  recoveringPower : PowerPair
  remaining : Finset Nat

/-- One faulty sector of `removeSectors` in one entry, found by the entry's
sets as they were before the walk over the faulty sectors. -/
def removeFaultySector (sectorSize : Nat) (faults recovering onTimeSectors earlySectors : Finset Nat)
    (acc : Removal) (sector : SectorOnChainInfo) : Removal :=
  let sectorNumber := sector.sectorNumber
  let found? : Option Removal :=
    if sectorNumber ∈ onTimeSectors then
      some { acc with
        es := { acc.es with
          onTimeSectors := acc.es.onTimeSectors.erase sectorNumber
          onTimePledge := acc.es.onTimePledge - sector.initialPledge }
        removed := { acc.removed with
          onTimeSectors := insert sectorNumber acc.removed.onTimeSectors
          onTimePledge := acc.removed.onTimePledge + sector.initialPledge } }
    else if sectorNumber ∈ earlySectors then
      some { acc with
        es := { acc.es with earlySectors := acc.es.earlySectors.erase sectorNumber }
        removed := { acc.removed with earlySectors := insert sectorNumber acc.removed.earlySectors } }
    else none
  match found? with
  | none => acc
  | some acc =>
    let power := powerForSector sectorSize sector
    let acc :=
      if sectorNumber ∈ faults then
        { acc with
          es := { acc.es with faultyPower := acc.es.faultyPower - power }
          removed := { acc.removed with faultyPower := acc.removed.faultyPower + power } }
      else
        { acc with
          es := { acc.es with activePower := acc.es.activePower - power }
          removed := { acc.removed with activePower := acc.removed.activePower + power } }
    { acc with
      recoveringPower :=
        if sectorNumber ∈ recovering then acc.recoveringPower + power else acc.recoveringPower
      remaining := acc.remaining.erase sectorNumber
      removed := { acc.removed with feeDeduction := acc.removed.feeDeduction + sector.dailyFee }
      es := { acc.es with feeDeduction := acc.es.feeDeduction - sector.dailyFee } }

def removeFaultyEntry (sectorSize : Nat) (faults recovering : Finset Nat)
    (faultySectors : List SectorOnChainInfo) (acc : ExpirationSet × PowerPair × Finset Nat)
    (es : ExpirationSet) : Except String ((ExpirationSet × PowerPair × Finset Nat) × ExpirationSet × Bool) := do
  if es.onTimeSectors.card > entrySectorsMax then throw "too many on-time sectors to expand"
  if es.earlySectors.card > entrySectorsMax then throw "too many early sectors to expand"
  let (removed, recoveringPower, remaining) := acc
  let r := faultySectors.foldl
    (removeFaultySector sectorSize faults recovering es.onTimeSectors es.earlySectors)
    ⟨es, removed, recoveringPower, remaining⟩
  r.es.validateState
  return ((r.removed, r.recoveringPower, r.remaining), r.es, decide (r.remaining ≠ ∅))

/-- Removes sectors, active or faulty, on time or early. Returns what was
removed and the recovering power among it. -/
def removeSectors (q : ExpirationQueue) (addressedSectorsMax : Nat)
    (sectors : List SectorOnChainInfo) (faults recovering : Finset Nat) (sectorSize : Nat) :
    Except String (ExpirationQueue × ExpirationSet × PowerPair) := do
  let remaining := (sectors.map SectorOnChainInfo.sectorNumber).toFinset
  if faults.card > addressedSectorsMax then throw "too many faults to expand"
  if recovering.card > addressedSectorsMax then throw "too many recoveries to expand"
  -- non-faulty sectors always expire on time, so they are removed first
  let faultySectors := sectors.filter (·.sectorNumber ∈ faults)
  let nonFaultySectors := sectors.filter (·.sectorNumber ∉ faults)
  let remaining := remaining \ (nonFaultySectors.map SectorOnChainInfo.sectorNumber).toFinset
  let (q, removedSectorNumbers, removedPower, removedPledge, removedDailyFee) ←
    (q.removeActiveSectors nonFaultySectors sectorSize).mapError
      (wrap "failed to remove on-time recoveries")
  let removed : ExpirationSet :=
    { ExpirationSet.empty with
      onTimeSectors := removedSectorNumbers
      activePower := removedPower
      onTimePledge := removedPledge
      feeDeduction := removedDailyFee }
  let ((removed, recoveringPower, remaining), q) ← q.iterWhileMut
    (fun acc _ es => removeFaultyEntry sectorSize faults recovering faultySectors acc es)
    (removed, 0, remaining)
  if remaining ≠ ∅ then throw "sectors not found in expiration queue"
  return (q, removed, recoveringPower)

/-- Removes and aggregates the entries up to and including `untilEpoch`. -/
def popUntil (q : ExpirationQueue) (untilEpoch : Int) :
    Except String (ExpirationQueue × ExpirationSet) := do
  let (popped, poppedKeys) ← q.amt.forEachWhile (fun (acc, keys) i es =>
      if i > untilEpoch then .ok ((acc, keys), false)
      else .ok ((acc.union es, keys ++ [i]), true))
    (ExpirationSet.empty, [])
  let amt ← q.amt.batchDelete poppedKeys true
  return ({ q with amt }, popped)

end ExpirationQueue

end BuiltinActors.Miner
