import BuiltinActors.Miner.Partition
import BuiltinActors.Miner.DeadlineAssignment

/-! # A deadline and its partitions

A deadline holds the partitions of the sectors proved at one point of the
proving period, by index, and keeps beside them the number of its live and of
all its sectors, their faulty and live power, their daily fee, the queue of
partitions that may have sectors expiring at each epoch, and the set of
partitions with early terminations pending. Each method here loads the
partitions it names, calls the partition method of the same name on each,
stores them back and updates the totals.

A partition sector map, from partition index to sector numbers, is a
key-ordered map walked in index order. The partitions AMT is written back at
the end of each method; nothing reads it in between, so the walks keep it in
the deadline they carry. Counters are `u64`, built with overflow checks: a
subtraction below zero panics, which aborts the message and is an error here,
while no addition can reach `2^64` sectors. The proofs submitted in the
challenge window and the snapshots taken at its end, which only Window PoSt
and its disputes read, are left out. -/

namespace BuiltinActors.Miner

/-- `a - b` in `u64`, which panics below zero. -/
def subU64 (a b : Nat) : Except String Nat :=
  if b ≤ a then .ok (a - b) else .error "attempt to subtract with overflow"

/-! ## Termination results -/

namespace TerminationResult

def new : TerminationResult := ⟨OrdMap.empty, 0, 0⟩

/-- One epoch of `+=`: `entry(epoch).and_modify(|s| *s |= new).or_insert(new)`. -/
def addEntry (sectors : OrdMap Int (Finset Nat)) (epoch : Int) (newSectors : Finset Nat) :
    OrdMap Int (Finset Nat) :=
  match sectors.get? epoch with
  | some old => sectors.set epoch (old ∪ newSectors)
  | none => sectors.set epoch newSectors

/-- `+=`: the counts add up and the sectors of an epoch are joined. -/
def addAssign (self rhs : TerminationResult) : TerminationResult where
  sectors := rhs.sectors.entries.foldl (fun m e => addEntry m e.1 e.2) self.sectors
  partitionsProcessed := self.partitionsProcessed + rhs.partitionsProcessed
  sectorsProcessed := self.sectorsProcessed + rhs.sectorsProcessed

/-- Below both limits; at or above either one, the walk stops. -/
def belowLimit (r : TerminationResult) (partitionLimit sectorLimit : Nat) : Bool :=
  decide (r.partitionsProcessed < partitionLimit) && decide (r.sectorsProcessed < sectorLimit)

def isEmpty (r : TerminationResult) : Bool := r.sectorsProcessed == 0

end TerminationResult

/-! ## The deadline -/

/-- `Deadline` of `deadline_state.rs`, with the fields its modelled methods
read; `Deadline` is the view of it that deadline assignment reads. -/
structure DeadlineState where
  /-- The partitions, by index. -/
  partitions : OrdMap Nat Partition
  /-- The AMT of partitions that may have sectors expiring, by quantized epoch. -/
  expirationsEpochs : OrdMap Nat (Finset Nat)
  /-- Partitions with sectors that terminated early. -/
  earlyTerminations : Finset Nat
  /-- The number of non-terminated sectors, faulty ones included. -/
  liveSectors : Nat
  /-- The number of sectors, terminated ones included. -/
  totalSectors : Nat
  faultyPower : PowerPair
  /-- The power of the non-terminated sectors: active, faulty and unproven. -/
  livePower : PowerPair
  dailyFee : Int

namespace DeadlineState

def new : DeadlineState := ⟨OrdMap.empty, OrdMap.empty, ∅, 0, 0, 0, 0, 0⟩

/-- The two counts deadline assignment reads. -/
def toDeadline (d : DeadlineState) : Deadline := ⟨d.liveSectors, d.totalSectors⟩

/-- The queue of partitions by expiration, with the deadline's quantization. -/
def expirationQueue (d : DeadlineState) (quant : QuantSpec) : BitFieldQueue :=
  ⟨d.expirationsEpochs, quant⟩

def validateState (d : DeadlineState) : Except String Unit := do
  if d.liveSectors > d.totalSectors then throw "deadline left with more live sectors than total"
  if d.faultyPower.raw < 0 ∨ d.faultyPower.qa < 0 then
    throw "deadline left with negative faulty power"

/-! ## Expirations -/

/-- Adds partitions to the set expiring at an epoch. -/
def addExpirationPartitions (d : DeadlineState) (expirationEpoch : Int) (partitions : List Nat)
    (quant : QuantSpec) : Except String DeadlineState := do
  -- nothing to reschedule
  if partitions.isEmpty then return d
  let queue ← ((d.expirationQueue quant).addToQueueValues expirationEpoch partitions).mapError
    (wrap "failed to mutate expiration queue")
  return { d with expirationsEpochs := queue.amt }

/-- Removes the partitions queued up to `untilEpoch` from the queue. Returns
them and whether the queue changed. -/
def popExpiredPartitions (d : DeadlineState) (untilEpoch : Int) (quant : QuantSpec) :
    Except String (DeadlineState × Finset Nat × Bool) := do
  let (expirations, popped, modified) ← ((d.expirationQueue quant).popUntil untilEpoch).mapError
    (wrap "failed to pop expiring partitions")
  let d := if modified then { d with expirationsEpochs := expirations.amt } else d
  return (d, popped, modified)

/-- What the loop of `pop_expired_sectors` gathers from the partitions it
visits. -/
structure ExpiredWalk where
  partitions : OrdMap Nat Partition
  onTimeSectors : List (Finset Nat)
  earlySectors : List (Finset Nat)
  allOnTimePledge : Int
  allActivePower : PowerPair
  allFaultyPower : PowerPair
  allFeeDeductions : Int
  partitionsWithEarlyTerminations : List Nat

/-- One partition with an expiry: its expired sectors are popped. -/
def expiredStep (untilEpoch : Int) (quant : QuantSpec) (w : ExpiredWalk) (partitionIdx : Nat) :
    Except String ExpiredWalk := do
  let partition ← match w.partitions.get? partitionIdx with
    | some partition => pure partition
    | none => throw s!"missing expected partition {partitionIdx}"
  let (partition, partitionExpiration) ← (partition.popExpiredSectors untilEpoch quant).mapError
    (wrap s!"failed to pop expired sectors from partition {partitionIdx}")
  return {
    partitions := w.partitions.set partitionIdx partition
    onTimeSectors := w.onTimeSectors ++ [partitionExpiration.onTimeSectors]
    earlySectors := w.earlySectors ++ [partitionExpiration.earlySectors]
    allOnTimePledge := w.allOnTimePledge + partitionExpiration.onTimePledge
    allActivePower := w.allActivePower + partitionExpiration.activePower
    allFaultyPower := w.allFaultyPower + partitionExpiration.faultyPower
    allFeeDeductions := w.allFeeDeductions + partitionExpiration.feeDeduction
    partitionsWithEarlyTerminations :=
      if partitionExpiration.earlySectors ≠ ∅ then w.partitionsWithEarlyTerminations ++ [partitionIdx]
      else w.partitionsWithEarlyTerminations }

/-- Terminates the sectors expiring up to `untilEpoch` in every partition
queued for them. Returns what expired, all partitions together. -/
def popExpiredSectors (d : DeadlineState) (untilEpoch : Int) (quant : QuantSpec) :
    Except String (DeadlineState × ExpirationSet) := do
  let (d, expiredPartitions, modified) ← d.popExpiredPartitions untilEpoch quant
  -- nothing to do
  if !modified then return (d, ExpirationSet.empty)
  let w ← (expiredPartitions.sort (· ≤ ·)).foldlM (expiredStep untilEpoch quant)
    ⟨d.partitions, [], [], 0, 0, 0, 0, []⟩
  -- the indices came from a bitfield, so they are in its range
  let d := { d with
    partitions := w.partitions
    earlyTerminations := d.earlyTerminations ∪ w.partitionsWithEarlyTerminations.toFinset }
  let allOnTimeSectors := w.onTimeSectors.foldl (· ∪ ·) ∅
  let allEarlySectors := w.earlySectors.foldl (· ∪ ·) ∅
  let liveSectors ← subU64 d.liveSectors (allOnTimeSectors.card + allEarlySectors.card)
  let d := { d with
    liveSectors
    faultyPower := d.faultyPower - w.allFaultyPower
    livePower := d.livePower - w.allFaultyPower - w.allActivePower
    dailyFee := d.dailyFee - w.allFeeDeductions }
  return (d, ⟨allOnTimeSectors, allEarlySectors, w.allOnTimePledge, w.allActivePower,
    w.allFaultyPower, w.allFeeDeductions⟩)

/-! ## Early terminations -/

/-- What the loop of `pop_early_terminations` carries. -/
structure TerminationWalk where
  partitions : OrdMap Nat Partition
  partitionsFinished : List Nat
  result : TerminationResult

/-- One partition with early terminations: its terminations are popped with
the sectors left of the budget, and it is finished when it has no more. The
walk goes on while below both limits. -/
def terminationStep (maxPartitions maxSectors : Nat) (w : TerminationWalk) (partitionIdx : Nat) :
    Except String (TerminationWalk × Bool) :=
  match w.partitions.get? partitionIdx with
  | none => .ok ({ w with partitionsFinished := w.partitionsFinished ++ [partitionIdx] }, true)
  | some partition => do
    let budget ← subU64 maxSectors w.result.sectorsProcessed
    let (partition, partitionResult, more) ← (partition.popEarlyTerminations budget).mapError
      (wrap "failed to pop terminations from partition")
    let result := w.result.addAssign partitionResult
    -- if all of them are processed for this partition, it leaves the index
    let partitionsFinished :=
      if more then w.partitionsFinished else w.partitionsFinished ++ [partitionIdx]
    return (⟨w.partitions.set partitionIdx partition, partitionsFinished, result⟩,
      result.belowLimit maxPartitions maxSectors)

/-- Takes early terminations from the partitions, in index order, up to
`maxPartitions` partitions and `maxSectors` sectors. Returns them and whether
some are left. -/
def popEarlyTerminations (d : DeadlineState) (maxPartitions maxSectors : Nat) :
    Except String (DeadlineState × TerminationResult × Bool) := do
  let w ← Loop.forWhile (terminationStep maxPartitions maxSectors) ⟨d.partitions, [], .new⟩
    (d.earlyTerminations.sort (· ≤ ·))
  -- finished partitions are unset in the index
  let earlyTerminations := d.earlyTerminations \ w.partitionsFinished.toFinset
  return ({ d with partitions := w.partitions, earlyTerminations }, w.result,
    !decide (earlyTerminations = ∅))

/-! ## Terminations, faults and recoveries -/

/-- One partition of `terminate_sectors`: its sectors are terminated, the
partition is marked when sectors left it, and the totals lose them. Returns
the active power lost so far. -/
def terminateStep (addressedSectorsMax : Nat) (sectors : OrdMap Nat SectorOnChainInfo)
    (epoch : Int) (sectorSize : Nat) (quant : QuantSpec) (acc : DeadlineState × PowerPair)
    (e : Nat × Finset Nat) : Except String (DeadlineState × PowerPair) := do
  let partitionIdx := e.1
  let partition ← match acc.1.partitions.get? partitionIdx with
    | some partition => pure partition
    | none => throw s!"failed to find partition {partitionIdx}"
  let (partition, removed, removedUnproven) ←
    (partition.terminateSectors addressedSectorsMax sectors epoch e.2 sectorSize quant).mapError
      (wrap s!"failed to terminate sectors in partition {partitionIdx}")
  let d := { acc.1 with partitions := acc.1.partitions.set partitionIdx partition }
  let d ← if !removed.isEmpty then do
      -- the partition now has pending early terminations
      let liveSectors ← subU64 d.liveSectors removed.len
      pure { d with earlyTerminations := insert partitionIdx d.earlyTerminations, liveSectors }
    else pure d
  let d := { d with
    faultyPower := d.faultyPower - removed.faultyPower
    livePower := d.livePower - removed.activePower - removed.faultyPower - removedUnproven
    dailyFee := d.dailyFee - removed.feeDeduction }
  return (d, acc.2 + removed.activePower)

/-- Terminates the sectors of each partition named. Returns the active power
lost. -/
def terminateSectors (d : DeadlineState) (addressedSectorsMax : Nat)
    (sectors : OrdMap Nat SectorOnChainInfo) (epoch : Int) (partitionSectors : OrdMap Nat (Finset Nat))
    (sectorSize : Nat) (quant : QuantSpec) : Except String (DeadlineState × PowerPair) :=
  partitionSectors.entries.foldlM (terminateStep addressedSectorsMax sectors epoch sectorSize quant)
    (d, 0)

/-- One partition of `record_faults`. Carries the partitions with new faults
and the power delta so far. -/
def faultStep (sectors : OrdMap Nat SectorOnChainInfo) (sectorSize : Nat) (quant : QuantSpec)
    (faultExpirationEpoch : Int) (acc : DeadlineState × List Nat × PowerPair) (e : Nat × Finset Nat) :
    Except String (DeadlineState × List Nat × PowerPair) := do
  let partitionIdx := e.1
  let partition ← match acc.1.partitions.get? partitionIdx with
    | some partition => pure partition
    | none => throw s!"no such partition {partitionIdx}"
  let (partition, newFaults, partitionPowerDelta, partitionNewFaultyPower) ←
    (partition.recordFaults sectors e.2 faultExpirationEpoch sectorSize quant).mapError
      (wrap s!"failed to declare faults in partition {partitionIdx}")
  let d := { acc.1 with
    partitions := acc.1.partitions.set partitionIdx partition
    faultyPower := acc.1.faultyPower + partitionNewFaultyPower }
  let partitionsWithFault := if newFaults ≠ ∅ then acc.2.1 ++ [partitionIdx] else acc.2.1
  return (d, partitionsWithFault, acc.2.2 + partitionPowerDelta)

/-- Declares faults in the partitions named, and queues the partitions with
new faults at the fault expiration. Returns the power delta. -/
def recordFaults (d : DeadlineState) (sectors : OrdMap Nat SectorOnChainInfo) (sectorSize : Nat)
    (quant : QuantSpec) (faultExpirationEpoch : Int) (partitionSectors : OrdMap Nat (Finset Nat)) :
    Except String (DeadlineState × PowerPair) := do
  let (d, partitionsWithFault, powerDelta) ← partitionSectors.entries.foldlM
    (faultStep sectors sectorSize quant faultExpirationEpoch) (d, [], 0)
  let d ← (d.addExpirationPartitions faultExpirationEpoch partitionsWithFault quant).mapError
    (wrap "failed to update expirations for partitions with faults")
  return (d, powerDelta)

/-- One partition of `declare_faults_recovered`. -/
def recoverStep (sectors : OrdMap Nat SectorOnChainInfo) (sectorSize : Nat) (d : DeadlineState)
    (e : Nat × Finset Nat) : Except String DeadlineState := do
  let partitionIdx := e.1
  let partition ← match d.partitions.get? partitionIdx with
    | some partition => pure partition
    | none => throw s!"no such partition {partitionIdx}"
  let partition ← (partition.declareFaultsRecovered sectors sectorSize e.2).mapError
    (wrap "failed to add recoveries")
  return { d with partitions := d.partitions.set partitionIdx partition }

/-- Declares recoveries in the partitions named. Power comes back only when a
proof confirms them. -/
def declareFaultsRecovered (d : DeadlineState) (sectors : OrdMap Nat SectorOnChainInfo)
    (sectorSize : Nat) (partitionSectors : OrdMap Nat (Finset Nat)) : Except String DeadlineState :=
  partitionSectors.entries.foldlM (recoverStep sectors sectorSize) d

/-! ## Adding sectors -/

/-- What the loop of `add_sectors` carries: the partitions, the sectors still
to add, the totals so far, and the expiration of each sector added with its
partition. -/
structure AddWalk where
  partitions : OrdMap Nat Partition
  sectors : List SectorOnChainInfo
  totalPower : PowerPair
  totalDailyFee : Int
  partitionDeadlineUpdates : List (Int × Nat)

/-- The loop of `add_sectors` from the partition at `partitionIdx` on: a full
partition is skipped, any other, created past the last, takes sectors up to
`partitionSize`, until none are left. The loop itself is unbounded; `fuel`
bounds its turns, and when it runs out the message has run out of gas. -/
def addLoop (partitionSize : Nat) (proven newFees : Bool) (sectorSize : Nat) (quant : QuantSpec) :
    Nat → Nat → AddWalk → Except String AddWalk
  | 0, _, _ => .error "out of gas"
  | fuel + 1, partitionIdx, w =>
    -- get or create the partition to update
    let partition := (w.partitions.get? partitionIdx).getD Partition.new
    let sectorCount := partition.sectors.card
    if sectorCount ≥ partitionSize then
      addLoop partitionSize proven newFees sectorSize quant fuel (partitionIdx + 1) w
    else do
      let size := min (partitionSize - sectorCount) w.sectors.length
      let partitionNewSectors := w.sectors.take size
      let (partition, partitionPower, partitionDailyFee) ←
        partition.addSectors proven partitionNewSectors sectorSize quant
      let w : AddWalk := {
        partitions := w.partitions.set partitionIdx partition
        sectors := w.sectors.drop size
        totalPower := w.totalPower + partitionPower
        totalDailyFee := if newFees then w.totalDailyFee + partitionDailyFee else w.totalDailyFee
        partitionDeadlineUpdates :=
          w.partitionDeadlineUpdates ++ partitionNewSectors.map fun s => (s.expiration, partitionIdx) }
      if w.sectors.isEmpty then .ok w
      else addLoop partitionSize proven newFees sectorSize quant fuel (partitionIdx + 1) w

/-- Adds sectors, filling the last partition first, and queues each new
sector's partition at its expiration. Returns the power and the daily fee
added; the fee counts only for sectors new to the miner. -/
def addSectors (d : DeadlineState) (partitionSize : Nat) (proven newFees : Bool)
    (sectors : List SectorOnChainInfo) (sectorSize : Nat) (quant : QuantSpec) :
    Except String (DeadlineState × PowerPair × Int) := do
  if sectors.isEmpty then return (d, 0, 0)
  let d := { d with
    liveSectors := d.liveSectors + sectors.length
    totalSectors := d.totalSectors + sectors.length }
  -- each turn skips one of the partitions or adds at least one sector
  let w ← addLoop partitionSize proven newFees sectorSize quant
    (d.partitions.count + sectors.length + 1) (d.partitions.count - 1) ⟨d.partitions, sectors, 0, 0, []⟩
  let deadlineExpirations ←
    ((d.expirationQueue quant).addManyToQueueValues w.partitionDeadlineUpdates).mapError
      (wrap "failed to add expirations for new deadlines")
  let d := { d with
    partitions := w.partitions
    expirationsEpochs := deadlineExpirations.amt
    dailyFee := d.dailyFee + w.totalDailyFee
    livePower := d.livePower + w.totalPower }
  return (d, w.totalPower, w.totalDailyFee)

end DeadlineState

end BuiltinActors.Miner
