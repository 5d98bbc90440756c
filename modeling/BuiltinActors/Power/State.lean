import BuiltinActors.Lib.OrdMap
import BuiltinActors.Lib.EStateM
import BuiltinActors.Runtime
import BuiltinActors.Runtime.Smooth

/-! # Storage power state

The power actor's state: each miner's claimed power, the network totals kept
beside the claims, and the queue of cron events the miners enrolled. The
claims map and the cron queue are ordered maps, by miner address and by
epoch; each event list keeps the order the events were added in.

The state methods write the state in place and may fail after some of their
writes (`EStateM`): inside a transaction a failure drops every write, but
where the caller only logs the error, the writes before it stay. Powers,
counts and epochs are unbounded integers. -/

namespace BuiltinActors.Power

inductive RegisteredPoStProof
  | stackedDRGWinning2KiBV1
  | stackedDRGWinning8MiBV1
  | stackedDRGWinning512MiBV1
  | stackedDRGWinning32GiBV1
  | stackedDRGWinning64GiBV1
  | stackedDRGWindow2KiBV1P1
  | stackedDRGWindow8MiBV1P1
  | stackedDRGWindow512MiBV1P1
  | stackedDRGWindow32GiBV1P1
  | stackedDRGWindow64GiBV1P1
  | invalid (code : Int)
deriving DecidableEq, Repr

/-- The network policy value the power actor reads. -/
structure Policy where
  minimumConsensusPower : Int

def consensusMinerMinMiners : Int := 4

/-- The minimum storage power for each PoSt proof type. -/
def consensusMinerMinPower (policy : Policy) : RegisteredPoStProof → Except String Int
  | .invalid i => .error s!"unsupported proof type: {i}"
  | _ => .ok policy.minimumConsensusPower

theorem consensusMinerMinPower_ok {policy : Policy} {p : RegisteredPoStProof} {minPower : Int}
    (h : consensusMinerMinPower policy p = .ok minPower) : minPower = policy.minimumConsensusPower := by
  cases p <;> simp [consensusMinerMinPower] at h <;> exact h.symm

structure Claim where
  windowPostProofType : RegisteredPoStProof
  rawBytePower : Int
  qualityAdjPower : Int
deriving DecidableEq, Repr

structure CronEvent where
  minerAddr : Address
  callbackPayload : List UInt8
deriving DecidableEq, Repr

/-- Genesis power, 750,000 GiB, and the largest power added per epoch,
3,840 GiB: the starting point of the smoothed power estimate. -/
def initialQaPowerEstimatePosition : Int := 750000 * 2 ^ 30
def initialQaPowerEstimateVelocity : Int := 3840 * 2 ^ 30

structure State where
  totalRawBytePower : Int
  totalBytesCommitted : Int
  totalQualityAdjPower : Int
  totalQaBytesCommitted : Int
  totalPledgeCollateral : Int
  thisEpochRawBytePower : Int
  thisEpochQualityAdjPower : Int
  thisEpochPledgeCollateral : Int
  thisEpochQaPowerSmoothed : FilterEstimate
  minerCount : Int
  minerAboveMinPowerCount : Int
  cronEventQueue : OrdMap Int (List CronEvent)
  firstCronEpoch : Int
  claims : OrdMap Address Claim

namespace State

def new : State where
  totalRawBytePower := 0
  totalBytesCommitted := 0
  totalQualityAdjPower := 0
  totalQaBytesCommitted := 0
  totalPledgeCollateral := 0
  thisEpochRawBytePower := 0
  thisEpochQualityAdjPower := 0
  thisEpochPledgeCollateral := 0
  thisEpochQaPowerSmoothed :=
    FilterEstimate.new initialQaPowerEstimatePosition initialQaPowerEstimateVelocity
  minerCount := 0
  minerAboveMinPowerCount := 0
  cronEventQueue := OrdMap.empty
  firstCronEpoch := 0
  claims := OrdMap.empty

/-- Writes a claim; a negative power is refused before anything is written. -/
def setClaim (a : Address) (claim : Claim) : EStateM ActorError State Unit := do
  if claim.rawBytePower < 0 then
    throw (.illegalState s!"negative claim raw power {claim.rawBytePower}")
  if claim.qualityAdjPower < 0 then
    throw (.illegalState s!"negative claim quality-adjusted power {claim.qualityAdjPower}")
  modify fun st => { st with claims := st.claims.set a claim }

/-- Adds power to a miner's claim and moves the network totals with it. The
committed totals change first; the totals of miners above the consensus
minimum change by the case the claim falls in, before the checks that may
still fail. -/
def addToClaim (policy : Policy) (miner : Address) (power qaPower : Int) :
    EStateM ActorError State Unit := do
  let some oldClaim := (← get).claims.get? miner
    | throw (.notFound s!"no claim for actor {miner}")
  modify fun st => { st with
    totalQaBytesCommitted := st.totalQaBytesCommitted + qaPower
    totalBytesCommitted := st.totalBytesCommitted + power }
  let newClaim : Claim := {
    rawBytePower := oldClaim.rawBytePower + power
    qualityAdjPower := oldClaim.qualityAdjPower + qaPower
    windowPostProofType := oldClaim.windowPostProofType }
  let minPower ← match consensusMinerMinPower policy oldClaim.windowPostProofType with
    | .ok minPower => pure minPower
    | .error e => throw (.illegalState e)
  let prevBelow := decide (oldClaim.rawBytePower < minPower)
  let stillBelow := decide (newClaim.rawBytePower < minPower)
  if prevBelow && !stillBelow then
    -- just passed min miner size
    modify fun st => { st with
      minerAboveMinPowerCount := st.minerAboveMinPowerCount + 1
      totalQualityAdjPower := st.totalQualityAdjPower + newClaim.qualityAdjPower
      totalRawBytePower := st.totalRawBytePower + newClaim.rawBytePower }
  else if !prevBelow && stillBelow then
    -- just went below min miner size
    modify fun st => { st with
      minerAboveMinPowerCount := st.minerAboveMinPowerCount - 1
      totalQualityAdjPower := st.totalQualityAdjPower - oldClaim.qualityAdjPower
      totalRawBytePower := st.totalRawBytePower - oldClaim.rawBytePower }
  else if !prevBelow && !stillBelow then
    -- was above the threshold, still above
    modify fun st => { st with
      totalQualityAdjPower := st.totalQualityAdjPower + qaPower
      totalRawBytePower := st.totalRawBytePower + power }
  if newClaim.rawBytePower < 0 then
    throw (.illegalState s!"negative claimed raw byte power: {newClaim.rawBytePower}")
  if newClaim.qualityAdjPower < 0 then
    throw (.illegalState s!"negative claimed quality adjusted power: {newClaim.qualityAdjPower}")
  let count := (← get).minerAboveMinPowerCount
  if count < 0 then
    throw (.illegalState s!"negative amount of miners lather than min: {count}")
  setClaim miner newClaim

def addPledgeTotal (amount : Int) (st : State) : State :=
  { st with totalPledgeCollateral := st.totalPledgeCollateral + amount }

/-- Adds an event to an epoch's list, moving the first cron epoch back to it
if it is earlier. -/
def appendCronEvent (epoch : Int) (event : CronEvent) (st : State) : State :=
  { st with
    firstCronEpoch := if epoch < st.firstCronEpoch then epoch else st.firstCronEpoch
    cronEventQueue := st.cronEventQueue.set epoch ((st.cronEventQueue.get? epoch).getD [] ++ [event]) }

/-- The raw and quality-adjusted totals: those of miners above the minimum
once enough miners are, the committed ones before. -/
def currentTotalPower (st : State) : Int × Int :=
  if st.minerAboveMinPowerCount < consensusMinerMinMiners then
    (st.totalBytesCommitted, st.totalQaBytesCommitted)
  else
    (st.totalRawBytePower, st.totalQualityAdjPower)

def updateSmoothedEstimate (delta : Int) (st : State) : State :=
  let filterQaPower := AlphaBetaFilter.load st.thisEpochQaPowerSmoothed defaultAlpha defaultBeta
  { st with
    thisEpochQaPowerSmoothed := filterQaPower.nextEstimate st.thisEpochQualityAdjPower delta }

/-- A new miner counts as above the minimum at once when the minimum is not
positive. -/
def updateStatsForNewMiner (policy : Policy) (windowPostProof : RegisteredPoStProof)
    (st : State) : Except String State := do
  let minPower ← consensusMinerMinPower policy windowPostProof
  if !(0 < minPower) then
    return { st with minerAboveMinPowerCount := st.minerAboveMinPowerCount + 1 }
  return st

def validateMinerHasClaim (st : State) (minerAddr : Address) : Except ActorError Unit :=
  if (st.claims.get? minerAddr).isNone then
    throw (.forbidden s!"unknown miner {minerAddr} forbidden to interact with power actor")
  else pure ()

/-- Removes a miner's claim and its power. A miner without a claim is left as
it is, and the call succeeds. -/
def deleteClaim (policy : Policy) (miner : Address) : EStateM String State Unit := do
  let some claim := (← get).claims.get? miner
    | return
  -- subtract from stats to remove power
  (addToClaim policy miner (-claim.rawBytePower) (-claim.qualityAdjPower)).adaptExcept
    fun e => s!"subtract miner power before deleting claim: {e.msg}"
  let some _ := (← get).claims.get? miner
    | throw s!"failed to delete claim for {miner}: doesn't exist"
  modify fun st => { st with claims := st.claims.erase miner }

/-! ## What the state methods do -/

variable {policy : Policy} {miner : Address} {power qaPower : Int} {st : State}

theorem addToClaim_of_get?_none (hc : st.claims.get? miner = none) :
    addToClaim policy miner power qaPower st = .error (.notFound s!"no claim for actor {miner}") st := by
  simp [addToClaim, hc]

/-- The totals once the claim `oldClaim` has become `newClaim`: the committed
totals move by the difference, and the totals of the miners at the minimum
lose the old claim's share and gain the new one's, where a claim has a share
when it reaches `minPower`. -/
def claimMoved (minPower : Int) (oldClaim newClaim : Claim) (st : State) : State :=
  let share (c : Claim) (x : Int) : Int := if minPower ≤ c.rawBytePower then x else 0
  { st with
    totalBytesCommitted := st.totalBytesCommitted + (newClaim.rawBytePower - oldClaim.rawBytePower)
    totalQaBytesCommitted :=
      st.totalQaBytesCommitted + (newClaim.qualityAdjPower - oldClaim.qualityAdjPower)
    minerAboveMinPowerCount := st.minerAboveMinPowerCount - share oldClaim 1 + share newClaim 1
    totalRawBytePower := st.totalRawBytePower - share oldClaim oldClaim.rawBytePower
      + share newClaim newClaim.rawBytePower
    totalQualityAdjPower := st.totalQualityAdjPower - share oldClaim oldClaim.qualityAdjPower
      + share newClaim newClaim.qualityAdjPower }

/-- The three branches of `addToClaim` on crossing the consensus minimum come
to one rule, `claimMoved`. -/
theorem addToClaim_eq {oldClaim : Claim} {minPower : Int}
    (hc : st.claims.get? miner = some oldClaim)
    (hp : consensusMinerMinPower policy oldClaim.windowPostProofType = .ok minPower) :
    addToClaim policy miner power qaPower st =
      let newClaim : Claim := { oldClaim with
        rawBytePower := oldClaim.rawBytePower + power
        qualityAdjPower := oldClaim.qualityAdjPower + qaPower }
      let st₁ := st.claimMoved minPower oldClaim newClaim
      if newClaim.rawBytePower < 0 then
        .error (.illegalState s!"negative claimed raw byte power: {newClaim.rawBytePower}") st₁
      else if newClaim.qualityAdjPower < 0 then
        .error (.illegalState
          s!"negative claimed quality adjusted power: {newClaim.qualityAdjPower}") st₁
      else if st₁.minerAboveMinPowerCount < 0 then
        .error (.illegalState
          s!"negative amount of miners lather than min: {st₁.minerAboveMinPowerCount}") st₁
      else .ok () { st₁ with claims := st.claims.set miner newClaim } := by
  -- one case per branch of the source: below or above the minimum, before and after
  rcases lt_or_ge oldClaim.rawBytePower minPower with h₁ | h₁ <;>
    rcases lt_or_ge (oldClaim.rawBytePower + power) minPower with h₂ | h₂
  · simp [addToClaim, setClaim, claimMoved, hc, hp, h₁, h₂, h₁.not_ge, h₂.not_ge]
    split_ifs <;> simp_all
  · simp [addToClaim, setClaim, claimMoved, hc, hp, h₁, h₂, h₁.not_ge]
    split_ifs <;> simp_all
  · simp [addToClaim, setClaim, claimMoved, hc, hp, h₁, h₂, h₁.not_gt, h₂.not_ge]
    split_ifs <;> simp_all
  · simp [addToClaim, setClaim, claimMoved, hc, hp, h₁, h₂, h₁.not_gt, h₂.not_gt]
    split_ifs <;> simp_all <;> omega

/-- A successful `addToClaim` passed its checks and wrote the moved claim. -/
theorem addToClaim_ok {st' : State} {oldClaim : Claim} {minPower : Int}
    (hc : st.claims.get? miner = some oldClaim)
    (hp : consensusMinerMinPower policy oldClaim.windowPostProofType = .ok minPower)
    (h : addToClaim policy miner power qaPower st = .ok () st') :
    let newClaim : Claim := { oldClaim with
      rawBytePower := oldClaim.rawBytePower + power
      qualityAdjPower := oldClaim.qualityAdjPower + qaPower }
    0 ≤ newClaim.rawBytePower ∧ 0 ≤ newClaim.qualityAdjPower ∧
      st' = { st.claimMoved minPower oldClaim newClaim with
        claims := st.claims.set miner newClaim } := by
  rw [addToClaim_eq hc hp] at h
  dsimp only at h ⊢
  by_cases hr : oldClaim.rawBytePower + power < 0
  · rw [if_pos hr] at h
    cases h
  rw [if_neg hr] at h
  by_cases hq : oldClaim.qualityAdjPower + qaPower < 0
  · rw [if_pos hq] at h
    cases h
  rw [if_neg hq] at h
  split at h
  · cases h
  · cases h
    exact ⟨not_lt.mp hr, not_lt.mp hq, rfl⟩

theorem deleteClaim_of_get?_none (hc : st.claims.get? miner = none) :
    deleteClaim policy miner st = .ok () st := by
  simp [deleteClaim, hc]

/-- Deleting a claim whose emptying passes `addToClaim`'s checks: the claim
moves to zero power and is erased. An emptied claim still has a share when
the minimum is not positive. -/
theorem deleteClaim_of_get?_some {claim : Claim} {minPower : Int}
    (hc : st.claims.get? miner = some claim)
    (hp : consensusMinerMinPower policy claim.windowPostProofType = .ok minPower)
    (hcount : 0 ≤ (st.claimMoved minPower claim
      { claim with rawBytePower := 0, qualityAdjPower := 0 }).minerAboveMinPowerCount) :
    deleteClaim policy miner st = .ok ()
      { st.claimMoved minPower claim { claim with rawBytePower := 0, qualityAdjPower := 0 } with
        claims := st.claims.erase miner } := by
  simp only [deleteClaim, EStateM.bind_apply, EStateM.get_apply, hc, EStateM.adaptExcept_apply]
  rw [addToClaim_eq hc hp]
  simp only [add_neg_cancel, lt_irrefl, if_false, not_lt.mpr hcount]
  simp [claimMoved]

end State

end BuiltinActors.Power
