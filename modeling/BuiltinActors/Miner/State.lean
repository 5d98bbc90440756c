import BuiltinActors.Lib.OrdMap
import BuiltinActors.Lib.Run
import BuiltinActors.Miner.Sector
import BuiltinActors.Miner.Vesting

/-! # Miner state: funds and vesting

The miner's state record and its funds methods. Content-addressed fields are
replaced by what they address: the pre-commit HAMT and the sectors AMT by
key-ordered maps, bitfields by finite sets. The miner info and the deadlines
are not part of this record.

Every method returns the new state or the message of the error it fails
with; a failed method aborts its transaction, so the state it had mutated on
the way is dropped.

`locked_funds` and `vesting_funds` are written by `addLockedFunds`,
`unlockVestedFunds` and `unlockVestedAndUnvestedFunds` only. Over every run
of these, `locked_funds` is the total of the loaded table (`FundsInv`). -/

namespace BuiltinActors.Miner

open MergeJoin

structure State where
  preCommitDeposits : Int
  lockedFunds : Int
  vestingFunds : VestingFunds
  feeDebt : Int
  initialPledge : Int
  preCommittedSectors : OrdMap Nat SectorPreCommitOnChainInfo
  preCommittedSectorsCleanup : OrdMap Int (Finset Nat)
  allocatedSectors : Finset Nat
  sectors : OrdMap Nat SectorOnChainInfo
  provingPeriodStart : Int
  currentDeadline : Nat
  earlyTerminations : Finset Nat
  deadlineCronActive : Bool

namespace State

def new (periodStart : Int) (deadlineIdx : Nat) : State where
  preCommitDeposits := 0
  lockedFunds := 0
  vestingFunds := VestingFunds.new
  feeDebt := 0
  initialPledge := 0
  preCommittedSectors := OrdMap.empty
  preCommittedSectorsCleanup := OrdMap.empty
  allocatedSectors := ∅
  sectors := OrdMap.empty
  provingPeriodStart := periodStart
  currentDeadline := deadlineIdx
  earlyTerminations := ∅
  deadlineCronActive := false

/-- Whether the miner still needs deadline crons. -/
def continueDeadlineCron (st : State) : Bool :=
  st.preCommitDeposits != 0 || st.initialPledge != 0 || st.lockedFunds != 0

def addPreCommitDeposit (st : State) (amount : Int) : Except String State :=
  let newTotal := st.preCommitDeposits + amount
  let prior := st.preCommitDeposits
  if newTotal < 0 then
    .error s!"negative pre-commit deposit {newTotal} after adding {amount} to prior {prior}"
  else .ok { st with preCommitDeposits := newTotal }

def addInitialPledge (st : State) (amount : Int) : Except String State :=
  let newTotal := st.initialPledge + amount
  let prior := st.initialPledge
  if newTotal < 0 then
    .error s!"negative initial pledge requirement {newTotal} after adding {amount} to prior {prior}"
  else .ok { st with initialPledge := newTotal }

def applyPenalty (st : State) (penalty : Int) : Except String State :=
  if penalty < 0 then .error s!"applying negative penalty {penalty} not allowed"
  else .ok { st with feeDebt := st.feeDebt + penalty }

/-- First vests and unlocks the vested funds, then locks `vestingSum` in the
table; returns the new state and the amount unlocked. -/
def addLockedFunds (st : State) (currentEpoch vestingSum : Int) (spec : VestSpec) :
    Except String (State × Int) :=
  if vestingSum < 0 then .error s!"negative vesting sum {vestingSum}"
  else
    let (vestingFunds, amountUnlocked) :=
      st.vestingFunds.addLockedFunds currentEpoch vestingSum st.provingPeriodStart spec
    -- none of the new funds should unlock, so this stays non-negative
    let lockedFunds := st.lockedFunds - amountUnlocked
    if lockedFunds < 0 then
      .error s!"negative locked funds {lockedFunds} after unlocking {amountUnlocked}"
    else .ok ({ st with vestingFunds, lockedFunds := lockedFunds + vestingSum }, amountUnlocked)

/-- Unlocks all vested funds and then up to `target` of the unvested ones,
soonest first. Returns the new state, the unvested amount unlocked and the
total unlocked. -/
def unlockVestedAndUnvestedFunds (st : State) (currentEpoch target : Int) :
    Except String (State × Int × Int) :=
  if target = 0 ∨ st.lockedFunds = 0 then .ok (st, 0, 0)
  else
    let (vestingFunds, unlockedVested, unlockedUnvested) :=
      st.vestingFunds.unlockVestedAndUnvestedFunds currentEpoch target
    let totalUnlocked := unlockedVested + unlockedUnvested
    let lockedFunds := st.lockedFunds - totalUnlocked
    if lockedFunds < 0 then
      .error s!"negative locked funds {lockedFunds} after unlocking {totalUnlocked}"
    else .ok ({ st with vestingFunds, lockedFunds }, unlockedUnvested, totalUnlocked)

/-- Unlocks the funds vested before `currentEpoch`; returns the amount. -/
def unlockVestedFunds (st : State) (currentEpoch : Int) : Except String (State × Int) :=
  if st.lockedFunds = 0 then .ok (st, 0)
  else
    let (vestingFunds, amountUnlocked) := st.vestingFunds.unlockVestedFunds currentEpoch
    let lockedFunds := st.lockedFunds - amountUnlocked
    if lockedFunds < 0 then
      .error s!"vesting cause locked funds to become negative: {lockedFunds}"
    else .ok ({ st with vestingFunds, lockedFunds }, amountUnlocked)

/-- Unclaimed funds that are not locked, the pledge included. -/
def getUnlockedBalance (st : State) (actorBalance : Int) : Except String Int :=
  let unlockedBalance := actorBalance - st.lockedFunds - st.preCommitDeposits - st.initialPledge
  if unlockedBalance < 0 then .error s!"negative unlocked balance {unlockedBalance}"
  else .ok unlockedBalance

def getAvailableBalance (st : State) (actorBalance : Int) : Except String Int := do
  let unlockedBalance ← st.getUnlockedBalance actorBalance
  return unlockedBalance - st.feeDebt

/-- Draws on the vesting table and then the unlocked balance to repay up to
the fee debt. Returns the new state, the amount to burn and the total
unlocked from the table. -/
def repayPartialDebtInPriorityOrder (st : State) (currentEpoch currBalance : Int) :
    Except String (State × Int × Int) := do
  let feeDebt := st.feeDebt
  let (st, fromVesting, totalUnlocked) ← st.unlockVestedAndUnvestedFunds currentEpoch feeDebt
  if fromVesting > st.feeDebt then
    throw "should never unlock more than the debt we need to repay"
  let unlockedBalance ← st.getUnlockedBalance currBalance
  let toBurn := min unlockedBalance st.feeDebt
  return ({ st with feeDebt := st.feeDebt - toBurn }, toBurn, totalUnlocked)

/-- Repays the whole fee debt from the unlocked balance; returns the amount
to burn. -/
def repayDebts (st : State) (currBalance : Int) : Except String (State × Int) := do
  let unlockedBalance ← st.getUnlockedBalance currBalance
  let feeDebt := st.feeDebt
  if unlockedBalance < feeDebt then
    throw s!"unlocked balance can not repay fee debt ({unlockedBalance} < {feeDebt})"
  return ({ st with feeDebt := 0 }, feeDebt)

def checkBalanceInvariants (st : State) (balance : Int) : Except String Unit := do
  let preCommitDeposits := st.preCommitDeposits
  let lockedFunds := st.lockedFunds
  let initialPledge := st.initialPledge
  let feeDebt := st.feeDebt
  if preCommitDeposits < 0 then throw s!"pre-commit deposit is negative: {preCommitDeposits}"
  if lockedFunds < 0 then throw s!"locked funds is negative: {lockedFunds}"
  if initialPledge < 0 then throw s!"initial pledge is negative: {initialPledge}"
  if feeDebt < 0 then throw s!"fee debt is negative: {feeDebt}"
  let minBalance := preCommitDeposits + lockedFunds + initialPledge
  if balance < minBalance then throw s!"balance {balance} below minimum {minBalance}"

end State

/-! ## The vesting table over runs -/

/-- The three state methods that write `locked_funds` and `vesting_funds`. -/
inductive FundsCall
  | addLockedFunds (currentEpoch vestingSum : Int) (spec : VestSpec)
  | unlockVestedFunds (currentEpoch : Int)
  | unlockVestedAndUnvestedFunds (currentEpoch target : Int)

/-- What a call adds to the table. -/
def FundsCall.vestingSum : FundsCall → Int
  | .addLockedFunds _ vestingSum _ => vestingSum
  | _ => 0

/-- A call, returning the state and the total it unlocked. -/
def State.fundsStep (st : State) : FundsCall → Except String (State × Int)
  | .addLockedFunds e vestingSum spec => st.addLockedFunds e vestingSum spec
  | .unlockVestedFunds e => st.unlockVestedFunds e
  | .unlockVestedAndUnvestedFunds e target =>
    (st.unlockVestedAndUnvestedFunds e target).map fun (st', _, totalUnlocked) => (st', totalUnlocked)

/-- The funds of a freshly constructed miner. -/
def State.FundsInitial (st : State) : Prop :=
  st.lockedFunds = 0 ∧ st.vestingFunds = VestingFunds.new

/-- `locked_funds` is the total of a valid table. -/
structure State.FundsInv (st : State) : Prop where
  valid : st.vestingFunds.Valid
  locked : st.lockedFunds = total st.vestingFunds.load

namespace State

open VestingFunds

variable {st st' : State}

theorem fundsInv_of_initial (h : st.FundsInitial) : st.FundsInv := by
  obtain ⟨h₁, h₂⟩ := h
  refine ⟨h₂ ▸ valid_new, ?_⟩
  rw [h₁, h₂]
  rfl

/-- Under the invariant a zero total means every loaded entry is zero. -/
theorem FundsInv.vestedBy_eq_zero (hi : st.FundsInv) (h0 : st.lockedFunds = 0) (e : Int) :
    vestedBy st.vestingFunds.load e = 0 := by
  obtain ⟨h₁, h₂⟩ := vestedBy_nonneg_le_total hi.valid.load_nonneg e
  rw [← hi.locked, h0] at h₂
  exact le_antisymm h₂ h₁

theorem addLockedFunds_spec (hi : st.FundsInv) {e vestingSum u : Int} {spec : VestSpec}
    (h : st.addLockedFunds e vestingSum spec = .ok (st', u)) :
    st'.FundsInv ∧ u = st.lockedFunds + vestingSum - st'.lockedFunds := by
  unfold addLockedFunds at h
  rcases hv : st.vestingFunds.addLockedFunds e vestingSum st.provingPeriodStart spec with ⟨v', u'⟩
  rw [hv] at h
  dsimp only at h
  split_ifs at h with hneg hlock
  simp only [Except.ok.injEq, Prod.mk.injEq] at h
  obtain ⟨rfl, rfl⟩ := h
  obtain ⟨hvalid, htot, -⟩ := VestingFunds.addLockedFunds_spec hi.valid (not_lt.mp hneg) hv
  refine ⟨⟨hvalid, ?_⟩, ?_⟩
  · simp only
    rw [hi.locked] at hlock ⊢
    linarith
  · simp only
    ring

theorem unlockVestedFunds_spec (hi : st.FundsInv) {e u : Int}
    (h : st.unlockVestedFunds e = .ok (st', u)) :
    st'.FundsInv ∧ u = st.lockedFunds - st'.lockedFunds ∧ u = vestedBy st.vestingFunds.load e := by
  unfold unlockVestedFunds at h
  split_ifs at h with h0
  · -- nothing is locked: the table is all zeros and stays as it is
    simp only [Except.ok.injEq, Prod.mk.injEq] at h
    obtain ⟨rfl, rfl⟩ := h
    exact ⟨hi, by ring, (hi.vestedBy_eq_zero h0 e).symm⟩
  · rcases hv : st.vestingFunds.unlockVestedFunds e with ⟨v', u'⟩
    rw [hv] at h
    dsimp only at h
    split_ifs at h with hlock
    simp only [Except.ok.injEq, Prod.mk.injEq] at h
    obtain ⟨rfl, rfl⟩ := h
    obtain ⟨hvalid, hu, htot⟩ := VestingFunds.unlockVestedFunds_spec hi.valid hv
    refine ⟨⟨hvalid, ?_⟩, by simp only; ring, hu⟩
    simp only
    rw [hi.locked]
    linarith

theorem unlockVestedAndUnvestedFunds_spec (hi : st.FundsInv) {e target unvested total' : Int}
    (h : st.unlockVestedAndUnvestedFunds e target = .ok (st', unvested, total')) :
    st'.FundsInv ∧ total' = st.lockedFunds - st'.lockedFunds := by
  unfold unlockVestedAndUnvestedFunds at h
  split_ifs at h with h0
  · simp only [Except.ok.injEq, Prod.mk.injEq] at h
    obtain ⟨rfl, -, rfl⟩ := h
    exact ⟨hi, by ring⟩
  · rcases hv : st.vestingFunds.unlockVestedAndUnvestedFunds e target with ⟨v', vested, unvested'⟩
    rw [hv] at h
    dsimp only at h
    split_ifs at h with hlock
    simp only [Except.ok.injEq, Prod.mk.injEq] at h
    obtain ⟨rfl, -, rfl⟩ := h
    obtain ⟨hvalid, htot⟩ := VestingFunds.unlockVestedAndUnvestedFunds_spec hi.valid hv
    refine ⟨⟨hvalid, ?_⟩, by simp only; ring⟩
    simp only
    rw [hi.locked]
    linarith

/-- One call keeps the invariant, and what it unlocks is what left the
locked total. -/
theorem fundsStep_spec (hi : st.FundsInv) {call : FundsCall} {u : Int}
    (h : st.fundsStep call = .ok (st', u)) :
    st'.FundsInv ∧ u = st.lockedFunds + call.vestingSum - st'.lockedFunds := by
  cases call with
  | addLockedFunds e vestingSum spec => exact addLockedFunds_spec hi h
  | unlockVestedFunds e =>
    obtain ⟨hi', hu, -⟩ := unlockVestedFunds_spec hi h
    exact ⟨hi', by simp only [FundsCall.vestingSum]; linarith⟩
  | unlockVestedAndUnvestedFunds e target =>
    simp only [fundsStep] at h
    rcases hr : st.unlockVestedAndUnvestedFunds e target with _ | ⟨st₁, unvested, total'⟩
    · rw [hr] at h
      cases h
    · rw [hr] at h
      simp only [Except.map, Except.ok.injEq, Prod.mk.injEq] at h
      obtain ⟨rfl, rfl⟩ := h
      obtain ⟨hi', hu⟩ := unlockVestedAndUnvestedFunds_spec hi hr
      exact ⟨hi', by simp only [FundsCall.vestingSum]; linarith⟩

theorem fundsInv_of_reachable (h : Run.Reachable fundsStep FundsInitial st) : st.FundsInv :=
  h.rec_inv (fun _ hs => fundsInv_of_initial hs) fun _ _ _ _ hi hst => (fundsStep_spec hi hst).1

end State

end BuiltinActors.Miner
