import BuiltinActors.Reward.Logic
import BuiltinActors.Runtime

/-! # Reward state over epochs

The part of the reward actor's state that minting reads and writes
(`state.rs`), and `update_network_kpi`, which moves it on by an epoch for
each null round and then computes the next epoch's reward. Realized power
counts towards the cumulative sum only up to the epoch's baseline, and the
effective network time moves on while the realized sum passes the
baseline's. The smoothed estimate of the reward and the total storage power
reward are not modelled.

With no realized power the effective network time stays at zero, so an
epoch's reward is its simple part alone, which has the sign of
`expneg (lambda * epoch)`. -/

namespace BuiltinActors.Reward

/-- `EPOCH_UNDEFINED`. -/
def epochUndefined : Int := -1

structure State where
  cumsumBaseline : Int
  cumsumRealized : Int
  effectiveNetworkTime : Int
  effectiveBaselinePower : Int
  thisEpochReward : Int
  thisEpochBaselinePower : Int
  epoch : Int
  simpleTotal : Int
  baselineTotal : Int
deriving DecidableEq, Repr

namespace State

/-- One pass of the loop that moves the effective network time on. -/
def advanceEffectiveNetworkTime (st : State) : State :=
  let effectiveBaselinePower := baselinePowerFromPrev st.effectiveBaselinePower
  { st with
    effectiveNetworkTime := st.effectiveNetworkTime + 1
    effectiveBaselinePower := effectiveBaselinePower
    cumsumBaseline := st.cumsumBaseline + effectiveBaselinePower }

/-- `while self.cumsum_realized > self.cumsum_baseline`, for at most `fuel`
passes. -/
def catchUp : Nat → State → State
  | 0, st => st
  | fuel + 1, st =>
    if st.cumsumRealized > st.cumsumBaseline then catchUp fuel st.advanceEffectiveNetworkTime
    else st

/-- Given the passes the realized sum is ahead by, the loop stops where the
Rust loop does: at the first state whose realized sum no longer passes the
baseline's. -/
theorem catchUp_caught_up {st : State} {fuel : Nat} (hpos : 0 < st.effectiveBaselinePower)
    (hfuel : st.cumsumRealized - st.cumsumBaseline ≤ fuel) :
    (catchUp fuel st).cumsumRealized ≤ (catchUp fuel st).cumsumBaseline := by
  induction fuel generalizing st with
  | zero =>
    simp only [catchUp]
    omega
  | succ fuel ih =>
    simp only [catchUp]
    split
    · -- a pass adds the next baseline power, at least one, to the baseline's sum
      have hgrow := le_baselinePowerFromPrev (Int.le_of_lt hpos)
      apply ih
      · simp only [advanceEffectiveNetworkTime]
        omega
      · simp only [advanceEffectiveNetworkTime]
        omega
    · omega

/-- `update_to_next_epoch`. The loop is given as many passes as the realized
sum is ahead, which is enough: each pass adds at least one to the baseline's
sum (`catchUp_caught_up`). -/
def updateToNextEpoch (st : State) (currRealizedPower : Int) : State :=
  let st := { st with epoch := st.epoch + 1 }
  let st := { st with thisEpochBaselinePower := baselinePowerFromPrev st.thisEpochBaselinePower }
  let cappedRealizedPower := min st.thisEpochBaselinePower currRealizedPower
  let st := { st with cumsumRealized := st.cumsumRealized + cappedRealizedPower }
  catchUp (st.cumsumRealized - st.cumsumBaseline).toNat st

def updateToNextEpochWithReward (st : State) (currRealizedPower : Int) : State :=
  let prevRewardTheta := computeRTheta st.effectiveNetworkTime st.effectiveBaselinePower
    st.cumsumRealized st.cumsumBaseline
  let st := st.updateToNextEpoch currRealizedPower
  let currRewardTheta := computeRTheta st.effectiveNetworkTime st.effectiveBaselinePower
    st.cumsumRealized st.cumsumBaseline
  { st with
    thisEpochReward := computeReward st.epoch prevRewardTheta currRewardTheta st.simpleTotal
      st.baselineTotal }

/-- The state before `State::new` computes its first reward. -/
def init : State where
  cumsumBaseline := 0
  cumsumRealized := 0
  effectiveNetworkTime := 0
  effectiveBaselinePower := baselineInitialValue
  thisEpochReward := 0
  thisEpochBaselinePower := initBaselinePower
  epoch := epochUndefined
  simpleTotal := Reward.simpleTotal
  baselineTotal := Reward.baselineTotal

/-- `State::new`. -/
def new (currRealizedPower : Int) : State := init.updateToNextEpochWithReward currRealizedPower

/-- `while st.epoch < rt.curr_epoch()` of `update_network_kpi`, for at most
`fuel` null rounds. -/
def processNullRounds : Nat → State → Int → Int → State
  | 0, st, _, _ => st
  | fuel + 1, st, currEpoch, currRealizedPower =>
    if st.epoch < currEpoch then
      processNullRounds fuel (st.updateToNextEpoch currRealizedPower) currEpoch currRealizedPower
    else st

@[simp] theorem epoch_catchUp (fuel : Nat) (st : State) : (catchUp fuel st).epoch = st.epoch := by
  induction fuel generalizing st with
  | zero => rfl
  | succ fuel ih =>
    simp only [catchUp]
    split
    · exact ih _
    · rfl

@[simp] theorem epoch_updateToNextEpoch (st : State) (p : Int) :
    (st.updateToNextEpoch p).epoch = st.epoch + 1 := by
  simp only [updateToNextEpoch, epoch_catchUp]

/-- The null rounds bring the epoch up to the current one, in as many passes
as it is behind. -/
theorem processNullRounds_epoch (st : State) (currEpoch p : Int) :
    (processNullRounds (currEpoch - st.epoch).toNat st currEpoch p).epoch = max st.epoch currEpoch := by
  -- the induction is on the passes left, which is how far the epoch is behind
  generalize hfuel : (currEpoch - st.epoch).toNat = fuel
  induction fuel generalizing st with
  | zero =>
    simp only [processNullRounds]
    omega
  | succ fuel ih =>
    simp only [processNullRounds]
    split
    · rw [ih _ (by rw [epoch_updateToNextEpoch]; omega), epoch_updateToNextEpoch]
      omega
    · omega

/-- A state where nothing has been realized: the effective network time has
not moved from zero. -/
structure Idle (st : State) : Prop where
  cumsumRealized_eq : st.cumsumRealized = 0
  cumsumBaseline_eq : st.cumsumBaseline = 0
  effectiveNetworkTime_eq : st.effectiveNetworkTime = 0
  baseline_nonneg : 0 ≤ st.thisEpochBaselinePower

theorem idle_init : init.Idle := ⟨rfl, rfl, rfl, by decide⟩

/-- An epoch with no realized power: the epoch and its baseline move on, and
the reward is the simple reward of the new epoch. -/
theorem Idle.updateToNextEpochWithReward_zero {st : State} (h : st.Idle) :
    st.updateToNextEpochWithReward 0 = { st with
      epoch := st.epoch + 1
      thisEpochBaselinePower := baselinePowerFromPrev st.thisEpochBaselinePower
      thisEpochReward := computeReward (st.epoch + 1) 0 0 st.simpleTotal st.baselineTotal } := by
  have hbase := le_baselinePowerFromPrev h.baseline_nonneg
  -- the capped power is zero, so the catch-up loop has no pass to make
  have hcap : min (baselinePowerFromPrev st.thisEpochBaselinePower) 0 = 0 :=
    Int.min_eq_right (Int.le_trans h.baseline_nonneg hbase)
  simp only [updateToNextEpochWithReward, updateToNextEpoch, hcap, h.cumsumRealized_eq,
    h.cumsumBaseline_eq, h.effectiveNetworkTime_eq, Int.add_zero, Int.sub_zero, Int.toNat_zero,
    catchUp, computeRTheta, ne_eq, not_true_eq_false, if_false]

theorem Idle.updateToNextEpochWithReward {st : State} (h : st.Idle) :
    (st.updateToNextEpochWithReward 0).Idle := by
  rw [h.updateToNextEpochWithReward_zero]
  exact ⟨h.cumsumRealized_eq, h.cumsumBaseline_eq, h.effectiveNetworkTime_eq,
    Int.le_trans h.baseline_nonneg (le_baselinePowerFromPrev h.baseline_nonneg)⟩

end State

/-- `update_network_kpi`: the null rounds up to the current epoch, then the
reward of the next. Each null round moves the epoch on by one, so the loop
needs as many passes as the epochs it is behind. -/
def updateNetworkKpi (caller : Address) (currEpoch : Int) (currRealizedPower : Option Int)
    (st : State) : Except ActorError State := do
  validateImmediateCallerIs caller [storagePowerActorAddr]
  let currRealizedPower ← currRealizedPower.elim
    (throw (.illegalArgument "argument cannot be None")) pure
  let st := st.processNullRounds (currEpoch - st.epoch).toNat currEpoch currRealizedPower
  pure (st.updateToNextEpochWithReward currRealizedPower)

/-- Calls of `update_to_next_epoch_with_reward`, one for each realized power,
in order. -/
def run (st : State) (powers : List Int) : State := powers.foldl State.updateToNextEpochWithReward st

/-- A run with no realized power from an idle state: `n + 1` epochs on, the
reward is the simple reward of the last. -/
theorem State.Idle.run_zero {st : State} (h : st.Idle) (n : Nat) :
    run st (List.replicate (n + 1) 0) = { st with
      epoch := st.epoch + (n + 1)
      thisEpochBaselinePower := baselinePowerFromPrev^[n + 1] st.thisEpochBaselinePower
      thisEpochReward := computeReward (st.epoch + (n + 1)) 0 0 st.simpleTotal st.baselineTotal } := by
  induction n generalizing st with
  | zero =>
    simp only [run, List.replicate, List.foldl, h.updateToNextEpochWithReward_zero]
    rfl
  | succ n ih =>
    have hrun : run st (List.replicate (n + 2) 0) =
        run (st.updateToNextEpochWithReward 0) (List.replicate (n + 1) 0) := rfl
    have hepoch : st.epoch + 1 + ((n : Int) + 1) = st.epoch + ((n : Int) + 1 + 1) := by omega
    rw [hrun, ih h.updateToNextEpochWithReward, h.updateToNextEpochWithReward_zero]
    simp only [Function.iterate_succ_apply, Nat.cast_add, Nat.cast_one, hepoch]

/-- With no realized power from `State::new(0)` on, the reward of epoch `n`
is its simple part, negative exactly where `expneg (lambda * n)` is. -/
theorem zero_power_reward_sign (n : Nat) :
    (run (State.new 0) (List.replicate n 0)).epoch = n ∧
      (run (State.new 0) (List.replicate n 0)).thisEpochReward =
        computeReward n 0 0 simpleTotal baselineTotal ∧
      ((run (State.new 0) (List.replicate n 0)).thisEpochReward < 0 ↔ expneg (lambda * n) < 0) := by
  have hrun : run (State.new 0) (List.replicate n 0) = run State.init (List.replicate (n + 1) 0) :=
    rfl
  have hepoch : epochUndefined + ((n : Int) + 1) = n := by
    unfold epochUndefined
    omega
  rw [hrun, State.idle_init.run_zero n]
  simp only [State.init, hepoch, true_and]
  exact computeReward_same_theta_neg_iff n 0 (by decide)

/-- The reward turns negative between epochs 153091381 and 153091382, about
146 years of 30-second epochs. -/
theorem zero_power_reward_turns_negative :
    (run (State.new 0) (List.replicate 153091381 0)).thisEpochReward = 113772 ∧
      (run (State.new 0) (List.replicate 153091382 0)).thisEpochReward = -163375 := by
  rw [(zero_power_reward_sign 153091381).2.1, (zero_power_reward_sign 153091382).2.1]
  decide

end BuiltinActors.Reward
