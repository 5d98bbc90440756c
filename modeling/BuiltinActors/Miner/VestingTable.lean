import BuiltinActors.Runtime
import BuiltinActors.Miner.State

/-! # What the vesting table shows

Every reader of the table goes through `load`, which hides a head drawn down
to zero. Two facts about what it shows.

Unlocking a target from a table first tries a fast path that takes the target
out of the inline head without reading the tail. On a table whose stored
entries, the head included, are in epoch order with no negative amount (every
table the miner builds), it agrees with the slow loop over the loaded entries:
both unlock everything vested and then `min target unvested`, drawn from the
earliest entries first. The two tables they leave can differ in zero-amount
entries only. The order of the stored entries matters: a hidden zero head
vesting after a loaded entry makes the fast path skip a vested entry.

`add_locked_funds` writes one entry per step of the schedule, also for a step
that vests nothing. Under the reward schedule a small sum vests nothing for
days, so zero-amount entries follow the head, and `load` shows them. -/

namespace BuiltinActors.Miner

open MergeJoin

/-- The entries of positive amount, those `check_miner_balances` accepts. -/
def positive (funds : List VestingFund) : List VestingFund := funds.filter fun f => 0 < f.amount

/-- `target` drawn from funds, earliest first: whole entries while each falls
short of what is left, then part of the next one, which stays. -/
def drawFrom : Int → List VestingFund → List VestingFund
  | _, [] => []
  | target, f :: fs =>
    if f.amount < target then drawFrom (target - f.amount) fs
    else ⟨f.epoch, f.amount - target⟩ :: fs

namespace VestingFunds

/-- The slow path of `unlockVestedAndUnvestedFunds`, on any table: the loop
over the loaded entries, then a save of what is left. -/
def unlockSlow (v : VestingFunds) (currentEpoch target : Int) : VestingFunds × Int × Int :=
  let (vested, unvested, rest) := unlockLoop currentEpoch target 0 0 v.load
  (save rest, vested, unvested)

/-- Whether `unlockVestedAndUnvestedFunds` takes its fast path. -/
def fastPath (v : VestingFunds) (currentEpoch target : Int) : Bool :=
  match v.inner with
  | none => false
  | some this => decide (currentEpoch ≤ this.head.epoch ∧ target ≤ this.head.amount)

end VestingFunds

theorem total_nonneg {funds : List VestingFund} (h : ∀ f ∈ funds, 0 ≤ f.amount) :
    0 ≤ total funds :=
  List.sum_nonneg fun _ hx => by
    obtain ⟨f, hf, rfl⟩ := List.mem_map.mp hx
    exact h f hf

@[simp] theorem positive_cons (f : VestingFund) (funds : List VestingFund) :
    positive (f :: funds) = if 0 < f.amount then f :: positive funds else positive funds := by
  by_cases hf : 0 < f.amount <;> simp [positive, hf]

/-- Drawing nothing leaves a list of non-negative funds as it is. -/
theorem drawFrom_zero : ∀ {funds : List VestingFund}, (∀ f ∈ funds, 0 ≤ f.amount) →
    drawFrom 0 funds = funds
  | [], _ => rfl
  | f :: fs, h => by
    have hf : ¬ f.amount < 0 := not_lt.mpr (h f List.mem_cons_self)
    simp only [drawFrom, if_neg hf, sub_zero]

namespace VestingFunds

/-- `load` hides only a head of no positive amount. -/
theorem positive_load_save (funds : List VestingFund) :
    positive (save funds).load = positive funds := by
  cases funds with
  | nil => rfl
  | cons head tail =>
    simp only [save, load]
    by_cases hpos : 0 < head.amount <;> simp [hpos]

/-! ## The slow loop -/

variable {e : Int}

/-- Among entries none of which has vested, the loop draws `target` earliest
first, and unlocks what it drew. -/
theorem unlockLoop_of_unvested : ∀ (funds : List VestingFund) (target vested unvested : Int),
    (∀ f ∈ funds, e ≤ f.epoch ∧ 0 ≤ f.amount) → 0 ≤ target →
    unlockLoop e target vested unvested funds =
      (vested, unvested + min target (total funds), drawFrom target funds)
  | [], target, vested, unvested, _, ht => by simp [unlockLoop, drawFrom, ht]
  | f :: fs, target, vested, unvested, hf, ht => by
    obtain ⟨hfe, hfa⟩ := hf f List.mem_cons_self
    have hfs : ∀ g ∈ fs, e ≤ g.epoch ∧ 0 ≤ g.amount := fun g hg => hf g (List.mem_cons_of_mem _ hg)
    have htot : 0 ≤ total fs := total_nonneg fun g hg => (hfs g hg).2
    have hnv : ¬ f.epoch < e := not_lt.mpr hfe
    by_cases htake : f.amount < target
    · -- the whole entry goes, and the rest of the target is drawn from the others
      rw [unlockLoop, if_neg hnv, if_pos htake,
        unlockLoop_of_unvested fs (target - f.amount) vested (unvested + f.amount) hfs (by omega),
        drawFrom, if_pos htake, total_cons]
      simp only [Prod.mk.injEq, true_and, and_true]
      omega
    · rw [unlockLoop, if_neg hnv, if_neg htake, drawFrom, if_neg htake, total_cons]
      simp only [Prod.mk.injEq, true_and, and_true]
      omega

/-- On an ordered list the loop unlocks everything vested, then draws `target`
from the rest earliest first. -/
theorem unlockLoop_of_ordered : ∀ (funds : List VestingFund) (target vested unvested : Int),
    Ordered VestingFund.epoch funds → (∀ f ∈ funds, 0 ≤ f.amount) → 0 ≤ target →
    unlockLoop e target vested unvested funds =
      (vested + vestedBy funds e,
        unvested + min target (total (funds.filter fun f => decide (e ≤ f.epoch))),
        drawFrom target (funds.filter fun f => decide (e ≤ f.epoch)))
  | [], target, vested, unvested, _, _, ht => by simp [unlockLoop, vestedBy, drawFrom, ht]
  | f :: fs, target, vested, unvested, ho, hn, ht => by
    obtain ⟨ho₁, ho₂⟩ := List.pairwise_cons.mp ho
    have hfs : ∀ g ∈ fs, 0 ≤ g.amount := fun g hg => hn g (List.mem_cons_of_mem _ hg)
    by_cases hv : f.epoch < e
    · have hnu : ¬ e ≤ f.epoch := not_le.mpr hv
      rw [unlockLoop, if_pos hv, unlockLoop_of_ordered fs target (vested + f.amount) unvested ho₂ hfs ht]
      simp only [vestedBy, List.filter_cons, hv, hnu, decide_true, decide_false, if_true,
        Bool.false_eq_true, if_false, List.map_cons, List.sum_cons, Prod.mk.injEq, and_true]
      ring
    · -- nothing from here on has vested: the rest of an ordered list is no earlier
      have hall : ∀ g ∈ f :: fs, e ≤ g.epoch ∧ 0 ≤ g.amount := by
        intro g hg
        refine ⟨?_, hn g hg⟩
        rcases List.mem_cons.mp hg with rfl | hg
        · exact not_lt.mp hv
        · exact (not_lt.mp hv).trans (ho₁ g hg)
      have hfilter : ((f :: fs).filter fun g => decide (e ≤ g.epoch)) = f :: fs :=
        List.filter_eq_self.mpr fun g hg => decide_eq_true (hall g hg).1
      have hvested : vestedBy (f :: fs) e = 0 := by
        have hnil : ((f :: fs).filter fun g => decide (g.epoch < e)) = [] :=
          List.filter_eq_nil_iff.mpr fun g hg => by simpa using (hall g hg).1
        simp [vestedBy, hnil]
      rw [unlockLoop_of_unvested (f :: fs) target vested unvested hall ht, hfilter, hvested,
        add_zero]

variable {v : VestingFunds} {target : Int}

/-- The slow path on a valid table unlocks everything vested and then
`min target unvested`, drawn earliest first. -/
theorem unlockSlow_spec (hv : v.Valid) (ht : 0 ≤ target) :
    (v.unlockSlow e target).2 =
        (vestedBy v.load e, min target (total (v.load.filter fun f => decide (e ≤ f.epoch)))) ∧
      positive (v.unlockSlow e target).1.load =
        positive (drawFrom target (v.load.filter fun f => decide (e ≤ f.epoch))) := by
  simp only [unlockSlow,
    unlockLoop_of_ordered v.load target 0 0 hv.load_ordered hv.load_nonneg ht, zero_add,
    positive_load_save, and_self]

theorem unlock_eq_unlockSlow (h : v.fastPath e target = false) :
    v.unlockVestedAndUnvestedFunds e target = v.unlockSlow e target := by
  rcases v with ⟨_ | this⟩
  · rfl
  · have hslow : ¬ (e ≤ this.head.epoch ∧ target ≤ this.head.amount) := by
      simpa [fastPath] using h
    simp only [unlockVestedAndUnvestedFunds, if_neg hslow]
    rfl

/-- The fast path on a valid table: nothing in the table has vested, and the
head holds the target, so it is what the slow path would unlock. -/
theorem unlock_spec_of_fastPath (hv : v.Valid) (ht : 0 ≤ target) (h : v.fastPath e target = true) :
    (v.unlockVestedAndUnvestedFunds e target).2 =
        (vestedBy v.load e, min target (total (v.load.filter fun f => decide (e ≤ f.epoch)))) ∧
      positive (v.unlockVestedAndUnvestedFunds e target).1.load =
        positive (drawFrom target (v.load.filter fun f => decide (e ≤ f.epoch))) := by
  rcases v with ⟨_ | ⟨head, tail⟩⟩
  · cases h
  have hfast : e ≤ head.epoch ∧ target ≤ head.amount := by simpa [fastPath] using h
  have ho : Ordered VestingFund.epoch (head :: tail) := hv.ordered
  have hn : ∀ f ∈ head :: tail, 0 ≤ f.amount := hv.nonneg
  have hsub : ∀ f ∈ (⟨some ⟨head, tail⟩⟩ : VestingFunds).load, f ∈ head :: tail :=
    fun f hf => (load_sublist _).subset hf
  -- every stored entry vests at or after the head, so at or after `e`
  have hlate : ∀ f ∈ head :: tail, e ≤ f.epoch := by
    intro f hf
    rcases List.mem_cons.mp hf with rfl | hf
    · exact hfast.1
    · exact hfast.1.trans ((List.pairwise_cons.mp ho).1 f hf)
  have hfilter : ((⟨some ⟨head, tail⟩⟩ : VestingFunds).load.filter fun f => decide (e ≤ f.epoch)) =
      (⟨some ⟨head, tail⟩⟩ : VestingFunds).load :=
    List.filter_eq_self.mpr fun f hf => decide_eq_true (hlate f (hsub f hf))
  have hvested : vestedBy (⟨some ⟨head, tail⟩⟩ : VestingFunds).load e = 0 :=
    vestedBy_load_eq_zero hv (by simpa [canVest] using hfast.1)
  have htail : 0 ≤ total tail := total_nonneg fun f hf => hn f (List.mem_cons_of_mem _ hf)
  have hresult : (⟨some ⟨head, tail⟩⟩ : VestingFunds).unlockVestedAndUnvestedFunds e target =
      (save (⟨head.epoch, head.amount - target⟩ :: tail), 0, target) := by
    simp only [unlockVestedAndUnvestedFunds, if_pos hfast]
    rfl
  rw [hresult, hfilter, hvested, positive_load_save]
  by_cases hpos : 0 < head.amount
  · have hload : (⟨some ⟨head, tail⟩⟩ : VestingFunds).load = head :: tail := by
      simp [load, hpos]
    rw [hload, total_cons, drawFrom, if_neg (not_lt.mpr hfast.2)]
    simp only [Prod.mk.injEq, true_and, and_true]
    omega
  · -- a hidden head holds no more than nothing, so the target is zero
    have hzero : head.amount = 0 := le_antisymm (not_lt.mp hpos) (hn head List.mem_cons_self)
    have ht0 : target = 0 := by omega
    have hload : (⟨some ⟨head, tail⟩⟩ : VestingFunds).load = tail := by
      simp [load, hpos]
    subst ht0
    rw [hload, drawFrom_zero fun f hf => hn f (List.mem_cons_of_mem _ hf), positive_cons,
      if_neg (by simp [hzero])]
    simp only [Prod.mk.injEq, true_and, and_true]
    omega

/-- What the call unlocks on a valid table: everything vested, then
`min target unvested`, drawn from the earliest unvested entries first. -/
theorem unlock_spec (hv : v.Valid) (ht : 0 ≤ target) :
    (v.unlockVestedAndUnvestedFunds e target).2 =
        (vestedBy v.load e, min target (total (v.load.filter fun f => decide (e ≤ f.epoch)))) ∧
      positive (v.unlockVestedAndUnvestedFunds e target).1.load =
        positive (drawFrom target (v.load.filter fun f => decide (e ≤ f.epoch))) := by
  cases hfast : v.fastPath e target with
  | true => exact unlock_spec_of_fastPath hv ht hfast
  | false =>
    rw [unlock_eq_unlockSlow hfast]
    exact unlockSlow_spec hv ht

end VestingFunds

open VestingFunds in
/-- **The fast path refines the slow one.** On a table whose stored entries
are in epoch order with no negative amount, and a non-negative target: where
the fast path applies, it unlocks what the slow path would and leaves the same
entries of positive amount; and the call unlocks everything vested and then
`min target unvested`, drawn from the earliest unvested entries first. -/
theorem unlock_fast_path_agrees_with_slow_path {v : VestingFunds} (hv : v.Valid) {e target : Int}
    (ht : 0 ≤ target) :
    (v.fastPath e target = true →
      (v.unlockVestedAndUnvestedFunds e target).2 = (v.unlockSlow e target).2 ∧
      positive (v.unlockVestedAndUnvestedFunds e target).1.load =
        positive (v.unlockSlow e target).1.load) ∧
    (v.unlockVestedAndUnvestedFunds e target).2 =
      (vestedBy v.load e, min target (total (v.load.filter fun f => decide (e ≤ f.epoch)))) ∧
    positive (v.unlockVestedAndUnvestedFunds e target).1.load =
      positive (drawFrom target (v.load.filter fun f => decide (e ≤ f.epoch))) := by
  obtain ⟨hs₁, hs₂⟩ := unlockSlow_spec (e := e) hv ht
  obtain ⟨hu₁, hu₂⟩ := unlock_spec (e := e) hv ht
  exact ⟨fun _ => ⟨hu₁.trans hs₁.symm, hu₂.trans hs₂.symm⟩, hu₁, hu₂⟩

/-- Two entries, 5 at epoch 10 and 5 at epoch 20. -/
def twoEntryFunds : VestingFunds := VestingFunds.save [⟨10, 5⟩, ⟨20, 5⟩]

theorem unlock_fast_path_agrees_with_slow_path_twoEntry :
    twoEntryFunds.Valid ∧ (0 : Int) ≤ 3 ∧
    (twoEntryFunds.fastPath 6 3 = true →
      (twoEntryFunds.unlockVestedAndUnvestedFunds 6 3).2 = (twoEntryFunds.unlockSlow 6 3).2 ∧
      positive (twoEntryFunds.unlockVestedAndUnvestedFunds 6 3).1.load =
        positive (twoEntryFunds.unlockSlow 6 3).1.load) ∧
    (twoEntryFunds.unlockVestedAndUnvestedFunds 6 3).2 =
      (vestedBy twoEntryFunds.load 6, min 3 (total (twoEntryFunds.load.filter fun f => decide (6 ≤ f.epoch)))) ∧
    positive (twoEntryFunds.unlockVestedAndUnvestedFunds 6 3).1.load =
      positive (drawFrom 3 (twoEntryFunds.load.filter fun f => decide (6 ≤ f.epoch))) :=
  have hv : twoEntryFunds.Valid := ⟨by simp [twoEntryFunds, Ordered], by decide⟩
  ⟨hv, by decide, unlock_fast_path_agrees_with_slow_path hv (by decide)⟩

/-- A zero head at epoch 10, hidden by `load`, over an entry of 7 at epoch 5. -/
def hiddenHeadFunds : VestingFunds := ⟨some ⟨⟨10, 0⟩, [⟨5, 7⟩]⟩⟩

/-- The loaded entries are in order and the fast path applies at epoch 6 with
target 0; it unlocks nothing, where the slow path unlocks the vested 7. -/
theorem unlock_fast_path_hidden_head :
    Ordered VestingFund.epoch hiddenHeadFunds.load ∧ hiddenHeadFunds.fastPath 6 0 = true ∧
      (hiddenHeadFunds.unlockVestedAndUnvestedFunds 6 0).2 = (0, 0) ∧
      (hiddenHeadFunds.unlockSlow 6 0).2 = (7, 0) :=
  ⟨List.pairwise_singleton _ _, by decide, by decide, by decide⟩

/-! ## Zero entries from a small sum -/

/-- The reward vesting schedule: linear over 180 days in daily steps, quantized
to half days. -/
def rewardVestingSpec : VestSpec where
  initialDelay := 0
  vestPeriod := 180 * epochsInDay
  stepDuration := epochsInDay
  quantization := 12 * epochsInHour
  vestPeriod_pos := by decide
  stepDuration_pos := by decide
  quantization_pos := by decide

namespace VestSpec

theorem vestEpochAt_lt (spec : VestSpec) (provingPeriodStart epoch : Int) :
    spec.vestEpochAt provingPeriodStart epoch < epoch + spec.quantization :=
  (QuantSpec.quantizeUp_spec _ spec.quantization_pos epoch).2.1

variable {spec : VestSpec} {provingPeriodStart vestBegin vestingSum : Int}

/-- A step has vested nothing in total while the sum times the time elapsed
stays below the period. -/
theorem targetVestAt_eq_zero (h0 : 0 ≤ vestingSum) {epoch : Int} (he : vestBegin ≤ epoch)
    (hsmall : vestingSum * (spec.vestEpochAt provingPeriodStart epoch - vestBegin) < spec.vestPeriod) :
    spec.targetVestAt provingPeriodStart vestBegin vestingSum epoch = 0 := by
  have hq := spec.le_vestEpochAt provingPeriodStart epoch
  unfold targetVestAt
  split_ifs with hlt
  · rw [Int.fdiv_eq_ediv_of_nonneg _ spec.vestPeriod_pos.le]
    exact Int.ediv_eq_zero_of_lt (mul_nonneg h0 (by omega)) hsmall
  · -- past the period, only a zero sum keeps the product below it
    have hge : spec.vestPeriod ≤ spec.vestEpochAt provingPeriodStart epoch - vestBegin := not_lt.mp hlt
    by_contra hne
    have h1 : 1 ≤ vestingSum := by omega
    have hmul := le_mul_of_one_le_left (by linarith [spec.vestPeriod_pos] :
      (0 : Int) ≤ spec.vestEpochAt provingPeriodStart epoch - vestBegin) h1
    linarith

end VestSpec

/-- One unit of token under the reward schedule vests nothing on its first two
daily steps: the schedule opens with two zero-amount entries. -/
theorem vestingSchedule_reward_one (provingPeriodStart vestBegin : Int) :
    ∃ q₁ q₂ rest, vestingSchedule rewardVestingSpec provingPeriodStart vestBegin 1 0 vestBegin =
      ⟨q₁, 0⟩ :: ⟨q₂, 0⟩ :: rest ∧ vestBegin < q₁ := by
  have hd : rewardVestingSpec.stepDuration = 2880 := by decide
  have hq : rewardVestingSpec.quantization = 1440 := by decide
  have hp : rewardVestingSpec.vestPeriod = 518400 := by decide
  have hlo₁ := rewardVestingSpec.le_vestEpochAt provingPeriodStart (vestBegin + rewardVestingSpec.stepDuration)
  have hhi₁ := rewardVestingSpec.vestEpochAt_lt provingPeriodStart
    (vestBegin + rewardVestingSpec.stepDuration)
  have hhi₂ := rewardVestingSpec.vestEpochAt_lt provingPeriodStart
    (vestBegin + rewardVestingSpec.stepDuration + rewardVestingSpec.stepDuration)
  have hlo₂ := rewardVestingSpec.le_vestEpochAt provingPeriodStart
    (vestBegin + rewardVestingSpec.stepDuration + rewardVestingSpec.stepDuration)
  have ht₁ : rewardVestingSpec.targetVestAt provingPeriodStart vestBegin 1
      (vestBegin + rewardVestingSpec.stepDuration) = 0 :=
    VestSpec.targetVestAt_eq_zero zero_le_one (by omega) (by omega)
  have ht₂ : rewardVestingSpec.targetVestAt provingPeriodStart vestBegin 1
      (vestBegin + rewardVestingSpec.stepDuration + rewardVestingSpec.stepDuration) = 0 :=
    VestSpec.targetVestAt_eq_zero zero_le_one (by omega) (by omega)
  rw [vestingSchedule_of_lt zero_lt_one, ht₁, vestingSchedule_of_lt zero_lt_one, ht₂, sub_self]
  exact ⟨_, _, _, rfl, by omega⟩

/-- A fresh miner that locks one unit of reward holds a table whose `load`
shows a zero-amount entry still to vest, which `check_miner_balances` rejects. -/
theorem add_locked_funds_shows_zero_entry {st : State} (hst : st.FundsInitial) (e : Int) :
    ∃ st' unlocked, st.addLockedFunds e 1 rewardVestingSpec = .ok (st', unlocked) ∧
      ∃ f ∈ st'.vestingFunds.load, f.amount = 0 ∧ e < f.epoch := by
  obtain ⟨hlocked, hnew⟩ := hst
  obtain ⟨q₁, q₂, rest, hsched, hq₁⟩ :=
    vestingSchedule_reward_one st.provingPeriodStart (e + rewardVestingSpec.initialDelay)
  have hdelay : rewardVestingSpec.initialDelay = 0 := rfl
  have hq₂ : q₁ ≤ q₂ := by
    have ho : Ordered VestingFund.epoch (vestingSchedule rewardVestingSpec st.provingPeriodStart
        (e + rewardVestingSpec.initialDelay) 1 0 (e + rewardVestingSpec.initialDelay)) :=
      vestingSchedule_ordered 0 _
    rw [hsched] at ho
    exact (List.pairwise_cons.mp ho).1 _ List.mem_cons_self
  -- nothing of the new schedule has vested yet, so it is saved whole
  have hadd : VestingFunds.new.addLockedFunds e 1 st.provingPeriodStart rewardVestingSpec =
      (VestingFunds.save (⟨q₁, 0⟩ :: ⟨q₂, 0⟩ :: rest), 0) := by
    have hlate : ¬ q₁ < e := by rw [hdelay] at hq₁; omega
    simp only [VestingFunds.addLockedFunds, hsched, takeVested, VestingFunds.load,
      VestingFunds.new, mergeJoinBy_nil_left, List.takeWhile_cons, List.dropWhile_cons, hlate,
      decide_false, Bool.false_eq_true, if_false, List.map_nil, List.sum_nil]
  have hlive : e < q₂ := by
    rw [hdelay] at hq₁
    omega
  refine ⟨{ st with vestingFunds := VestingFunds.save (⟨q₁, 0⟩ :: ⟨q₂, 0⟩ :: rest), lockedFunds := 1 },
    0, ?_, ⟨q₂, 0⟩, ?_, rfl, hlive⟩
  · simp [State.addLockedFunds, hnew, hadd, hlocked]
  · simp [VestingFunds.load, VestingFunds.save]

theorem add_locked_funds_shows_zero_entry_fresh :
    (State.new 0 0).FundsInitial ∧ ∃ st' unlocked,
      (State.new 0 0).addLockedFunds 0 1 rewardVestingSpec = .ok (st', unlocked) ∧
        ∃ f ∈ st'.vestingFunds.load, f.amount = 0 ∧ 0 < f.epoch :=
  ⟨⟨rfl, rfl⟩, add_locked_funds_shows_zero_entry ⟨rfl, rfl⟩ 0⟩

end BuiltinActors.Miner
