import BuiltinActors.Lib.MergeJoin
import BuiltinActors.Miner.Quantize

/-! # The vesting table

`VestingFunds` is the miner's schedule of locked funds by vesting epoch. It is
stored as a head kept inline and a tail behind a content address; the tail is
modelled by the list the store returns for that address. The store round trip
is the identity, so loading and saving cannot fail here.

A head drawn down to zero by the fast path of
`unlockVestedAndUnvestedFunds` stays stored but is hidden by `load`. -/

namespace BuiltinActors.Miner

open MergeJoin

/-- Miner funds that vest at the given epoch. -/
structure VestingFund where
  epoch : Int
  amount : Int
deriving DecidableEq, Repr

structure VestingFundsInner where
  head : VestingFund
  tail : List VestingFund
deriving DecidableEq, Repr

structure VestingFunds where
  inner : Option VestingFundsInner
deriving DecidableEq, Repr

/-- A linear vesting schedule. The positivity fields hold of the reward
schedule, the only one the actor uses, and make the schedule finite. -/
structure VestSpec where
  initialDelay : Int
  vestPeriod : Int
  stepDuration : Int
  quantization : Int
  vestPeriod_pos : 0 < vestPeriod
  stepDuration_pos : 0 < stepDuration
  quantization_pos : 0 < quantization

/-- The funds of an epoch-ordered list that vested before `currentEpoch`, and
what is left of the list. -/
def takeVested (funds : List VestingFund) (currentEpoch : Int) : Int × List VestingFund :=
  (((funds.takeWhile fun f => decide (f.epoch < currentEpoch)).map VestingFund.amount).sum,
    funds.dropWhile fun f => decide (f.epoch < currentEpoch))

/-- Two entries for the same epoch merge into one. -/
def VestingFund.combine (a b : VestingFund) : VestingFund := ⟨a.epoch, a.amount + b.amount⟩

/-- The new schedule for `vestingSum`, having scheduled `vestedSoFar` up to the
step at `epoch`. Each step vests the linear share of the time elapsed since
`vestBegin` at the quantized step epoch, and the last one the rest. -/
def vestingSchedule (spec : VestSpec) (provingPeriodStart vestBegin vestingSum : Int)
    (vestedSoFar epoch : Int) : List VestingFund :=
  if vestingSum ≤ vestedSoFar then []
  else
    let vestEpoch := (QuantSpec.mk spec.quantization provingPeriodStart).quantizeUp
      (epoch + spec.stepDuration)
    let elapsed := vestEpoch - vestBegin
    let targetVest :=
      if elapsed < spec.vestPeriod then (vestingSum * elapsed).fdiv spec.vestPeriod else vestingSum
    ⟨vestEpoch, targetVest - vestedSoFar⟩ ::
      vestingSchedule spec provingPeriodStart vestBegin vestingSum targetVest (epoch + spec.stepDuration)
termination_by 2 * (vestBegin + spec.vestPeriod - epoch).toNat + if vestingSum ≤ vestedSoFar then 0 else 1
decreasing_by
  have hq := (QuantSpec.mk spec.quantization provingPeriodStart).le_quantizeUp
    spec.quantization_pos (epoch + spec.stepDuration)
  have hs := spec.stepDuration_pos
  -- a step whose target is below the sum is still inside the vesting period
  split_ifs with h₁ h₂ h₃ <;> omega

namespace VestingFunds

def new : VestingFunds := ⟨none⟩

/-- The stored entries, a hidden zero head included. -/
def stored (v : VestingFunds) : List VestingFund :=
  match v.inner with
  | none => []
  | some this => this.head :: this.tail

def load (v : VestingFunds) : List VestingFund :=
  match v.inner with
  | none => []
  | some this =>
    -- a head drawn down to zero is never shown
    if 0 < this.head.amount then this.head :: this.tail else this.tail

def save (funds : List VestingFund) : VestingFunds :=
  match funds with
  | [] => ⟨none⟩
  | head :: tail => ⟨some ⟨head, tail⟩⟩

def canVest (v : VestingFunds) (currentEpoch : Int) : Bool :=
  match v.inner with
  | none => false
  | some this => decide (this.head.epoch < currentEpoch)

/-- Unlocks the funds vested before `currentEpoch`; returns the new table and
the amount unlocked. -/
def unlockVestedFunds (v : VestingFunds) (currentEpoch : Int) : VestingFunds × Int :=
  if !v.canVest currentEpoch then (v, 0)
  else
    let (unlocked, rest) := takeVested v.load currentEpoch
    (save rest, unlocked)

/-- Adds the schedule for `vestingSum` and unlocks everything that already
vested; returns the new table and the amount unlocked. -/
def addLockedFunds (v : VestingFunds) (currentEpoch vestingSum provingPeriodStart : Int)
    (spec : VestSpec) : VestingFunds × Int :=
  let vestBegin := currentEpoch + spec.initialDelay
  let newFunds := vestingSchedule spec provingPeriodStart vestBegin vestingSum 0 vestBegin
  let combinedFunds := mergeJoinBy VestingFund.epoch VestingFund.combine v.load newFunds
  let (unlocked, rest) := takeVested combinedFunds currentEpoch
  (save rest, unlocked)

/-- The slow path's loop over the loaded entries: everything vested is taken,
then unvested entries from the soonest until `target` is met, the last one
possibly in part. Returns what is vested, what is unvested and the rest. -/
def unlockLoop (currentEpoch : Int) :
    Int → Int → Int → List VestingFund → Int × Int × List VestingFund
  | _, vested, unvested, [] => (vested, unvested, [])
  | target, vested, unvested, vf :: funds =>
    if vf.epoch < currentEpoch then unlockLoop currentEpoch target (vested + vf.amount) unvested funds
    else if vf.amount < target then
      unlockLoop currentEpoch (target - vf.amount) vested (unvested + vf.amount) funds
    else (vested, unvested + target, ⟨vf.epoch, vf.amount - target⟩ :: funds)

/-- Unlocks all vested funds, then unvested funds up to `target`. Returns the
new table, the vested and the unvested amounts. -/
def unlockVestedAndUnvestedFunds (v : VestingFunds) (currentEpoch target : Int) :
    VestingFunds × Int × Int :=
  match v.inner with
  | none => (v, 0, 0)
  | some this =>
    -- fast path: take it out of the head and leave the tail alone
    if currentEpoch ≤ this.head.epoch ∧ target ≤ this.head.amount then
      (⟨some ⟨⟨this.head.epoch, this.head.amount - target⟩, this.tail⟩⟩, 0, target)
    else
      let (vested, unvested, rest) := unlockLoop currentEpoch target 0 0 v.load
      (save rest, vested, unvested)

end VestingFunds

/-! ## The schedule of one call

`vestEpochAt` and `targetVestAt` name the two values each step of the
schedule computes, so that its properties are stated once about them. -/

namespace VestSpec

variable (spec : VestSpec) (provingPeriodStart vestBegin vestingSum : Int)

def vestEpochAt (epoch : Int) : Int :=
  (QuantSpec.mk spec.quantization provingPeriodStart).quantizeUp epoch

def targetVestAt (epoch : Int) : Int :=
  if spec.vestEpochAt provingPeriodStart epoch - vestBegin < spec.vestPeriod then
    (vestingSum * (spec.vestEpochAt provingPeriodStart epoch - vestBegin)).fdiv spec.vestPeriod
  else vestingSum

theorem le_vestEpochAt (epoch : Int) : epoch ≤ spec.vestEpochAt provingPeriodStart epoch :=
  QuantSpec.le_quantizeUp _ spec.quantization_pos epoch

theorem vestEpochAt_mono {e e' : Int} (h : e ≤ e') :
    spec.vestEpochAt provingPeriodStart e ≤ spec.vestEpochAt provingPeriodStart e' :=
  QuantSpec.quantizeUp_mono _ spec.quantization_pos h

variable {spec provingPeriodStart vestBegin vestingSum}

/-- The linear share never exceeds the sum. -/
theorem targetVestAt_le (h0 : 0 ≤ vestingSum) (e : Int) :
    spec.targetVestAt provingPeriodStart vestBegin vestingSum e ≤ vestingSum := by
  unfold targetVestAt
  split_ifs with hlt
  · rw [Int.fdiv_eq_ediv_of_nonneg _ spec.vestPeriod_pos.le]
    calc (vestingSum * (spec.vestEpochAt provingPeriodStart e - vestBegin)) / spec.vestPeriod
        ≤ (vestingSum * spec.vestPeriod) / spec.vestPeriod :=
          Int.ediv_le_ediv spec.vestPeriod_pos (mul_le_mul_of_nonneg_left hlt.le h0)
      _ = vestingSum := Int.mul_ediv_cancel _ spec.vestPeriod_pos.ne'
  · exact le_rfl

theorem targetVestAt_nonneg (h0 : 0 ≤ vestingSum) {e : Int} (he : vestBegin ≤ e) :
    0 ≤ spec.targetVestAt provingPeriodStart vestBegin vestingSum e := by
  have hq := spec.le_vestEpochAt provingPeriodStart e
  unfold targetVestAt
  split_ifs
  · rw [Int.fdiv_eq_ediv_of_nonneg _ spec.vestPeriod_pos.le]
    exact Int.ediv_nonneg (mul_nonneg h0 (by omega)) spec.vestPeriod_pos.le
  · exact h0

/-- Later steps vest at least as much in total. -/
theorem targetVestAt_mono (h0 : 0 ≤ vestingSum) {e e' : Int} (h : e ≤ e') :
    spec.targetVestAt provingPeriodStart vestBegin vestingSum e ≤
      spec.targetVestAt provingPeriodStart vestBegin vestingSum e' := by
  have hm := spec.vestEpochAt_mono provingPeriodStart h
  by_cases h' : spec.vestEpochAt provingPeriodStart e' - vestBegin < spec.vestPeriod
  · have hlt : spec.vestEpochAt provingPeriodStart e - vestBegin < spec.vestPeriod := by omega
    have hq := spec.le_vestEpochAt provingPeriodStart e
    simp only [targetVestAt, if_pos h', if_pos hlt]
    rw [Int.fdiv_eq_ediv_of_nonneg _ spec.vestPeriod_pos.le,
      Int.fdiv_eq_ediv_of_nonneg _ spec.vestPeriod_pos.le]
    exact Int.ediv_le_ediv spec.vestPeriod_pos (mul_le_mul_of_nonneg_left (by omega) h0)
  · rw [show spec.targetVestAt provingPeriodStart vestBegin vestingSum e' = vestingSum by
      simp [targetVestAt, h']]
    exact targetVestAt_le h0 e

end VestSpec

section Schedule

variable {spec : VestSpec} {provingPeriodStart vestBegin vestingSum : Int}

theorem vestingSchedule_of_le {vestedSoFar epoch : Int} (h : vestingSum ≤ vestedSoFar) :
    vestingSchedule spec provingPeriodStart vestBegin vestingSum vestedSoFar epoch = [] := by
  rw [vestingSchedule, if_pos h]

theorem vestingSchedule_of_lt {vestedSoFar epoch : Int} (h : vestedSoFar < vestingSum) :
    vestingSchedule spec provingPeriodStart vestBegin vestingSum vestedSoFar epoch =
      ⟨spec.vestEpochAt provingPeriodStart (epoch + spec.stepDuration),
        spec.targetVestAt provingPeriodStart vestBegin vestingSum (epoch + spec.stepDuration) -
          vestedSoFar⟩ ::
        vestingSchedule spec provingPeriodStart vestBegin vestingSum
          (spec.targetVestAt provingPeriodStart vestBegin vestingSum (epoch + spec.stepDuration))
          (epoch + spec.stepDuration) := by
  rw [vestingSchedule, if_neg (not_le.mpr h)]
  rfl

/-- The amounts scheduled from `vestedSoFar` on add up to the rest of the sum. -/
theorem vestingSchedule_sum (h0 : 0 ≤ vestingSum) :
    ∀ (vestedSoFar epoch : Int), vestBegin ≤ epoch → vestedSoFar ≤ vestingSum →
      ((vestingSchedule spec provingPeriodStart vestBegin vestingSum vestedSoFar epoch).map
        VestingFund.amount).sum = vestingSum - vestedSoFar := by
  intro vestedSoFar epoch he hv
  rcases hv.lt_or_eq with hlt | heq
  · rw [vestingSchedule_of_lt hlt, List.map_cons, List.sum_cons,
      vestingSchedule_sum h0 _ _ (by linarith [spec.stepDuration_pos])
        (VestSpec.targetVestAt_le h0 _)]
    ring
  · rw [vestingSchedule_of_le heq.ge, heq]
    simp
termination_by vestedSoFar epoch => 2 * (vestBegin + spec.vestPeriod - epoch).toNat +
  if vestingSum ≤ vestedSoFar then 0 else 1
decreasing_by
  have hq := spec.le_vestEpochAt provingPeriodStart (epoch + spec.stepDuration)
  have hs := spec.stepDuration_pos
  simp only [VestSpec.targetVestAt]
  split_ifs with h₁ h₂ h₃ <;> omega

/-- Every entry of the schedule vests at or after the first step's epoch, and
none before the epoch the schedule continues from. -/
theorem vestEpochAt_le_of_mem :
    ∀ {vestedSoFar epoch : Int} {f : VestingFund},
      f ∈ vestingSchedule spec provingPeriodStart vestBegin vestingSum vestedSoFar epoch →
      spec.vestEpochAt provingPeriodStart (epoch + spec.stepDuration) ≤ f.epoch := by
  intro vestedSoFar epoch f hf
  by_cases h : vestingSum ≤ vestedSoFar
  · rw [vestingSchedule_of_le h] at hf
    cases hf
  · rw [vestingSchedule_of_lt (not_le.mp h)] at hf
    rcases List.mem_cons.mp hf with rfl | hf
    · exact le_rfl
    · exact (spec.vestEpochAt_mono provingPeriodStart (by linarith [spec.stepDuration_pos])).trans
        (vestEpochAt_le_of_mem hf)
termination_by vestedSoFar epoch => 2 * (vestBegin + spec.vestPeriod - epoch).toNat +
  if vestingSum ≤ vestedSoFar then 0 else 1
decreasing_by
  have hq := spec.le_vestEpochAt provingPeriodStart (epoch + spec.stepDuration)
  have hs := spec.stepDuration_pos
  simp only [VestSpec.targetVestAt]
  split_ifs with h₁ h₂ h₃ <;> omega

theorem lt_epoch_of_mem {vestedSoFar epoch : Int} {f : VestingFund}
    (hf : f ∈ vestingSchedule spec provingPeriodStart vestBegin vestingSum vestedSoFar epoch) :
    epoch < f.epoch :=
  lt_of_lt_of_le (by linarith [spec.stepDuration_pos])
    ((spec.le_vestEpochAt provingPeriodStart _).trans (vestEpochAt_le_of_mem hf))

theorem vestingSchedule_ordered :
    ∀ (vestedSoFar epoch : Int),
      Ordered VestingFund.epoch
        (vestingSchedule spec provingPeriodStart vestBegin vestingSum vestedSoFar epoch) := by
  intro vestedSoFar epoch
  by_cases h : vestingSum ≤ vestedSoFar
  · rw [vestingSchedule_of_le h]
    exact List.Pairwise.nil
  · rw [vestingSchedule_of_lt (not_le.mp h)]
    refine List.Pairwise.cons (fun f hf => ?_) (vestingSchedule_ordered _ _)
    exact (spec.vestEpochAt_mono provingPeriodStart (by linarith [spec.stepDuration_pos])).trans
      (vestEpochAt_le_of_mem hf)
termination_by vestedSoFar epoch => 2 * (vestBegin + spec.vestPeriod - epoch).toNat +
  if vestingSum ≤ vestedSoFar then 0 else 1
decreasing_by
  have hq := spec.le_vestEpochAt provingPeriodStart (epoch + spec.stepDuration)
  have hs := spec.stepDuration_pos
  simp only [VestSpec.targetVestAt]
  split_ifs with h₁ h₂ h₃ <;> omega

/-- No step vests a negative amount: the targets only grow. -/
theorem amount_nonneg_of_mem (h0 : 0 ≤ vestingSum) :
    ∀ {vestedSoFar epoch : Int} {f : VestingFund},
      vestedSoFar ≤ spec.targetVestAt provingPeriodStart vestBegin vestingSum epoch →
      f ∈ vestingSchedule spec provingPeriodStart vestBegin vestingSum vestedSoFar epoch →
      0 ≤ f.amount := by
  intro vestedSoFar epoch f hv hf
  have hs := spec.stepDuration_pos
  by_cases h : vestingSum ≤ vestedSoFar
  · rw [vestingSchedule_of_le h] at hf
    cases hf
  · rw [vestingSchedule_of_lt (not_le.mp h)] at hf
    rcases List.mem_cons.mp hf with rfl | hf
    · have hmono : spec.targetVestAt provingPeriodStart vestBegin vestingSum epoch ≤
          spec.targetVestAt provingPeriodStart vestBegin vestingSum (epoch + spec.stepDuration) :=
        VestSpec.targetVestAt_mono h0 (by omega)
      simp only
      omega
    · exact amount_nonneg_of_mem h0 le_rfl hf
termination_by vestedSoFar epoch => 2 * (vestBegin + spec.vestPeriod - epoch).toNat +
  if vestingSum ≤ vestedSoFar then 0 else 1
decreasing_by
  have hq := spec.le_vestEpochAt provingPeriodStart (epoch + spec.stepDuration)
  simp only [VestSpec.targetVestAt]
  split_ifs with h₁ h₂ h₃ <;> omega

end Schedule

/-! ## The table's operations -/

/-- The funds of `funds` vesting before `e`. -/
def vestedBy (funds : List VestingFund) (e : Int) : Int :=
  ((funds.filter fun f => decide (f.epoch < e)).map VestingFund.amount).sum

/-- The total of a list of funds. -/
def total (funds : List VestingFund) : Int := (funds.map VestingFund.amount).sum

@[simp] theorem total_nil : total [] = 0 := rfl

@[simp] theorem total_cons (f : VestingFund) (funds : List VestingFund) :
    total (f :: funds) = f.amount + total funds := by
  simp [total]

theorem total_append (l₁ l₂ : List VestingFund) : total (l₁ ++ l₂) = total l₁ + total l₂ := by
  simp [total]

/-- Of non-negative funds, those vested by an epoch are between zero and the
total. -/
theorem vestedBy_nonneg_le_total {funds : List VestingFund} (hn : ∀ f ∈ funds, 0 ≤ f.amount)
    (e : Int) : 0 ≤ vestedBy funds e ∧ vestedBy funds e ≤ total funds := by
  induction funds with
  | nil => simp [vestedBy]
  | cons f funds ih =>
    have hf := hn f List.mem_cons_self
    obtain ⟨h₁, h₂⟩ := ih fun g hg => hn g (List.mem_cons_of_mem _ hg)
    by_cases he : f.epoch < e
    · simp only [vestedBy, List.filter_cons, he, decide_true, if_true, List.map_cons,
        List.sum_cons, total_cons] at h₁ h₂ ⊢
      constructor <;> linarith
    · simp only [vestedBy, List.filter_cons, he, decide_false, Bool.false_eq_true, if_false,
        total_cons] at h₁ h₂ ⊢
      constructor <;> linarith

/-- Taking the vested funds off an ordered list takes exactly those before the
epoch, and leaves the others in order. -/
theorem takeVested_spec {funds : List VestingFund} (ho : Ordered VestingFund.epoch funds) (e : Int) :
    (takeVested funds e).1 = vestedBy funds e ∧
      total funds = (takeVested funds e).1 + total (takeVested funds e).2 ∧
      (takeVested funds e).2.Sublist funds := by
  refine ⟨by simp [takeVested, vestedBy, takeWhile_lt_eq_filter e ho], ?_,
    List.dropWhile_sublist _⟩
  have hsplit : funds.takeWhile (fun f => decide (f.epoch < e)) ++
      funds.dropWhile (fun f => decide (f.epoch < e)) = funds :=
    List.takeWhile_append_dropWhile
  conv_lhs => rw [← hsplit]
  rw [total_append]
  rfl

namespace VestingFunds

/-- The stored entries are ordered by epoch and none is negative. -/
structure Valid (v : VestingFunds) : Prop where
  ordered : Ordered VestingFund.epoch v.stored
  nonneg : ∀ f ∈ v.stored, 0 ≤ f.amount

theorem valid_new : new.Valid := ⟨List.Pairwise.nil, by simp [new, stored]⟩

@[simp] theorem stored_save (funds : List VestingFund) : (save funds).stored = funds := by
  cases funds <;> rfl

theorem load_sublist (v : VestingFunds) : v.load.Sublist v.stored := by
  unfold load stored
  rcases v with ⟨_ | ⟨head, tail⟩⟩
  · exact List.Sublist.slnil
  · dsimp only
    split_ifs
    · exact List.Sublist.refl _
    · exact List.sublist_cons_self _ _

/-- A hidden head is a zero one, so loading loses nothing. -/
theorem total_load {v : VestingFunds} (hv : v.Valid) : total v.load = total v.stored := by
  have hn := hv.nonneg
  unfold load stored at *
  rcases v with ⟨_ | ⟨head, tail⟩⟩
  · rfl
  · dsimp only at hn ⊢
    split_ifs with hpos
    · rfl
    · have : head.amount = 0 := le_antisymm (not_lt.mp hpos) (hn head List.mem_cons_self)
      simp [this]

theorem Valid.load_ordered {v : VestingFunds} (hv : v.Valid) : Ordered VestingFund.epoch v.load :=
  hv.ordered.sublist (load_sublist v)

theorem Valid.load_nonneg {v : VestingFunds} (hv : v.Valid) : ∀ f ∈ v.load, 0 ≤ f.amount :=
  fun f hf => hv.nonneg f ((load_sublist v).subset hf)

theorem valid_save {funds : List VestingFund} (ho : Ordered VestingFund.epoch funds)
    (hn : ∀ f ∈ funds, 0 ≤ f.amount) : (save funds).Valid :=
  ⟨by simpa using ho, by simpa using hn⟩

theorem valid_save_sublist {v : VestingFunds} (hv : v.Valid) {funds : List VestingFund}
    (hs : funds.Sublist v.load) : (save funds).Valid :=
  valid_save (hv.load_ordered.sublist hs) fun f hf => hv.load_nonneg f (hs.subset hf)

/-- The funds an ordered table has vested before `e` are none if its head,
which it stores first, vests at or after `e`. -/
theorem vestedBy_load_eq_zero {v : VestingFunds} (hv : v.Valid) {e : Int}
    (h : v.canVest e = false) : vestedBy v.load e = 0 := by
  have hnil : v.load.filter (fun f => decide (f.epoch < e)) = [] := by
    rw [List.filter_eq_nil_iff]
    intro f hf
    have hst := (load_sublist v).subset hf
    unfold canVest at h
    unfold stored at hst
    rcases v with ⟨_ | ⟨head, tail⟩⟩
    · cases hst
    · have hhead : e ≤ head.epoch := by simpa using h
      have ho := hv.ordered
      unfold stored at ho
      rcases List.mem_cons.mp hst with rfl | hst
      · simpa using hhead
      · simpa using hhead.trans ((List.pairwise_cons.mp ho).1 f hst)
  simp [vestedBy, hnil]

theorem unlockVestedFunds_spec {v v' : VestingFunds} (hv : v.Valid) {e u : Int}
    (h : v.unlockVestedFunds e = (v', u)) :
    v'.Valid ∧ u = vestedBy v.load e ∧ total v.load = u + total v'.load := by
  unfold unlockVestedFunds at h
  by_cases hc : v.canVest e = true
  · simp only [hc, Bool.not_true, Bool.false_eq_true, if_false, Prod.mk.injEq] at h
    obtain ⟨rfl, rfl⟩ := h
    obtain ⟨hu, htot, hsub⟩ := takeVested_spec hv.load_ordered e
    have hvalid := valid_save_sublist hv hsub
    exact ⟨hvalid, hu, by rw [total_load hvalid, stored_save, htot]⟩
  · simp only [Bool.not_eq_true] at hc
    simp only [hc, Bool.not_false, if_true, Prod.mk.injEq] at h
    obtain ⟨rfl, rfl⟩ := h
    exact ⟨hv, (vestedBy_load_eq_zero hv hc).symm, by simp⟩

/-- Adding a schedule keeps the table valid; what it unlocks is what vested,
of the old entries and the new, and the rest stays locked. -/
theorem addLockedFunds_spec {v v' : VestingFunds} (hv : v.Valid) {e vestingSum pps u : Int}
    {spec : VestSpec} (h0 : 0 ≤ vestingSum) (h : v.addLockedFunds e vestingSum pps spec = (v', u)) :
    v'.Valid ∧ total v.load + vestingSum = u + total v'.load ∧
      u = vestedBy v.load e +
        vestedBy (vestingSchedule spec pps (e + spec.initialDelay) vestingSum 0 (e + spec.initialDelay)) e := by
  unfold addLockedFunds at h
  simp only [Prod.mk.injEq] at h
  obtain ⟨rfl, rfl⟩ := h
  set sched := vestingSchedule spec pps (e + spec.initialDelay) vestingSum 0 (e + spec.initialDelay)
  have hkey : ∀ a b : VestingFund, (VestingFund.combine a b).epoch = a.epoch := fun _ _ => rfl
  have hw : ∀ a b : VestingFund, (VestingFund.combine a b).amount = a.amount + b.amount :=
    fun _ _ => rfl
  have hso : Ordered VestingFund.epoch sched := vestingSchedule_ordered _ _
  have hsn : ∀ f ∈ sched, 0 ≤ f.amount := fun f hf =>
    amount_nonneg_of_mem h0 (VestSpec.targetVestAt_nonneg h0 le_rfl) hf
  have hmo := mergeJoinBy_ordered hkey hv.load_ordered hso
  obtain ⟨hu, htot, hsub⟩ := takeVested_spec hmo e
  have hmn : ∀ f ∈ mergeJoinBy VestingFund.epoch VestingFund.combine v.load sched,
      0 ≤ f.amount :=
    mergeJoinBy_forall (fun f : VestingFund => 0 ≤ f.amount)
      (fun a b ha hb => by simp only [hw]; omega)
      hv.load_nonneg hsn
  have hvalid := valid_save (hmo.sublist hsub) fun f hf => hmn f (hsub.subset hf)
  have hsched : total sched = vestingSum - 0 := vestingSchedule_sum h0 0 _ le_rfl h0
  have hmerge : total (mergeJoinBy VestingFund.epoch VestingFund.combine v.load sched) =
      total v.load + total sched := mergeJoinBy_sum VestingFund.amount hkey hw v.load sched
  refine ⟨hvalid, ?_, ?_⟩
  · rw [total_load hvalid, stored_save, ← htot, hmerge, hsched, sub_zero]
  · rw [hu]
    exact mergeJoinBy_sum_filter VestingFund.amount (· < e) hkey hw v.load sched

/-- The slow path keeps the rest of the list in order and non-negative, and
moves every amount it takes into `vested` or `unvested`. -/
theorem unlockLoop_spec (e : Int) :
    ∀ (funds : List VestingFund) (target vested unvested : Int),
      Ordered VestingFund.epoch funds → (∀ f ∈ funds, 0 ≤ f.amount) →
      let r := unlockLoop e target vested unvested funds
      Ordered VestingFund.epoch r.2.2 ∧ (∀ f ∈ r.2.2, 0 ≤ f.amount) ∧
        total funds + vested + unvested = r.1 + r.2.1 + total r.2.2
  | [], target, vested, unvested, _, _ => by simp [unlockLoop, Ordered]
  | vf :: funds, target, vested, unvested, ho, hn => by
    obtain ⟨ho₁, ho₂⟩ := List.pairwise_cons.mp ho
    have hn₂ : ∀ f ∈ funds, 0 ≤ f.amount := fun f hf => hn f (List.mem_cons_of_mem _ hf)
    simp only [unlockLoop]
    split_ifs with hvested htake
    · obtain ⟨h₁, h₂, h₃⟩ := unlockLoop_spec e funds target (vested + vf.amount) unvested ho₂ hn₂
      exact ⟨h₁, h₂, by rw [total_cons]; linarith⟩
    · obtain ⟨h₁, h₂, h₃⟩ := unlockLoop_spec e funds (target - vf.amount) vested
        (unvested + vf.amount) ho₂ hn₂
      exact ⟨h₁, h₂, by rw [total_cons]; linarith⟩
    · -- the entry that meets the target is taken in part and put back
      refine ⟨List.Pairwise.cons (fun f hf => ho₁ f hf) ho₂, ?_, by simp only [total_cons]; ring⟩
      intro f hf
      rcases List.mem_cons.mp hf with rfl | hf
      · simp only
        omega
      · exact hn₂ f hf

theorem unlockVestedAndUnvestedFunds_spec {v v' : VestingFunds} (hv : v.Valid)
    {e target vested unvested : Int}
    (h : v.unlockVestedAndUnvestedFunds e target = (v', vested, unvested)) :
    v'.Valid ∧ total v.load = vested + unvested + total v'.load := by
  have htl := total_load hv
  have ho := hv.ordered
  have hn := hv.nonneg
  unfold unlockVestedAndUnvestedFunds at h
  rcases hin : v.inner with _ | ⟨head, tail⟩
  · rw [hin] at h
    simp only [Prod.mk.injEq] at h
    obtain ⟨rfl, rfl, rfl⟩ := h
    exact ⟨hv, by ring⟩
  · rw [hin] at h
    dsimp only at h
    split_ifs at h with hfast
    · -- the fast path only lowers the head
      simp only [Prod.mk.injEq] at h
      obtain ⟨rfl, rfl, rfl⟩ := h
      simp only [stored, hin] at ho hn htl
      have hvalid : VestingFunds.Valid ⟨some ⟨⟨head.epoch, head.amount - target⟩, tail⟩⟩ := by
        refine ⟨List.Pairwise.cons (fun f hf => (List.pairwise_cons.mp ho).1 f hf)
          (List.pairwise_cons.mp ho).2, ?_⟩
        intro f hf
        rcases List.mem_cons.mp hf with rfl | hf
        · simp only
          omega
        · exact hn f (List.mem_cons_of_mem _ hf)
      refine ⟨hvalid, ?_⟩
      rw [htl, total_load hvalid]
      simp only [stored, total_cons]
      ring
    · simp only [Prod.mk.injEq] at h
      obtain ⟨rfl, rfl, rfl⟩ := h
      obtain ⟨h₁, h₂, h₃⟩ := unlockLoop_spec e v.load target 0 0 hv.load_ordered hv.load_nonneg
      have hvalid := valid_save h₁ h₂
      refine ⟨hvalid, ?_⟩
      rw [total_load hvalid, stored_save]
      simpa using h₃

end VestingFunds

end BuiltinActors.Miner
