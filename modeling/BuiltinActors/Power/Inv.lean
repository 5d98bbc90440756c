import BuiltinActors.Power.Actor

/-! # The power actor's accounting invariant

`check_state_invariants` requires the recorded totals to be sums over the
claims: the number of miners, the committed power, and the number and power of
the miners at or above the consensus minimum. `TotalsInv` is all of it but the
miner count, with what keeps the sums meaningful (claims non-negative and of a
supported proof type, pledge non-negative) and the order of the cron queue (no
event before the first cron epoch, no empty epoch); `WInv` adds the count.

Every call other than the tick keeps `WInv`, and so does every run of such
calls. -/

namespace BuiltinActors.Power

/-- A claim counts towards the qualified totals when it reaches the consensus
minimum of its proof type; the check skips a claim whose proof type has none. -/
def Claim.meetsMin (policy : Policy) (c : Claim) : Bool :=
  match consensusMinerMinPower policy c.windowPostProofType with
  | .ok minPower => decide (minPower ≤ c.rawBytePower)
  | .error _ => false

/-- The five totals of `st` that `check_claims_invariants` recomputes are the
sums over `claims`. -/
structure SumsOver (policy : Policy) (st : State) (claims : OrdMap Address Claim) : Prop where
  bytesCommitted : st.totalBytesCommitted = claims.sumBy fun _ c => c.rawBytePower
  qaBytesCommitted : st.totalQaBytesCommitted = claims.sumBy fun _ c => c.qualityAdjPower
  aboveMinCount : st.minerAboveMinPowerCount =
    claims.sumBy fun _ c => if c.meetsMin policy then 1 else 0
  rawBytePower : st.totalRawBytePower =
    claims.sumBy fun _ c => if c.meetsMin policy then c.rawBytePower else 0
  qualityAdjPower : st.totalQualityAdjPower =
    claims.sumBy fun _ c => if c.meetsMin policy then c.qualityAdjPower else 0

structure TotalsInv (policy : Policy) (st : State) : Prop where
  sums : SumsOver policy st st.claims
  claim_nonneg : ∀ a c, st.claims.get? a = some c → 0 ≤ c.rawBytePower ∧ 0 ≤ c.qualityAdjPower
  supported : ∀ a c, st.claims.get? a = some c →
    consensusMinerMinPower policy c.windowPostProofType = .ok policy.minimumConsensusPower
  pledge_nonneg : 0 ≤ st.totalPledgeCollateral
  cron_after_first : ∀ e evts, st.cronEventQueue.get? e = some evts → st.firstCronEpoch ≤ e
  queue_nonempty : QueueNonempty st

structure WInv (policy : Policy) (st : State) : Prop extends TotalsInv policy st where
  minerCount : st.minerCount = st.claims.sumBy fun _ _ => 1

variable {policy : Policy}

theorem Claim.meetsMin_eq {c : Claim} {minPower : Int}
    (h : consensusMinerMinPower policy c.windowPostProofType = .ok minPower) :
    c.meetsMin policy = decide (minPower ≤ c.rawBytePower) := by
  simp [Claim.meetsMin, h]

theorem TotalsInv.totals_nonneg {st : State} (hi : TotalsInv policy st) :
    0 ≤ st.totalBytesCommitted ∧ 0 ≤ st.totalQaBytesCommitted ∧
      0 ≤ st.totalRawBytePower ∧ 0 ≤ st.totalQualityAdjPower := by
  have hc := hi.claim_nonneg
  refine ⟨?_, ?_, ?_, ?_⟩
  · rw [hi.sums.bytesCommitted]
    exact OrdMap.sumBy_nonneg _ fun a c h => (hc a c h).1
  · rw [hi.sums.qaBytesCommitted]
    exact OrdMap.sumBy_nonneg _ fun a c h => (hc a c h).2
  · rw [hi.sums.rawBytePower]
    exact OrdMap.sumBy_nonneg _ fun a c h => by split_ifs <;> simp [(hc a c h).1]
  · rw [hi.sums.qualityAdjPower]
    exact OrdMap.sumBy_nonneg _ fun a c h => by split_ifs <;> simp [(hc a c h).2]

/-! ## Moving one claim -/

section Move

variable {st : State} {m : OrdMap Address Claim} {a : Address}

/-- The sums read a state's five totals only. -/
theorem SumsOver.congr {st' : State} (hs : SumsOver policy st m)
    (h₁ : st'.totalBytesCommitted = st.totalBytesCommitted)
    (h₂ : st'.totalQaBytesCommitted = st.totalQaBytesCommitted)
    (h₃ : st'.minerAboveMinPowerCount = st.minerAboveMinPowerCount)
    (h₄ : st'.totalRawBytePower = st.totalRawBytePower)
    (h₅ : st'.totalQualityAdjPower = st.totalQualityAdjPower) : SumsOver policy st' m :=
  ⟨h₁.trans hs.bytesCommitted, h₂.trans hs.qaBytesCommitted, h₃.trans hs.aboveMinCount,
    h₄.trans hs.rawBytePower, h₅.trans hs.qualityAdjPower⟩

/-- The sums follow `claimMoved`: a claim of a supported proof type replaced by
one of the same type moves each total by the difference of their terms. -/
theorem SumsOver.claimMoved {old : Claim} (hs : SumsOver policy st m)
    (hc : m.get? a = some old)
    (hp : consensusMinerMinPower policy old.windowPostProofType = .ok policy.minimumConsensusPower)
    (new : Claim) (hpt : new.windowPostProofType = old.windowPostProofType) :
    SumsOver policy (st.claimMoved policy.minimumConsensusPower old new) (m.set a new) := by
  have hold := Claim.meetsMin_eq hp
  have hnew : new.meetsMin policy = decide (policy.minimumConsensusPower ≤ new.rawBytePower) :=
    Claim.meetsMin_eq (hpt ▸ hp)
  constructor <;> simp only [OrdMap.sumBy_set_of_get? hc, State.claimMoved, hold, hnew,
    decide_eq_true_eq, hs.bytesCommitted, hs.qaBytesCommitted, hs.aboveMinCount,
    hs.rawBytePower, hs.qualityAdjPower] <;> abel

/-- Erasing a claim without terms: no power, and below a positive minimum. -/
theorem SumsOver.erase {c : Claim} (hs : SumsOver policy st m) (hc : m.get? a = some c)
    (hraw : c.rawBytePower = 0) (hqa : c.qualityAdjPower = 0) (hmin : c.meetsMin policy = false) :
    SumsOver policy st (m.erase a) := by
  constructor <;> simp only [OrdMap.sumBy_erase_of_get? hc, hraw, hqa, hmin, Bool.false_eq_true,
    if_false, sub_zero, hs.bytesCommitted, hs.qaBytesCommitted, hs.aboveMinCount,
    hs.rawBytePower, hs.qualityAdjPower]

end Move

/-! ## Calls other than the tick -/

section Calls

variable {st st' : State}

theorem WInv.addToClaim {miner : Address} {power qaPower : Int} (hi : WInv policy st)
    (h : State.addToClaim policy miner power qaPower st = .ok () st') : WInv policy st' := by
  cases hc : st.claims.get? miner with
  | none =>
    rw [State.addToClaim_of_get?_none hc] at h
    cases h
  | some old =>
    have hp := hi.supported miner old hc
    obtain ⟨hr, hq, rfl⟩ := State.addToClaim_ok hc hp h
    exact {
      sums := (hi.sums.claimMoved hc hp { old with
        rawBytePower := old.rawBytePower + power
        qualityAdjPower := old.qualityAdjPower + qaPower } rfl).congr rfl rfl rfl rfl rfl
      claim_nonneg := OrdMap.forall_get?_set hi.claim_nonneg ⟨hr, hq⟩
      supported := OrdMap.forall_get?_set hi.supported hp
      pledge_nonneg := hi.pledge_nonneg
      cron_after_first := hi.cron_after_first
      queue_nonempty := hi.queue_nonempty
      -- the claim stays, so the count of claims does too
      minerCount := by
        rw [OrdMap.sumBy_set_of_get? hc, ← hi.minerCount]
        simp [State.claimMoved] }

theorem WInv.createMiner {idAddress : Address} {params : CreateMinerParams}
    (hi : WInv policy st) (hfresh : st.claims.get? idAddress = none)
    (h : createMiner policy idAddress params st = .ok st') : WInv policy st' := by
  obtain ⟨minPower, hp, rfl⟩ := createMiner_ok h
  obtain rfl := consensusMinerMinPower_ok hp
  -- the new claim is empty: a miner, with a share only when the minimum is not positive
  have hmeets : Claim.meetsMin policy
      { windowPostProofType := params.windowPostProofType, qualityAdjPower := 0,
        rawBytePower := 0 } = decide (policy.minimumConsensusPower ≤ 0) :=
    Claim.meetsMin_eq hp
  have hsums := hi.sums
  exact {
    sums := by
      constructor <;> simp only [OrdMap.sumBy_set_of_get?_none hfresh, hmeets, decide_eq_true_eq,
        ← hsums.bytesCommitted, ← hsums.qaBytesCommitted, ← hsums.aboveMinCount,
        ← hsums.rawBytePower, ← hsums.qualityAdjPower, add_zero]
      all_goals split_ifs <;> omega
    claim_nonneg := OrdMap.forall_get?_set hi.claim_nonneg ⟨le_rfl, le_rfl⟩
    supported := OrdMap.forall_get?_set hi.supported hp
    pledge_nonneg := hi.pledge_nonneg
    cron_after_first := hi.cron_after_first
    queue_nonempty := hi.queue_nonempty
    minerCount := by
      rw [OrdMap.sumBy_set_of_get?_none hfresh, ← hi.minerCount] }

theorem WInv.enrollCronEvent {caller : Address} {params : EnrollCronEventParams}
    (hi : WInv policy st) (h : enrollCronEvent caller params st = .ok st') : WInv policy st' := by
  obtain ⟨-, rfl⟩ := enrollCronEvent_ok h
  exact {
    sums := hi.sums.congr rfl rfl rfl rfl rfl
    claim_nonneg := hi.claim_nonneg
    supported := hi.supported
    pledge_nonneg := hi.pledge_nonneg
    -- the first cron epoch moves back to the new event's epoch if it is earlier
    cron_after_first := fun e evts he => by
      simp only [State.appendCronEvent, OrdMap.get?_set] at he ⊢
      split_ifs at he ⊢ with h₁ h₂ <;> first | omega | exact le_trans (by omega) (hi.cron_after_first e evts he)
    queue_nonempty := fun e evts he => by
      simp only [State.appendCronEvent, OrdMap.get?_set] at he
      split_ifs at he
      · cases he
        simp
      · exact hi.queue_nonempty e evts he
    minerCount := hi.minerCount }

theorem WInv.updatePledgeTotal {caller : Address} {params : UpdatePledgeTotalParams}
    (hi : WInv policy st) (h : updatePledgeTotal caller params st = .ok st') : WInv policy st' := by
  obtain ⟨-, hpos, rfl⟩ := updatePledgeTotal_ok h
  exact {
    sums := hi.sums.congr rfl rfl rfl rfl rfl
    claim_nonneg := hi.claim_nonneg
    supported := hi.supported
    pledge_nonneg := hpos
    cron_after_first := hi.cron_after_first
    queue_nonempty := hi.queue_nonempty
    minerCount := hi.minerCount }

/-- Each call keeps the invariant, given a fresh address for a new miner. -/
theorem WInv.step (hi : WInv policy st) (h : Step policy st st') : WInv policy st' := by
  obtain ⟨c, hfresh, h⟩ := h
  cases c with
  | createMiner idAddress params => exact hi.createMiner hfresh h
  | updateClaimedPower caller params => exact hi.addToClaim (updateClaimedPower_ok h)
  | enrollCronEvent caller params => exact hi.enrollCronEvent h
  | updatePledgeTotal caller params => exact hi.updatePledgeTotal h

theorem WInv.runs (hi : WInv policy st) (h : Relation.ReflTransGen (Step policy) st st') :
    WInv policy st' := by
  induction h with
  | refl => exact hi
  | tail _ hstep ih => exact ih.step hstep

end Calls

/-! ## The cron tick -/

section Tick

variable {st st' : State}

/-- Calls keep every claim: no call deletes one. -/
theorem WInv.step_claims {a : Address} (hi : WInv policy st) (h : Step policy st st')
    (ha : (st.claims.get? a).isSome) : (st'.claims.get? a).isSome := by
  obtain ⟨c, -, h⟩ := h
  cases c with
  | createMiner idAddress params =>
    obtain ⟨-, -, rfl⟩ := createMiner_ok h
    simp only [OrdMap.get?_set]
    split_ifs <;> simp [ha]
  | updateClaimedPower caller params =>
    have h := updateClaimedPower_ok h
    cases hc : st.claims.get? caller with
    | none =>
      rw [State.addToClaim_of_get?_none hc] at h
      cases h
    | some old =>
      obtain ⟨-, -, rfl⟩ := State.addToClaim_ok hc (hi.supported caller old hc) h
      simp only [OrdMap.get?_set]
      split_ifs <;> simp [ha]
  | enrollCronEvent caller params =>
    obtain ⟨-, rfl⟩ := enrollCronEvent_ok h
    exact ha
  | updatePledgeTotal caller params =>
    obtain ⟨-, -, rfl⟩ := updatePledgeTotal_ok h
    exact ha

theorem WInv.runs_claims {a : Address} (hi : WInv policy st)
    (h : Relation.ReflTransGen (Step policy) st st') (ha : (st.claims.get? a).isSome) :
    (st'.claims.get? a).isSome := by
  induction h with
  | refl => exact ha
  | tail hrun hstep ih => exact (hi.runs hrun).step_claims hstep ih

/-- Along the callbacks the invariant holds and no claim is lost; every failed
miner is the miner of one of the events called. -/
theorem WInv.callbacks {evts : List CronEvent} {failed : List Address} (hi : WInv policy st)
    (h : Callbacks policy st evts st' failed) :
    WInv policy st' ∧ (∀ a, (st.claims.get? a).isSome → (st'.claims.get? a).isSome) ∧
      ∀ a ∈ failed, ∃ evt ∈ evts, evt.minerAddr = a := by
  induction h with
  | nil => exact ⟨hi, fun _ ha => ha, by simp⟩
  | ok hrun _ ih =>
    obtain ⟨hi₂, hkeep, hfailed⟩ := ih (hi.runs hrun)
    refine ⟨hi₂, fun a ha => hkeep a (hi.runs_claims hrun ha), fun a ha => ?_⟩
    obtain ⟨evt, hevt, rfl⟩ := hfailed a ha
    exact ⟨evt, List.mem_cons_of_mem _ hevt, rfl⟩
  | @fail _ _ evt _ _ _ ih =>
    obtain ⟨hi₂, hkeep, hfailed⟩ := ih hi
    refine ⟨hi₂, hkeep, fun a ha => ?_⟩
    rcases List.mem_cons.mp ha with rfl | ha
    · exact ⟨evt, List.mem_cons_self, rfl⟩
    · obtain ⟨e, he, rfl⟩ := hfailed a ha
      exact ⟨e, List.mem_cons_of_mem _ he, rfl⟩

/-- The queue walk keeps the invariant: the claims and totals stay, and what is
left of the queue lies after the tick's epoch, where the first cron epoch now
is. -/
theorem WInv.takeDueCronEvents {rtEpoch : Int} (hi : WInv policy st) :
    WInv policy (takeDueCronEvents rtEpoch st).1 := by
  obtain ⟨hst, hget, -⟩ := @takeDueCronEvents_spec rtEpoch st hi.queue_nonempty
  rw [hst]
  exact {
    sums := hi.sums.congr rfl rfl rfl rfl rfl
    claim_nonneg := hi.claim_nonneg
    supported := hi.supported
    pledge_nonneg := hi.pledge_nonneg
    cron_after_first := fun e evts he => by
      -- an epoch still queued was not walked, so it lies after `rtEpoch`
      rw [hget e] at he
      split_ifs at he with hwalked
      have := hi.cron_after_first e evts he
      simp only
      omega
    queue_nonempty := fun e evts he => by
      rw [hget e] at he
      split_ifs at he
      exact hi.queue_nonempty e evts he
    minerCount := hi.minerCount }

/-- Under a positive minimum, deleting a miner's claim always succeeds: the
claim, if there is one, is erased with its terms, and nothing else changes. -/
theorem TotalsInv.deleteClaim (hi : TotalsInv policy st) (hmin : 0 < policy.minimumConsensusPower)
    (a : Address) :
    ∃ st₁, State.deleteClaim policy a st = .ok () st₁ ∧ TotalsInv policy st₁ ∧
      st₁.minerCount = st.minerCount ∧ st₁.claims = st.claims.erase a := by
  cases hc : st.claims.get? a with
  | none => exact ⟨st, State.deleteClaim_of_get?_none hc, hi, rfl, (OrdMap.erase_of_get?_none hc).symm⟩
  | some c =>
    have hp := hi.supported a c hc
    let empty : Claim := { c with rawBytePower := 0, qualityAdjPower := 0 }
    have hempty : empty.meetsMin policy = false := by
      simp only [Claim.meetsMin, empty, hp]
      simpa using hmin
    -- the count of miners at the minimum includes this one if it is there
    have hshare : (if policy.minimumConsensusPower ≤ c.rawBytePower then 1 else 0) ≤
        st.minerAboveMinPowerCount := by
      have hrest := OrdMap.sumBy_nonneg (st.claims.erase a)
        (f := fun _ c => if c.meetsMin policy then (1 : Int) else 0) fun _ _ _ => by split_ifs <;> simp
      rw [OrdMap.sumBy_erase_of_get? hc, ← hi.sums.aboveMinCount, Claim.meetsMin_eq hp] at hrest
      simpa using hrest
    have hcount : 0 ≤ (st.claimMoved policy.minimumConsensusPower c empty).minerAboveMinPowerCount := by
      simp only [State.claimMoved, empty, not_le.mpr hmin, if_false]
      omega
    refine ⟨_, State.deleteClaim_of_get?_some hc hp hcount, ?_, rfl, rfl⟩
    have hmoved := hi.sums.claimMoved hc hp empty rfl
    have herase := hmoved.erase (a := a) (by simp) rfl rfl hempty
    rw [OrdMap.erase_set] at herase
    exact {
      sums := herase.congr rfl rfl rfl rfl rfl
      claim_nonneg := OrdMap.forall_get?_erase hi.claim_nonneg a
      supported := OrdMap.forall_get?_erase hi.supported a
      pledge_nonneg := hi.pledge_nonneg
      cron_after_first := hi.cron_after_first
      queue_nonempty := hi.queue_nonempty }

/-- The failed-callback transaction, under a positive minimum: every listed
miner loses its claim, and the miner count drops once per entry of the list,
whether or not a claim was left to delete. -/
theorem TotalsInv.removeFailed (hmin : 0 < policy.minimumConsensusPower) :
    ∀ (failed : List Address) (st : State), TotalsInv policy st →
      let st' := removeFailedMinerPower policy failed st
      TotalsInv policy st' ∧ st'.minerCount = st.minerCount - failed.length ∧
        st'.claims = failed.foldl OrdMap.erase st.claims
  | [], st, hi => ⟨hi, by simp [removeFailedMinerPower], rfl⟩
  | a :: rest, st, hi => by
    obtain ⟨st₁, hdel, hi₁, hcount, hclaims⟩ := hi.deleteClaim hmin a
    have hi₁' : TotalsInv policy { st₁ with minerCount := st₁.minerCount - 1 } :=
      { hi₁ with sums := hi₁.sums.congr rfl rfl rfl rfl rfl }
    obtain ⟨hi₂, hcount₂, hclaims₂⟩ := TotalsInv.removeFailed hmin rest _ hi₁'
    simp only [removeFailedMinerPower, List.foldl_cons, hdel] at hi₂ hcount₂ hclaims₂ ⊢
    refine ⟨hi₂, ?_, ?_⟩
    · rw [hcount₂, hcount, List.length_cons]
      omega
    · rw [hclaims₂, hclaims]

/-- With no miner listed twice and each with a claim, the miner count drops
exactly as the claims do. -/
theorem WInv.removeFailed (hi : WInv policy st) (hmin : 0 < policy.minimumConsensusPower)
    {failed : List Address} (hnd : failed.Nodup) (hall : ∀ a ∈ failed, (st.claims.get? a).isSome) :
    WInv policy (removeFailedMinerPower policy failed st) := by
  obtain ⟨hi', hcount, hclaims⟩ := TotalsInv.removeFailed hmin failed st hi.toTotalsInv
  refine { hi' with minerCount := ?_ }
  rw [hcount, hclaims, OrdMap.sumBy_foldl_erase failed st.claims hnd, ← hi.minerCount]
  -- each listed miner had a claim, so each takes one off the count of claims
  have hones : (failed.map fun k => (st.claims.get? k).elim 0 fun _ => (1 : Int)) =
      failed.map fun _ => 1 :=
    List.map_congr_left fun k hk => by
      obtain ⟨c, hc⟩ := Option.isSome_iff_exists.mp (hall k hk)
      simp [hc]
  rw [hones]
  simp

theorem TotalsInv.freezeEpochTotals (hi : TotalsInv policy st) :
    TotalsInv policy (freezeEpochTotals st) := by
  obtain ⟨raw, qa, smoothed, heq⟩ := freezeEpochTotals_eq st
  rw [heq]
  exact {
    sums := hi.sums.congr rfl rfl rfl rfl rfl
    claim_nonneg := hi.claim_nonneg
    supported := hi.supported
    pledge_nonneg := hi.pledge_nonneg
    cron_after_first := hi.cron_after_first
    queue_nonempty := hi.queue_nonempty }

theorem WInv.freezeEpochTotals (hi : WInv policy st) : WInv policy (freezeEpochTotals st) := by
  obtain ⟨raw, qa, smoothed, heq⟩ := freezeEpochTotals_eq st
  refine { hi.toTotalsInv.freezeEpochTotals with minerCount := ?_ }
  rw [heq]
  exact hi.minerCount

/-- After the queue walk and the callbacks of a tick, the invariant holds and
every miner whose callback failed still has its claim. -/
theorem WInv.tickCallbacks {rtEpoch : Int} {failed : List Address} (hi : WInv policy st)
    (hcb : Callbacks policy (Power.takeDueCronEvents rtEpoch st).1
      (Power.takeDueCronEvents rtEpoch st).2 st' failed) :
    WInv policy st' ∧ ∀ a ∈ failed, (st'.claims.get? a).isSome := by
  obtain ⟨hst, -, hevts⟩ := @takeDueCronEvents_spec rtEpoch st hi.queue_nonempty
  obtain ⟨hi', hkeep, hfailed⟩ := hi.takeDueCronEvents.callbacks hcb
  refine ⟨hi', fun a ha => hkeep a ?_⟩
  -- a failed miner had an event, and events were only kept for miners with a claim
  obtain ⟨evt, hevt, rfl⟩ := hfailed a ha
  rw [hst]
  exact hevts evt hevt

end Tick

/-! ## Results -/

theorem State.new_winv : WInv policy State.new where
  sums := by constructor <;> rfl
  claim_nonneg := by simp [State.new]
  supported := by simp [State.new]
  pledge_nonneg := le_rfl
  cron_after_first := by simp [State.new]
  queue_nonempty := by simp [QueueNonempty, State.new]
  minerCount := rfl

def doubleFailurePolicy : Policy := ⟨10⟩

def doubleFailureMiner : Address := ⟨1000⟩

/-- A miner with an empty claim and two cron events due at epoch 5. -/
def doubleFailureState : State := { State.new with
  minerCount := 1
  cronEventQueue := OrdMap.empty.set 5 [⟨doubleFailureMiner, []⟩, ⟨doubleFailureMiner, []⟩]
  firstCronEpoch := 5
  claims := OrdMap.empty.set doubleFailureMiner ⟨.stackedDRGWindow32GiBV1P1, 0, 0⟩ }

theorem doubleFailureState_winv : WInv doubleFailurePolicy doubleFailureState where
  sums := by constructor <;> rfl
  claim_nonneg := by
    intro a c h
    simp only [doubleFailureState, OrdMap.get?_set, OrdMap.get?_empty] at h
    split_ifs at h
    cases h
    simp
  supported := by
    intro a c h
    simp only [doubleFailureState, OrdMap.get?_set, OrdMap.get?_empty] at h
    split_ifs at h
    cases h
    rfl
  pledge_nonneg := le_rfl
  cron_after_first := by
    intro e evts h
    simp only [doubleFailureState, OrdMap.get?_set, OrdMap.get?_empty] at h
    split_ifs at h with he
    simp [he, doubleFailureState]
  queue_nonempty := by
    intro e evts h
    simp only [doubleFailureState, OrdMap.get?_set, OrdMap.get?_empty] at h
    split_ifs at h
    cases h
    simp
  minerCount := rfl

/-- Both events are due, the miner still has its claim when they are taken,
and both callbacks fail. -/
theorem doubleFailure_callbacks :
    Callbacks doubleFailurePolicy (takeDueCronEvents 5 doubleFailureState).1
      (takeDueCronEvents 5 doubleFailureState).2 (takeDueCronEvents 5 doubleFailureState).1
      [doubleFailureMiner, doubleFailureMiner] := by
  have hdue : (takeDueCronEvents 5 doubleFailureState).2 =
      [⟨doubleFailureMiner, []⟩, ⟨doubleFailureMiner, []⟩] := by
    rfl
  rw [hdue]
  exact .fail (.fail (.nil _))

/-- The tick at epoch 5 in which both of the miner's callbacks fail deletes its
claim once but lowers the miner count twice. -/
theorem tick_double_failure_miner_count :
    WInv doubleFailurePolicy doubleFailureState ∧
    ∃ st', OnEpochTickEnd doubleFailurePolicy 5 doubleFailureState st' ∧
      st'.minerCount = -1 ∧ st'.claims.sumBy (fun _ _ => (1 : Int)) = 0 ∧
      ¬ WInv doubleFailurePolicy st' := by
  refine ⟨doubleFailureState_winv, _, ⟨_, _, doubleFailure_callbacks, rfl⟩, ?_, ?_, ?_⟩
  · decide
  · decide
  · intro h
    have hcount := h.minerCount
    revert hcount
    decide

/-- What any cron tick does to the accounting under a positive minimum: all of
the invariant but the miner count holds after it, while the miner count drops
once per failed callback and the claims lose each failed miner once. -/
theorem on_epoch_tick_end_miner_count_drift (policy : Policy) :
    ∀ rtEpoch st st₁ failed, WInv policy st → 0 < policy.minimumConsensusPower →
      Callbacks policy (takeDueCronEvents rtEpoch st).1 (takeDueCronEvents rtEpoch st).2 st₁ failed →
      let st' := freezeEpochTotals
        (if failed.isEmpty then st₁ else removeFailedMinerPower policy failed st₁)
      TotalsInv policy st' ∧ st'.minerCount = st₁.minerCount - failed.length ∧
        st'.claims = failed.foldl OrdMap.erase st₁.claims := by
  intro rtEpoch st st₁ failed hi hmin hcb
  obtain ⟨hi₁, -⟩ := hi.tickCallbacks hcb
  obtain ⟨hi₂, hcount, hclaims⟩ := TotalsInv.removeFailed hmin failed st₁ hi₁.toTotalsInv
  -- the empty list of failures is the transaction the source skips
  have hrm : (if failed.isEmpty then st₁ else removeFailedMinerPower policy failed st₁) =
      removeFailedMinerPower policy failed st₁ := by
    split
    · next hemp => rw [List.isEmpty_iff.mp hemp]; rfl
    · rfl
  obtain ⟨raw, qa, smoothed, heq⟩ := freezeEpochTotals_eq (removeFailedMinerPower policy failed st₁)
  dsimp only
  rw [hrm]
  refine ⟨hi₂.freezeEpochTotals, ?_, ?_⟩ <;> rw [heq]
  · exact hcount
  · exact hclaims

theorem on_epoch_tick_end_miner_count_drift_double :
    WInv doubleFailurePolicy doubleFailureState ∧ 0 < doubleFailurePolicy.minimumConsensusPower ∧
    Callbacks doubleFailurePolicy (takeDueCronEvents 5 doubleFailureState).1
      (takeDueCronEvents 5 doubleFailureState).2 (takeDueCronEvents 5 doubleFailureState).1
      [doubleFailureMiner, doubleFailureMiner] ∧
    (freezeEpochTotals (removeFailedMinerPower doubleFailurePolicy
      [doubleFailureMiner, doubleFailureMiner] (takeDueCronEvents 5 doubleFailureState).1)).minerCount =
      (takeDueCronEvents 5 doubleFailureState).1.minerCount - 2 :=
  ⟨doubleFailureState_winv, by decide, doubleFailure_callbacks,
    (on_epoch_tick_end_miner_count_drift doubleFailurePolicy 5 doubleFailureState _ _
      doubleFailureState_winv (by decide) doubleFailure_callbacks).2.1⟩

end BuiltinActors.Power
