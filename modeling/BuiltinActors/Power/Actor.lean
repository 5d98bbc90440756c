import Mathlib.Logic.Relation
import BuiltinActors.Lib.Except
import BuiltinActors.Power.State

/-! # Storage power actor methods

The methods that change the claims, the totals and the cron queue. Each
method's writes happen in a state transaction; the sends it makes are to
other actors:

* `create_miner` has the init actor create the miner (whose constructor does
  not call back) and is given the ID address it returns;
* `on_epoch_tick_end` first takes the due cron events off the queue, then
  calls each event's miner. A miner's callback may itself call the power
  actor; a callback that returns keeps those calls, one that fails is rolled
  back and its miner recorded. The claims of recorded miners are then deleted
  in one more transaction, and the epoch's totals are frozen.

The sends to the reward actor (before and after) do not call back; the
tick is modelled along its successful runs, as a relation. Caller checks by
actor type are the environment's: a method is given its caller. -/

namespace BuiltinActors.Power

structure CreateMinerParams where
  windowPostProofType : RegisteredPoStProof

structure UpdateClaimedPowerParams where
  rawByteDelta : Int
  qualityAdjustedDelta : Int

structure EnrollCronEventParams where
  eventEpoch : Int
  payload : List UInt8

structure UpdatePledgeTotalParams where
  pledgeDelta : Int

/-- Registers the miner the init actor created at `idAddress`, with an empty
claim. -/
def createMiner (policy : Policy) (idAddress : Address) (params : CreateMinerParams)
    (st : State) : Except ActorError State :=
  Prod.snd <$> transaction (do
    State.setClaim idAddress
      { windowPostProofType := params.windowPostProofType, qualityAdjPower := 0, rawBytePower := 0 }
    modify fun st => { st with minerCount := st.minerCount + 1 }
    match State.updateStatsForNewMiner policy params.windowPostProofType (← get) with
    | .ok st => set st
    | .error e =>
      throw (.illegalState s!"failed to update power stats for new miner {idAddress}: {e}")) st

/-- Adds or removes claimed power for the calling miner. -/
def updateClaimedPower (policy : Policy) (minerAddr : Address) (params : UpdateClaimedPowerParams)
    (st : State) : Except ActorError State :=
  Prod.snd <$> transaction
    (State.addToClaim policy minerAddr params.rawByteDelta params.qualityAdjustedDelta) st

def enrollCronEvent (caller : Address) (params : EnrollCronEventParams) (st : State) :
    Except ActorError State := do
  let minerEvent : CronEvent := { minerAddr := caller, callbackPayload := params.payload }
  -- a large negative epoch would cause problems in cron processing
  if params.eventEpoch < 0 then
    throw (.illegalArgument s!"cron event epoch {params.eventEpoch} cannot be less than zero")
  return st.appendCronEvent params.eventEpoch minerEvent

def updatePledgeTotal (caller : Address) (params : UpdatePledgeTotalParams) (st : State) :
    Except ActorError State := do
  st.validateMinerHasClaim caller
  let st := st.addPledgeTotal params.pledgeDelta
  if st.totalPledgeCollateral < 0 then
    throw (.illegalState s!"negative total pledge collateral {st.totalPledgeCollateral}")
  return st

/-! ## What the methods do -/

section Spec

variable {policy : Policy} {st st' : State}

theorem createMiner_ok {idAddress : Address} {params : CreateMinerParams}
    (h : createMiner policy idAddress params st = .ok st') :
    ∃ minPower, consensusMinerMinPower policy params.windowPostProofType = .ok minPower ∧
      st' = { st with
        minerCount := st.minerCount + 1
        minerAboveMinPowerCount := st.minerAboveMinPowerCount + if 0 < minPower then 0 else 1
        claims := st.claims.set idAddress
          { windowPostProofType := params.windowPostProofType, qualityAdjPower := 0,
            rawBytePower := 0 } } := by
  simp only [createMiner, Except.map_eq_ok] at h
  obtain ⟨⟨u, st''⟩, h, rfl⟩ := h
  rw [transaction_eq_ok] at h
  cases hp : consensusMinerMinPower policy params.windowPostProofType with
  | error e => simp [State.setClaim, State.updateStatsForNewMiner, hp] at h
  | ok minPower =>
    refine ⟨minPower, rfl, ?_⟩
    have hpure : ∀ s : State, (pure s : Except String State) = .ok s := fun _ => rfl
    rcases le_or_gt minPower 0 with h0 | h0
    · simp [State.setClaim, State.updateStatsForNewMiner, hp, h0, hpure] at h
      subst h
      simp [h0.not_gt]
    · simp [State.setClaim, State.updateStatsForNewMiner, hp, h0.not_ge, hpure] at h
      subst h
      simp [h0]

theorem updateClaimedPower_ok {minerAddr : Address} {params : UpdateClaimedPowerParams}
    (h : updateClaimedPower policy minerAddr params st = .ok st') :
    State.addToClaim policy minerAddr params.rawByteDelta params.qualityAdjustedDelta st =
      .ok () st' := by
  simp only [updateClaimedPower, Except.map_eq_ok] at h
  obtain ⟨⟨u, st''⟩, h, rfl⟩ := h
  exact transaction_eq_ok.mp h

theorem enrollCronEvent_ok {caller : Address} {params : EnrollCronEventParams}
    (h : enrollCronEvent caller params st = .ok st') :
    0 ≤ params.eventEpoch ∧
      st' = st.appendCronEvent params.eventEpoch ⟨caller, params.payload⟩ := by
  simp [enrollCronEvent] at h
  exact ⟨h.1, h.2.symm⟩

theorem updatePledgeTotal_ok {caller : Address} {params : UpdatePledgeTotalParams}
    (h : updatePledgeTotal caller params st = .ok st') :
    (st.claims.get? caller).isSome ∧ 0 ≤ st.totalPledgeCollateral + params.pledgeDelta ∧
      st' = st.addPledgeTotal params.pledgeDelta := by
  simp [updatePledgeTotal, State.validateMinerHasClaim, State.addPledgeTotal] at h
  obtain ⟨hc, hpos, rfl⟩ := h
  exact ⟨Option.isSome_iff_ne_none.mpr hc, hpos, rfl⟩

end Spec

/-! ## The cron tick -/

def loadCronEvents (st : State) (epoch : Int) : List CronEvent :=
  (st.cronEventQueue.get? epoch).getD []

/-- The epochs from `first` to `last`, both included, in order. -/
def epochsThrough (first last : Int) : List Int :=
  (List.range (last + 1 - first).toNat).map fun i : Nat => first + i

/-- One epoch of the walk over the queue: its events leave the queue, and
those of miners with a claim are kept for their callbacks. -/
def takeEpochEvents (claims : OrdMap Address Claim) :
    State × List CronEvent → Int → State × List CronEvent
  | (st, cronEvents), epoch =>
    let epochEvents := loadCronEvents st epoch
    if epochEvents.isEmpty then (st, cronEvents)
    else
      ({ st with cronEventQueue := st.cronEventQueue.erase epoch },
        cronEvents ++ epochEvents.filter fun evt => (claims.get? evt.minerAddr).isSome)

/-- The first transaction of `process_deferred_cron_events`: the events due by
`rtEpoch`, taken off the queue, with the claims as they stood at its start. -/
def takeDueCronEvents (rtEpoch : Int) (st : State) : State × List CronEvent :=
  let (st', cronEvents) :=
    (epochsThrough st.firstCronEpoch rtEpoch).foldl (takeEpochEvents st.claims) (st, [])
  ({ st' with firstCronEpoch := rtEpoch + 1 }, cronEvents)

/-- The last transaction of `process_deferred_cron_events`: removes the power of
each miner whose callback failed and leaves it frozen. A deletion that fails
is logged and skipped, keeping the writes it made; after each one that
returns, the miner count drops. -/
def removeFailedMinerPower (policy : Policy) (failedMinerCrons : List Address) (st : State) :
    State :=
  failedMinerCrons.foldl (fun st minerAddr =>
    match State.deleteClaim policy minerAddr st with
    | .error _ st => st
    | .ok () st => { st with minerCount := st.minerCount - 1 }) st

/-- The last transaction of `on_epoch_tick_end`: freezes the epoch's totals. -/
def freezeEpochTotals (st : State) : State :=
  let (rawBytePower, qaPower) := st.currentTotalPower
  let st := { st with
    thisEpochPledgeCollateral := st.totalPledgeCollateral
    thisEpochQualityAdjPower := qaPower
    thisEpochRawBytePower := rawBytePower }
  -- cron runs every epoch
  st.updateSmoothedEstimate 1

theorem mem_epochsThrough {first last e : Int} :
    e ∈ epochsThrough first last ↔ first ≤ e ∧ e ≤ last := by
  simp only [epochsThrough, List.mem_map, List.mem_range]
  constructor
  · rintro ⟨i, hi, rfl⟩
    omega
  · rintro ⟨h₁, h₂⟩
    exact ⟨(e - first).toNat, by omega, by omega⟩

/-- No epoch of the queue holds an empty list: an epoch is only ever written
by appending an event. -/
def QueueNonempty (st : State) : Prop :=
  ∀ e evts, st.cronEventQueue.get? e = some evts → evts ≠ []

theorem QueueNonempty.get?_eq_none {st : State} {e : Int} (hne : QueueNonempty st)
    (hemp : (loadCronEvents st e).isEmpty) : st.cronEventQueue.get? e = none := by
  cases h : st.cronEventQueue.get? e with
  | none => rfl
  | some evts =>
    simp only [loadCronEvents, h, Option.getD_some, List.isEmpty_iff] at hemp
    exact absurd hemp (hne e evts h)

/-- The walk over the queue changes the queue only: each walked epoch is
cleared, and the events it collects belong to miners with a claim. -/
theorem foldl_takeEpochEvents (claims : OrdMap Address Claim) :
    ∀ (epochs : List Int) (st : State) (acc : List CronEvent), QueueNonempty st →
      let r := epochs.foldl (takeEpochEvents claims) (st, acc)
      r.1 = { st with cronEventQueue := r.1.cronEventQueue } ∧
      (∀ e, r.1.cronEventQueue.get? e = if e ∈ epochs then none else st.cronEventQueue.get? e) ∧
      ∀ evt ∈ r.2, evt ∈ acc ∨ (claims.get? evt.minerAddr).isSome
  | [], st, acc, _ => ⟨rfl, fun _ => by simp, fun _ h => .inl h⟩
  | e₀ :: rest, st, acc, hne => by
    simp only [List.foldl_cons, takeEpochEvents]
    by_cases hemp : (loadCronEvents st e₀).isEmpty
    · -- an epoch without events is passed over; it has no entry to clear
      have hnone := hne.get?_eq_none hemp
      obtain ⟨hst, hget, hevts⟩ := foldl_takeEpochEvents claims rest st acc hne
      simp only [hemp, if_true]
      refine ⟨hst, fun e => ?_, hevts⟩
      rw [hget e]
      by_cases he : e = e₀
      · subst he
        simp [hnone]
      · simp [he]
    · have hne' : QueueNonempty { st with cronEventQueue := st.cronEventQueue.erase e₀ } :=
        fun e evts h => hne e evts (by simp only [OrdMap.get?_erase] at h; split_ifs at h; exact h)
      obtain ⟨hst, hget, hevts⟩ := foldl_takeEpochEvents claims rest _ _ hne'
      simp only [hemp, Bool.false_eq_true, if_false]
      refine ⟨hst, fun e => ?_, fun evt hevt => ?_⟩
      · rw [hget e]
        by_cases he : e = e₀ <;> simp [he]
      · rcases hevts evt hevt with h | h
        · rcases List.mem_append.mp h with h | h
          · exact .inl h
          · exact .inr (List.mem_filter.mp h).2
        · exact .inr h

/-- The queue walk of a tick: the queue loses every epoch up to `rtEpoch`, the
first cron epoch moves past it, and the rest of the state stays. -/
theorem takeDueCronEvents_spec {rtEpoch : Int} {st : State} (hne : QueueNonempty st) :
    let r := takeDueCronEvents rtEpoch st
    r.1 = { st with cronEventQueue := r.1.cronEventQueue, firstCronEpoch := rtEpoch + 1 } ∧
    (∀ e, r.1.cronEventQueue.get? e =
      if st.firstCronEpoch ≤ e ∧ e ≤ rtEpoch then none else st.cronEventQueue.get? e) ∧
    ∀ evt ∈ r.2, (st.claims.get? evt.minerAddr).isSome := by
  obtain ⟨hst, hget, hevts⟩ :=
    foldl_takeEpochEvents st.claims (epochsThrough st.firstCronEpoch rtEpoch) st [] hne
  refine ⟨?_, fun e => ?_, fun evt hevt => ?_⟩
  · simp only [takeDueCronEvents]
    rw [hst]
  · simp only [takeDueCronEvents, hget e, mem_epochsThrough]
  · simpa using hevts evt hevt

/-- Freezing the epoch's totals writes the this-epoch fields only. -/
theorem freezeEpochTotals_eq (st : State) :
    ∃ raw qa smoothed, freezeEpochTotals st = { st with
      thisEpochPledgeCollateral := st.totalPledgeCollateral
      thisEpochQualityAdjPower := qa
      thisEpochRawBytePower := raw
      thisEpochQaPowerSmoothed := smoothed } := by
  rcases hcur : st.currentTotalPower with ⟨raw, qa⟩
  refine ⟨raw, qa,
    (AlphaBetaFilter.load st.thisEpochQaPowerSmoothed defaultAlpha defaultBeta).nextEstimate qa 1, ?_⟩
  simp only [freezeEpochTotals, hcur, State.updateSmoothedEstimate]

/-! ## Runs -/

/-- A successful call into the power actor, other than the cron tick. -/
inductive Call
  | createMiner (idAddress : Address) (params : CreateMinerParams)
  | updateClaimedPower (caller : Address) (params : UpdateClaimedPowerParams)
  | enrollCronEvent (caller : Address) (params : EnrollCronEventParams)
  | updatePledgeTotal (caller : Address) (params : UpdatePledgeTotalParams)

def Call.apply (policy : Policy) : Call → State → Except ActorError State
  | .createMiner idAddress params => Power.createMiner policy idAddress params
  | .updateClaimedPower caller params => Power.updateClaimedPower policy caller params
  | .enrollCronEvent caller params => Power.enrollCronEvent caller params
  | .updatePledgeTotal caller params => Power.updatePledgeTotal caller params

/-- The init actor hands out addresses that are new: no claim is kept under
the address a created miner gets. -/
def Call.Fresh (st : State) : Call → Prop
  | .createMiner idAddress _ => st.claims.get? idAddress = none
  | _ => True

/-- One successful call, with a fresh address for a new miner. -/
def Step (policy : Policy) (st st' : State) : Prop :=
  ∃ c : Call, c.Fresh st ∧ c.apply policy st = .ok st'

/-- The miners' callbacks, in order, from the state after the queue walk: a
callback that returns keeps the calls its miner made meanwhile; one that fails
is rolled back and its miner listed. -/
inductive Callbacks (policy : Policy) : State → List CronEvent → State → List Address → Prop
  | nil (st : State) : Callbacks policy st [] st []
  | ok {st st₁ st₂ : State} {evt : CronEvent} {rest : List CronEvent} {failed : List Address} :
      Relation.ReflTransGen (Step policy) st st₁ → Callbacks policy st₁ rest st₂ failed →
      Callbacks policy st (evt :: rest) st₂ failed
  | fail {st st₂ : State} {evt : CronEvent} {rest : List CronEvent} {failed : List Address} :
      Callbacks policy st rest st₂ failed →
      Callbacks policy st (evt :: rest) st₂ (evt.minerAddr :: failed)

/-- A successful `on_epoch_tick_end` at epoch `rtEpoch`, whose callbacks end in
`st₁` with the miners of `failed` failing. -/
def OnEpochTickEnd (policy : Policy) (rtEpoch : Int) (st st' : State) : Prop :=
  ∃ st₁ failed, Callbacks policy (takeDueCronEvents rtEpoch st).1 (takeDueCronEvents rtEpoch st).2
      st₁ failed ∧
    st' = freezeEpochTotals
      (if failed.isEmpty then st₁ else removeFailedMinerPower policy failed st₁)

end BuiltinActors.Power
