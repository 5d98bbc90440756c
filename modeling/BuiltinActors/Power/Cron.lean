import BuiltinActors.Power.Actor

/-! # Cron events are called once, on time

A miner enrols an event for an epoch with `enroll_cron_event`; the tick of
`on_epoch_tick_end` walks the queue from `first_cron_epoch` to its own epoch,
takes every event it finds off the queue and calls the miners that still have
a claim. Callbacks run after the walk has committed, and may enrol again, also
for epochs the walk has passed.

A run shows of this its enrolments and, for each tick, the claims the tick
read and the events it called (`CronLabel`). The specification is on that
trace alone: the events a tick is due to call are those enrolled before it,
for an epoch up to its own, that no tick between took (`untaken`), of miners
with a claim (`dueAt`). Every tick of every run from an empty queue calls
exactly those, with their multiplicities; the epochs of the ticks need not
increase for this. The proof carries `Tracks`: the queue holds, at each
epoch, the untaken enrolments for it, and none lies before the first cron
epoch. -/

namespace BuiltinActors.Power

/-! ## Traces -/

/-- What a run of the power actor shows of its cron queue: an event enrolled
for an epoch, and a tick at an epoch with the claims it read and the events it
called the miners with. -/
inductive CronLabel
  | enrolled (epoch : Int) (event : CronEvent)
  | ticked (rtEpoch : Int) (claims : OrdMap Address Claim) (called : List CronEvent)

/-- A tick at `t` takes the events enrolled for epoch `e` when `e ≤ t`. -/
def CronLabel.takes (e : Int) : CronLabel → Bool
  | .enrolled _ _ => false
  | .ticked t _ _ => decide (e ≤ t)

@[simp] theorem CronLabel.takes_enrolled (e e' : Int) (evt : CronEvent) :
    (CronLabel.enrolled e' evt).takes e = false := rfl

@[simp] theorem CronLabel.takes_ticked (e t : Int) (claims : OrdMap Address Claim)
    (called : List CronEvent) : (CronLabel.ticked t claims called).takes e = decide (e ≤ t) := rfl

/-- The enrolments of a trace that no later label takes, with their epochs, in
enrolment order. -/
def untaken : List CronLabel → List (Int × CronEvent)
  | [] => []
  | .enrolled e evt :: rest =>
    if rest.any (·.takes e) then untaken rest else (e, evt) :: untaken rest
  | .ticked .. :: rest => untaken rest

/-- The events a tick at epoch `t`, reading the claims `claims`, is due to call
after the trace `before`: those enrolled in it for an epoch up to `t` and not
taken since, of miners with a claim, in enrolment order. -/
def dueAt (before : List CronLabel) (t : Int) (claims : OrdMap Address Claim) : List CronEvent :=
  ((untaken before).filter fun p => decide (p.1 ≤ t) && (claims.get? p.2.minerAddr).isSome).map
    (·.2)

/-- The label a call leaves: an enrolment leaves its event, other calls nothing. -/
def Call.labels : Call → List CronLabel
  | .enrollCronEvent caller params => [.enrolled params.eventEpoch ⟨caller, params.payload⟩]
  | _ => []

theorem untaken_append_enrolled (ls : List CronLabel) (e : Int) (evt : CronEvent) :
    untaken (ls ++ [.enrolled e evt]) = untaken ls ++ [(e, evt)] := by
  induction ls with
  | nil => simp [untaken]
  | cons ℓ ls ih =>
    cases ℓ with
    | enrolled e' evt' =>
      -- the new enrolment takes nothing, so what was taken stays taken
      simp only [List.cons_append, untaken, ih, List.any_append, List.any_cons, List.any_nil,
        CronLabel.takes_enrolled, Bool.or_false]
      by_cases hany : ls.any (·.takes e') = true <;> simp [hany]
    | ticked t claims called => simp [untaken, ih]

theorem untaken_append_ticked (ls : List CronLabel) (t : Int) (claims : OrdMap Address Claim)
    (called : List CronEvent) :
    untaken (ls ++ [.ticked t claims called]) = (untaken ls).filter fun p => decide (t < p.1) := by
  induction ls with
  | nil => rfl
  | cons ℓ ls ih =>
    cases ℓ with
    | enrolled e evt =>
      simp only [List.cons_append, untaken, ih, List.any_append, List.any_cons, List.any_nil,
        CronLabel.takes_ticked, Bool.or_false]
      -- the tick takes the enrolment unless a tick before it did, or it is for a later epoch
      by_cases hany : ls.any (·.takes e) = true
      · simp only [hany, Bool.true_or, if_true]
      · by_cases hle : e ≤ t
        · simp [hany, hle]
        · simp [hany, hle, lt_of_not_ge hle]
    | ticked t' claims' called' => simp [untaken, ih]

/-! ## Writes that leave the queue alone -/

/-- What an outcome of a state transition leaves of the cron queue and the
first cron epoch, whether it returned or failed. -/
def cronPart : EStateM.Result ε State α → OrdMap Int (List CronEvent) × Int
  | .ok _ st | .error _ st => (st.cronEventQueue, st.firstCronEpoch)

/-- `add_to_claim` writes claims and totals only, on every outcome. -/
theorem State.addToClaim_cronPart (policy : Policy) (miner : Address) (power qaPower : Int)
    (st : State) :
    cronPart (State.addToClaim policy miner power qaPower st) =
      (st.cronEventQueue, st.firstCronEpoch) := by
  cases hc : st.claims.get? miner with
  | none =>
    rw [State.addToClaim_of_get?_none hc]
    rfl
  | some oldClaim =>
    cases hp : consensusMinerMinPower policy oldClaim.windowPostProofType with
    | ok minPower =>
      rw [State.addToClaim_eq hc hp]
      dsimp only
      split_ifs <;> rfl
    | error e => simp [State.addToClaim, hc, hp, cronPart]

/-- `delete_claim` writes claims and totals only, on every outcome. -/
theorem State.deleteClaim_cronPart (policy : Policy) (miner : Address) (st : State) :
    cronPart (State.deleteClaim policy miner st) = (st.cronEventQueue, st.firstCronEpoch) := by
  cases hc : st.claims.get? miner with
  | none =>
    rw [State.deleteClaim_of_get?_none hc]
    rfl
  | some claim =>
    have h := State.addToClaim_cronPart policy miner (-claim.rawBytePower) (-claim.qualityAdjPower) st
    simp only [State.deleteClaim, EStateM.bind_apply, EStateM.get_apply, hc,
      EStateM.adaptExcept_apply]
    cases hr : State.addToClaim policy miner (-claim.rawBytePower) (-claim.qualityAdjPower) st with
    | ok u st₁ =>
      rw [hr] at h
      dsimp only
      -- the erase that follows writes the claims only
      cases st₁.claims.get? miner with
      | none => exact h
      | some _ => exact h
    | error e st₁ =>
      rw [hr] at h
      exact h

/-- The failed-miner transaction keeps the queue and the first cron epoch. -/
theorem removeFailedMinerPower_cron (policy : Policy) :
    ∀ (failed : List Address) (st : State),
      (removeFailedMinerPower policy failed st).cronEventQueue = st.cronEventQueue ∧
      (removeFailedMinerPower policy failed st).firstCronEpoch = st.firstCronEpoch
  | [], st => ⟨rfl, rfl⟩
  | a :: rest, st => by
    have h := State.deleteClaim_cronPart policy a st
    simp only [removeFailedMinerPower, List.foldl_cons] at h ⊢
    cases hd : State.deleteClaim policy a st with
    | ok u st₁ =>
      rw [hd] at h
      obtain ⟨hq, hf⟩ := Prod.mk.inj h
      obtain ⟨hq', hf'⟩ := removeFailedMinerPower_cron policy rest
        { st₁ with minerCount := st₁.minerCount - 1 }
      exact ⟨hq'.trans hq, hf'.trans hf⟩
    | error e st₁ =>
      rw [hd] at h
      obtain ⟨hq, hf⟩ := Prod.mk.inj h
      obtain ⟨hq', hf'⟩ := removeFailedMinerPower_cron policy rest st₁
      exact ⟨hq'.trans hq, hf'.trans hf⟩

/-! ## The queue against the trace -/

/-- The cron queue holds, at each epoch, the events of the enrolments `q` for
that epoch in enrolment order; no enrolment lies before the first cron epoch,
and no epoch is kept with an empty list. -/
structure Tracks (st : State) (q : List (Int × CronEvent)) : Prop where
  load : ∀ k, loadCronEvents st k = (q.filter fun p => decide (p.1 = k)).map (·.2)
  after_first : ∀ p ∈ q, st.firstCronEpoch ≤ p.1
  nonempty : QueueNonempty st

section Tracks

variable {st st' : State} {q : List (Int × CronEvent)}

/-- An epoch the queue holds lies at or after the first cron epoch. -/
theorem Tracks.get?_after_first (h : Tracks st q) {e : Int} {evts : List CronEvent}
    (he : st.cronEventQueue.get? e = some evts) : st.firstCronEpoch ≤ e := by
  have hload : (q.filter fun p => decide (p.1 = e)).map (·.2) = evts := by
    rw [← h.load e, loadCronEvents, he, Option.getD_some]
  -- the epoch's list is not empty, so some enrolment is for it
  cases hq : q.filter (fun p => decide (p.1 = e)) with
  | nil =>
    rw [hq, List.map_nil] at hload
    exact absurd hload.symm (h.nonempty e evts he)
  | cons p _ =>
    have hp : p ∈ q.filter (fun p => decide (p.1 = e)) := by
      rw [hq]
      exact List.mem_cons_self
    obtain ⟨hpq, hpe⟩ := List.mem_filter.mp hp
    rw [← of_decide_eq_true hpe]
    exact h.after_first p hpq

theorem Tracks.of_cron_eq (h : Tracks st q) (hq : st'.cronEventQueue = st.cronEventQueue)
    (hf : st'.firstCronEpoch = st.firstCronEpoch) : Tracks st' q where
  load k := by rw [loadCronEvents, hq]; exact h.load k
  after_first := by rw [hf]; exact h.after_first
  nonempty e evts he := h.nonempty e evts (by rw [← hq]; exact he)

theorem Tracks.appendCronEvent (h : Tracks st q) (e : Int) (evt : CronEvent) :
    Tracks (st.appendCronEvent e evt) (q ++ [(e, evt)]) where
  load k := by
    by_cases hk : k = e
    · subst hk
      simp [loadCronEvents, State.appendCronEvent, ← h.load k]
    · simp only [loadCronEvents, State.appendCronEvent, OrdMap.get?_set, hk, if_false]
      rw [← loadCronEvents, h.load k]
      simp [Ne.symm hk]
  after_first p hp := by
    simp only [State.appendCronEvent]
    rcases List.mem_append.mp hp with hp | hp
    · have := h.after_first p hp
      split_ifs <;> omega
    · rw [List.mem_singleton.mp hp]
      split_ifs <;> omega
  nonempty k evts hk := by
    simp only [State.appendCronEvent, OrdMap.get?_set] at hk
    split_ifs at hk
    · cases hk
      simp
    · exact h.nonempty k evts hk

/-- One call moves the queue as the trace does: an enrolment adds its event,
every other call leaves the queue and the first cron epoch alone. -/
theorem Tracks.call {policy : Policy} {ls : List CronLabel} {c : Call} (h : Tracks st (untaken ls))
    (hc : c.apply policy st = .ok st') : Tracks st' (untaken (ls ++ c.labels)) := by
  cases c with
  | createMiner idAddress params =>
    obtain ⟨_, _, rfl⟩ := createMiner_ok hc
    simp only [Call.labels, List.append_nil]
    exact h.of_cron_eq rfl rfl
  | updateClaimedPower caller params =>
    have hcron := State.addToClaim_cronPart policy caller params.rawByteDelta
      params.qualityAdjustedDelta st
    rw [updateClaimedPower_ok hc] at hcron
    obtain ⟨hq, hf⟩ := Prod.mk.inj hcron
    simp only [Call.labels, List.append_nil]
    exact h.of_cron_eq hq hf
  | enrollCronEvent caller params =>
    obtain ⟨-, rfl⟩ := enrollCronEvent_ok hc
    rw [Call.labels, untaken_append_enrolled]
    exact h.appendCronEvent _ _
  | updatePledgeTotal caller params =>
    obtain ⟨-, -, rfl⟩ := updatePledgeTotal_ok hc
    simp only [Call.labels, List.append_nil]
    exact h.of_cron_eq rfl rfl

end Tracks

/-! ## The walk over the queue -/

/-- Grouping a list by a key, over distinct keys, gives up to order the
members whose key is among them. -/
theorem flatMap_filter_perm {α κ : Type} [DecidableEq κ] (f : α → κ) (l : List α) :
    ∀ ks : List κ, ks.Nodup →
      (ks.flatMap fun k => l.filter fun x => decide (f x = k)).Perm
        (l.filter fun x => decide (f x ∈ ks))
  | [], _ => by simp
  | k :: ks, hnd => by
    obtain ⟨hk, hnd'⟩ := List.nodup_cons.mp hnd
    -- split the members keyed among `k :: ks` into those keyed `k` and the rest
    have hsplit := List.filter_append_perm (fun x => decide (f x = k))
      (l.filter fun x => decide (f x ∈ k :: ks))
    have hhead : (l.filter fun x => decide (f x ∈ k :: ks)).filter (fun x => decide (f x = k)) =
        l.filter fun x => decide (f x = k) := by
      rw [List.filter_filter]
      apply List.filter_congr
      intro x _
      by_cases h : f x = k <;> simp [h]
    have hrest : (l.filter fun x => decide (f x ∈ k :: ks)).filter (fun x => !decide (f x = k)) =
        l.filter fun x => decide (f x ∈ ks) := by
      rw [List.filter_filter]
      apply List.filter_congr
      intro x _
      by_cases h : f x = k
      · simp [h, hk]
      · simp [h]
    rw [hhead, hrest] at hsplit
    rw [List.flatMap_cons]
    exact ((flatMap_filter_perm f l ks hnd').append_left _).trans hsplit

theorem epochsThrough_nodup (first last : Int) : (epochsThrough first last).Nodup :=
  List.nodup_range.map fun i j h => by simpa using h

/-- Over distinct epochs, the walk collects epoch by epoch the events of the
miners with a claim, as the queue held them before the walk. -/
theorem foldl_takeEpochEvents_called (claims : OrdMap Address Claim) :
    ∀ (epochs : List Int) (st : State) (acc : List CronEvent), epochs.Nodup →
      (epochs.foldl (takeEpochEvents claims) (st, acc)).2 = acc ++ epochs.flatMap fun k =>
        (loadCronEvents st k).filter fun evt => (claims.get? evt.minerAddr).isSome
  | [], st, acc, _ => by simp
  | e₀ :: rest, st, acc, hnd => by
    obtain ⟨hnotin, hnd'⟩ := List.nodup_cons.mp hnd
    simp only [List.foldl_cons, takeEpochEvents, List.flatMap_cons]
    by_cases hemp : (loadCronEvents st e₀).isEmpty
    · simp only [hemp, if_true]
      rw [foldl_takeEpochEvents_called claims rest st acc hnd', List.isEmpty_iff.mp hemp]
      simp
    · simp only [hemp, Bool.false_eq_true, if_false]
      rw [foldl_takeEpochEvents_called claims rest _ _ hnd', List.append_assoc]
      congr 2
      -- the epochs still to walk are not the one just cleared
      refine List.flatMap_congr fun k hk => ?_
      have hk' : k ≠ e₀ := fun h => hnotin (h ▸ hk)
      simp [loadCronEvents, hk']

section Walk

variable {st : State} {q : List (Int × CronEvent)}

/-- The walk of a tick at `t` takes every enrolment up to `t` off the queue and
calls, up to order, the events of those whose miner has a claim. -/
theorem Tracks.takeDueCronEvents (h : Tracks st q) (t : Int) :
    Tracks (takeDueCronEvents t st).1 (q.filter fun p => decide (t < p.1)) ∧
    (takeDueCronEvents t st).2.Perm
      ((q.filter fun p => decide (p.1 ≤ t) && (st.claims.get? p.2.minerAddr).isSome).map (·.2)) := by
  obtain ⟨hst, hget, -⟩ := @takeDueCronEvents_spec t st h.nonempty
  refine ⟨⟨fun k => ?_, fun p hp => ?_, fun k evts hk => ?_⟩, ?_⟩
  · simp only [loadCronEvents, hget k, List.filter_filter]
    split_ifs with hwalk
    · -- a walked epoch is cleared, and every enrolment for it is up to `t`
      symm
      rw [Option.getD_none, List.map_eq_nil_iff, List.filter_eq_nil_iff]
      intro p _
      simp only [Bool.and_eq_true, decide_eq_true_eq, not_and]
      intro hlt hpk
      omega
    · rw [← loadCronEvents, h.load k]
      congr 1
      apply List.filter_congr
      intro p hp
      -- an enrolment for an epoch the walk skipped lies after `t`
      have := h.after_first p hp
      by_cases hpk : p.1 = k <;> by_cases hlt : t < p.1 <;> simp [hpk, hlt] <;> omega
  · rw [hst]
    have := of_decide_eq_true (List.mem_filter.mp hp).2
    dsimp only
    omega
  · rw [hget k] at hk
    split_ifs at hk
    exact h.nonempty k evts hk
  · have hcalled := foldl_takeEpochEvents_called st.claims (epochsThrough st.firstCronEpoch t) st []
      (epochsThrough_nodup _ _)
    set c : Int × CronEvent → Bool := fun p => (st.claims.get? p.2.minerAddr).isSome
    -- the events of an epoch with a claim are those of the enrolments with a claim for it
    have hgroup : ∀ k, ((loadCronEvents st k).filter fun evt => (st.claims.get? evt.minerAddr).isSome) =
        ((q.filter c).filter fun p => decide (p.1 = k)).map (·.2) := by
      intro k
      rw [h.load k, List.filter_map, List.filter_filter, List.filter_filter]
      congr 1
      apply List.filter_congr
      intro p _
      simp [c, Bool.and_comm]
    change (List.foldl (takeEpochEvents st.claims) (st, []) (epochsThrough st.firstCronEpoch t)).2.Perm _
    rw [hcalled, List.nil_append, List.flatMap_congr fun k _ => hgroup k, ← List.map_flatMap]
    apply List.Perm.map
    refine (flatMap_filter_perm Prod.fst (q.filter c) _ (epochsThrough_nodup _ _)).trans ?_
    apply List.Perm.of_eq
    rw [List.filter_filter]
    apply List.filter_congr
    intro p hp
    -- every enrolment is at or after the first cron epoch, so the walk covers those up to `t`
    have := h.after_first p hp
    by_cases hle : p.1 ≤ t <;> simp [mem_epochsThrough, hle, c, this]

end Walk

/-! ## Runs with their traces -/

/-- Calls into the power actor one after another, with the labels they leave. -/
inductive Calls (policy : Policy) : State → List CronLabel → State → Prop
  | refl (st : State) : Calls policy st [] st
  | tail {st st₁ st₂ : State} {ls : List CronLabel} (c : Call) :
      Calls policy st ls st₁ → c.Fresh st₁ → c.apply policy st₁ = .ok st₂ →
      Calls policy st (ls ++ c.labels) st₂

/-- `Callbacks` with the labels of the calls that the callbacks which returned
made; a failed callback is rolled back and leaves none. -/
inductive TracedCallbacks (policy : Policy) :
    State → List CronEvent → State → List Address → List CronLabel → Prop
  | nil (st : State) : TracedCallbacks policy st [] st [] []
  | ok {st st₁ st₂ : State} {evt : CronEvent} {rest : List CronEvent} {failed : List Address}
      {ls ls' : List CronLabel} :
      Calls policy st ls st₁ → TracedCallbacks policy st₁ rest st₂ failed ls' →
      TracedCallbacks policy st (evt :: rest) st₂ failed (ls ++ ls')
  | fail {st st₂ : State} {evt : CronEvent} {rest : List CronEvent} {failed : List Address}
      {ls : List CronLabel} :
      TracedCallbacks policy st rest st₂ failed ls →
      TracedCallbacks policy st (evt :: rest) st₂ (evt.minerAddr :: failed) ls

/-- A run of the power actor: calls, and cron ticks with their callbacks, with
the trace they leave. A tick at `t` shows the claims its walk read and the
events it called. -/
inductive Run (policy : Policy) : State → List CronLabel → State → Prop
  | refl (st : State) : Run policy st [] st
  | call {st st₁ st₂ : State} {ls : List CronLabel} (c : Call) :
      Run policy st ls st₁ → c.Fresh st₁ → c.apply policy st₁ = .ok st₂ →
      Run policy st (ls ++ c.labels) st₂
  | tick {st st₁ st₂ : State} {ls cbs : List CronLabel} {failed : List Address} (t : Int) :
      Run policy st ls st₁ →
      TracedCallbacks policy (takeDueCronEvents t st₁).1 (takeDueCronEvents t st₁).2 st₂ failed cbs →
      Run policy st (ls ++ .ticked t st₁.claims (takeDueCronEvents t st₁).2 :: cbs)
        (freezeEpochTotals (if failed.isEmpty then st₂ else removeFailedMinerPower policy failed st₂))

section Traces

variable {policy : Policy} {st st' : State}

/-! The traced runs are the runs of `Actor`, each with the one trace it leaves. -/

theorem Calls.reflTransGen {ls : List CronLabel} (h : Calls policy st ls st') :
    Relation.ReflTransGen (Step policy) st st' := by
  induction h with
  | refl => exact .refl
  | tail c _ hfresh hc ih => exact ih.tail ⟨c, hfresh, hc⟩

theorem Calls.of_reflTransGen (h : Relation.ReflTransGen (Step policy) st st') :
    ∃ ls, Calls policy st ls st' := by
  induction h with
  | refl => exact ⟨[], .refl _⟩
  | tail _ hstep ih =>
    obtain ⟨ls, hls⟩ := ih
    obtain ⟨c, hfresh, hc⟩ := hstep
    exact ⟨_, hls.tail c hfresh hc⟩

theorem TracedCallbacks.callbacks {evts : List CronEvent} {failed : List Address}
    {ls : List CronLabel} (h : TracedCallbacks policy st evts st' failed ls) :
    Callbacks policy st evts st' failed := by
  induction h with
  | nil => exact .nil _
  | ok hcalls _ ih => exact .ok hcalls.reflTransGen ih
  | fail _ ih => exact .fail ih

theorem TracedCallbacks.of_callbacks {evts : List CronEvent} {failed : List Address}
    (h : Callbacks policy st evts st' failed) : ∃ ls, TracedCallbacks policy st evts st' failed ls := by
  induction h with
  | nil => exact ⟨[], .nil _⟩
  | ok hrun _ ih =>
    obtain ⟨ls, hcalls⟩ := Calls.of_reflTransGen hrun
    obtain ⟨ls', hcb⟩ := ih
    exact ⟨_, .ok hcalls hcb⟩
  | fail _ ih =>
    obtain ⟨ls, hcb⟩ := ih
    exact ⟨ls, .fail hcb⟩

/-- Every run of calls and successful ticks leaves a trace. -/
theorem Run.of_reflTransGen
    (h : Relation.ReflTransGen (fun a b => Step policy a b ∨ ∃ t, OnEpochTickEnd policy t a b) st st') :
    ∃ labels, Run policy st labels st' := by
  induction h with
  | refl => exact ⟨[], .refl _⟩
  | tail _ hstep ih =>
    obtain ⟨ls, hls⟩ := ih
    rcases hstep with ⟨c, hfresh, hc⟩ | ⟨t, st₂, failed, hcb, rfl⟩
    · exact ⟨_, hls.call c hfresh hc⟩
    · obtain ⟨cbs, hcbs⟩ := TracedCallbacks.of_callbacks hcb
      exact ⟨_, hls.tick t hcbs⟩

/-! Only a tick leaves a tick label. -/

theorem Call.ticked_notMem_labels (c : Call) (t : Int) (claims : OrdMap Address Claim)
    (called : List CronEvent) : CronLabel.ticked t claims called ∉ c.labels := by
  cases c <;> simp [Call.labels]

theorem Calls.ticked_notMem {ls : List CronLabel} (h : Calls policy st ls st') (t : Int)
    (claims : OrdMap Address Claim) (called : List CronEvent) :
    CronLabel.ticked t claims called ∉ ls := by
  induction h with
  | refl => simp
  | tail c _ _ _ ih =>
    rw [List.mem_append, not_or]
    exact ⟨ih, c.ticked_notMem_labels t claims called⟩

theorem TracedCallbacks.ticked_notMem {evts : List CronEvent} {failed : List Address}
    {ls : List CronLabel} (h : TracedCallbacks policy st evts st' failed ls) (t : Int)
    (claims : OrdMap Address Claim) (called : List CronEvent) :
    CronLabel.ticked t claims called ∉ ls := by
  induction h with
  | nil => simp
  | ok hcalls _ ih =>
    rw [List.mem_append, not_or]
    exact ⟨hcalls.ticked_notMem t claims called, ih⟩
  | fail _ ih => exact ih

/-! The queue follows the trace along every traced run. -/

theorem Tracks.calls {pre ls : List CronLabel} (h : Tracks st (untaken pre))
    (hc : Calls policy st ls st') : Tracks st' (untaken (pre ++ ls)) := by
  induction hc with
  | refl => simpa using h
  | tail c _ _ hc ih =>
    rw [← List.append_assoc]
    exact ih.call hc

theorem Tracks.callbacks {pre ls : List CronLabel} {evts : List CronEvent} {failed : List Address}
    (h : Tracks st (untaken pre)) (hc : TracedCallbacks policy st evts st' failed ls) :
    Tracks st' (untaken (pre ++ ls)) := by
  induction hc generalizing pre with
  | nil => simpa using h
  | ok hcalls _ ih =>
    rw [← List.append_assoc]
    exact ih (h.calls hcalls)
  | fail _ ih => exact ih h

/-- The end of a tick, removing failed miners' power and freezing the totals,
keeps the queue. -/
theorem Tracks.tickEnd {q : List (Int × CronEvent)} (h : Tracks st q) (failed : List Address) :
    Tracks (freezeEpochTotals
      (if failed.isEmpty then st else removeFailedMinerPower policy failed st)) q := by
  have hmid : Tracks (if failed.isEmpty then st else removeFailedMinerPower policy failed st) q := by
    split
    · exact h
    · obtain ⟨hq, hf⟩ := removeFailedMinerPower_cron policy failed st
      exact h.of_cron_eq hq hf
  obtain ⟨raw, qa, smoothed, heq⟩ :=
    freezeEpochTotals_eq (if failed.isEmpty then st else removeFailedMinerPower policy failed st)
  rw [heq]
  exact hmid.of_cron_eq rfl rfl

/-- A label that a list does not hold, found in the list extended by it, lies
in the list before. -/
theorem getElem?_append_of_notMem {α : Type} {ls extra : List α} {x : α} {j : Nat}
    (hx : x ∉ extra) (h : (ls ++ extra)[j]? = some x) : j < ls.length ∧ ls[j]? = some x := by
  by_cases hj : j < ls.length
  · rw [List.getElem?_append_left hj] at h
    exact ⟨hj, h⟩
  · rw [List.getElem?_append_right (not_lt.mp hj)] at h
    exact absurd (List.mem_of_getElem? h) hx

/-- Along a traced run from a queue that follows the empty trace, the queue
follows the run's trace, and every tick called what was due. -/
theorem Run.tracks {labels : List CronLabel} (h0 : Tracks st []) (h : Run policy st labels st') :
    Tracks st' (untaken labels) ∧
    ∀ (j : Nat) (t : Int) (claims : OrdMap Address Claim) (called : List CronEvent),
      labels[j]? = some (.ticked t claims called) → called.Perm (dueAt (labels.take j) t claims) := by
  induction h with
  | refl => exact ⟨h0, fun j t claims called hj => by simp at hj⟩
  | call c _ _ hc ih =>
    refine ⟨ih.1.call hc, fun j t claims called hj => ?_⟩
    obtain ⟨hlt, hj⟩ := getElem?_append_of_notMem (c.ticked_notMem_labels t claims called) hj
    rw [List.take_append_of_le_length hlt.le]
    exact ih.2 j t claims called hj
  | @tick st₁ st₂ ls cbs failed t _ hcb ih =>
    obtain ⟨hwalk, hcalled⟩ := ih.1.takeDueCronEvents t
    rw [← untaken_append_ticked ls t st₁.claims (takeDueCronEvents t st₁).2] at hwalk
    have hcb' := hwalk.callbacks hcb
    rw [List.append_assoc, List.singleton_append] at hcb'
    refine ⟨hcb'.tickEnd failed, fun j t' claims called hj => ?_⟩
    -- the label is before the tick, the tick itself, or among its callbacks' enrolments
    rcases lt_trichotomy j ls.length with hlt | rfl | hgt
    · rw [List.getElem?_append_left hlt] at hj
      rw [List.take_append_of_le_length hlt.le]
      exact ih.2 j t' claims called hj
    · rw [List.getElem?_append_right le_rfl, Nat.sub_self, List.getElem?_cons_zero,
        Option.some.injEq, CronLabel.ticked.injEq] at hj
      obtain ⟨rfl, rfl, rfl⟩ := hj
      rw [List.take_left]
      exact hcalled
    · rw [List.getElem?_append_right hgt.le] at hj
      obtain ⟨i, hi⟩ : ∃ i, j - ls.length = i + 1 := ⟨j - ls.length - 1, by omega⟩
      rw [hi, List.getElem?_cons_succ] at hj
      exact absurd (List.mem_of_getElem? hj) (hcb.ticked_notMem t' claims called)

end Traces

/-- **Cron events are called once, on time.** Along every run of the power
actor from a state with an empty cron queue, the queue never holds an epoch
before the first cron epoch, and every tick calls, up to order, exactly the
events enrolled before it for an epoch up to its own that no tick since has
taken, of the miners with a claim when it walks the queue: each enrolment is
called once, in the first tick at or after its epoch that starts after it, if
its miner then has a claim, and never otherwise. -/
theorem cron_events_called_once_on_time {policy : Policy} {st st' : State}
    {labels : List CronLabel} (hempty : ∀ e, st.cronEventQueue.get? e = none)
    (hrun : Run policy st labels st') :
    (∀ e evts, st'.cronEventQueue.get? e = some evts → st'.firstCronEpoch ≤ e) ∧
    ∀ (j : Nat) (t : Int) (claims : OrdMap Address Claim) (called : List CronEvent),
      labels[j]? = some (.ticked t claims called) → called.Perm (dueAt (labels.take j) t claims) := by
  have h0 : Tracks st [] :=
    ⟨fun k => by simp [loadCronEvents, hempty], by simp, fun e evts he => by simp [hempty] at he⟩
  obtain ⟨htracks, hcalled⟩ := hrun.tracks h0
  exact ⟨fun e evts he => htracks.get?_after_first he, hcalled⟩

/-! ## A run with an enrolment and two ticks -/

def cronPolicy : Policy := ⟨10⟩

def cronMiner : Address := ⟨1000⟩

/-- The actor after `cronMiner` was created with an empty claim and enrolled an
event for epoch 5. -/
def cronEnrolled : State := { State.new with
  minerCount := 1
  cronEventQueue := OrdMap.empty.set 5 [⟨cronMiner, []⟩]
  claims := OrdMap.empty.set cronMiner ⟨.stackedDRGWindow32GiBV1P1, 0, 0⟩ }

/-- The miner registers and enrols for epoch 5; a tick at 3 calls nothing, the
tick at 7 calls the event. -/
def cronTrace : List CronLabel :=
  [.enrolled 5 ⟨cronMiner, []⟩, .ticked 3 cronEnrolled.claims [],
    .ticked 7 cronEnrolled.claims [⟨cronMiner, []⟩]]

def cronFinal : State :=
  freezeEpochTotals (takeDueCronEvents 7 (freezeEpochTotals (takeDueCronEvents 3 cronEnrolled).1)).1

theorem cronRun : Run cronPolicy State.new cronTrace cronFinal := by
  have hcreated : Run cronPolicy State.new ([] ++ [])
      { State.new with
        minerCount := 1
        claims := OrdMap.empty.set cronMiner ⟨.stackedDRGWindow32GiBV1P1, 0, 0⟩ } :=
    (Run.refl _).call (.createMiner cronMiner ⟨.stackedDRGWindow32GiBV1P1⟩) (by rfl) (by rfl)
  have henrolled : Run cronPolicy State.new ([] ++ [] ++ [.enrolled 5 ⟨cronMiner, []⟩]) cronEnrolled :=
    hcreated.call (.enrollCronEvent cronMiner ⟨5, []⟩) trivial (by rfl)
  have hnone := henrolled.tick 3 (.nil _)
  have hone := hnone.tick 7 (.ok (.refl _) (.nil _))
  exact hone

/-- The tick at 3 finds nothing due; the tick at 7 finds the enrolment for 5. -/
example : dueAt (cronTrace.take 1) 3 cronEnrolled.claims = [] ∧
    dueAt (cronTrace.take 2) 7 cronEnrolled.claims = [⟨cronMiner, []⟩] := ⟨rfl, rfl⟩

theorem cron_events_called_once_on_time_cronRun :
    (∀ e, State.new.cronEventQueue.get? e = none) ∧ Run cronPolicy State.new cronTrace cronFinal ∧
    (∀ e evts, cronFinal.cronEventQueue.get? e = some evts → cronFinal.firstCronEpoch ≤ e) ∧
    ∀ (j : Nat) (t : Int) (claims : OrdMap Address Claim) (called : List CronEvent),
      cronTrace[j]? = some (.ticked t claims called) →
        called.Perm (dueAt (cronTrace.take j) t claims) :=
  have hempty : ∀ e, State.new.cronEventQueue.get? e = none := fun _ => rfl
  ⟨hempty, cronRun, cron_events_called_once_on_time hempty cronRun⟩

end BuiltinActors.Power
