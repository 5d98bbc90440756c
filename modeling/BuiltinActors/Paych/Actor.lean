import BuiltinActors.Lib.Except
import BuiltinActors.Lib.OrdMap
import BuiltinActors.Runtime

/-! # Payment channel methods

The payment channel's state and its four methods, each from the state it
starts in to the state it leaves. The lane states (an AMT) are a finite map
from lane ID to lane state. What the runtime answers (the signer's
authentication of the voucher, the voucher's `extra` call, the sends of
`collect`) is part of the method's environment, so that every answer is
allowed. -/

namespace BuiltinActors.Paych

/-- `MAX_LANE`: `i64::MAX`. -/
def maxLane : Nat := 2 ^ 63 - 1

def settleDelay : Int := epochsInHour * 12

def maxSecretSize : Nat := 256

def errChannelStateUpdateAfterSettled : ExitCode := ⟨32⟩

/-- The highest voucher nonce used on a lane, and what the lane redeemed. -/
structure LaneState where
  redeemed : Int
  nonce : Nat
deriving DecidableEq, Repr

/-- `LaneState::default()`. -/
instance : Inhabited LaneState := ⟨⟨0, 0⟩⟩

/-- A lane to merge, with the nonce to merge it at. -/
structure Merge where
  lane : Nat
  nonce : Nat
deriving DecidableEq, Repr

structure ModVerifyParams where
  actor : Address
  method : Nat
  data : List UInt8
deriving DecidableEq, Repr

structure SignedVoucher where
  channelAddr : Address
  timeLockMin : Int
  timeLockMax : Int
  secretPreImage : List UInt8
  extra : Option ModVerifyParams
  lane : Nat
  nonce : Nat
  amount : Int
  minSettleHeight : Int
  merges : List Merge
  signature : Option (List UInt8)
deriving DecidableEq, Repr

structure UpdateChannelStateParams where
  sv : SignedVoucher
  secret : List UInt8

structure ConstructorParams where
  «from» : Address
  «to» : Address

structure State where
  «from» : Address
  «to» : Address
  toSend : Int
  settlingAt : Int
  minSettleHeight : Int
  laneStates : OrdMap Nat LaneState

def State.new (fromAddr toAddr : Address) : State := ⟨fromAddr, toAddr, 0, 0, 0, .empty⟩

/-- What a method reads from the runtime, and what the runtime answers it. -/
structure Env where
  caller : Address
  receiver : Address
  currEpoch : Int
  currentBalance : Int
  getActorCodeCid : Nat → Option Cid
  resolveBuiltinActorType : Cid → Option ActorType
  resolveAddress : Address → Option Nat
  hashBlake2b : List UInt8 → List UInt8
  /-- The CBOR encoding of a voucher without its signature. -/
  signingBytes : SignedVoucher → Except String (List UInt8)
  /-- The signer's `AuthenticateMessage` answer for a signature and a message. -/
  authenticate : Address → List UInt8 → List UInt8 → Except ActorError Bool
  /-- The outcome of a voucher's `extra` call. -/
  sendExtra : ModVerifyParams → Except ActorError Unit
  /-- The outcome of sending funds. -/
  sendFunds : Address → Int → Except ActorError Unit

def constructor (env : Env) (params : ConstructorParams) : Except ActorError State := do
  validateImmediateCallerType env.getActorCodeCid env.resolveBuiltinActorType env.caller [.init]
  let toId ← resolveToActorId env.getActorCodeCid params.to true
  let fromId ← resolveToActorId env.getActorCodeCid params.from true
  pure (State.new ⟨fromId⟩ ⟨toId⟩)

theorem constructor_ok {env : Env} {params : ConstructorParams} {st : State}
    (h : constructor env params = .ok st) : ∃ fromId toId, st = State.new ⟨fromId⟩ ⟨toId⟩ := by
  unfold constructor at h
  simp only [Except.bind_eq_ok, Except.pure_eq_ok] at h
  obtain ⟨_, -, toId, -, fromId, -, rfl⟩ := h
  exact ⟨fromId, toId, rfl⟩

/-- `find_lane`: a lane's state, if it has one. -/
def findLane (ls : OrdMap Nat LaneState) (id : Nat) : Except ActorError (Option LaneState) :=
  if id > maxLane then throw (.illegalArgument "maximum lane ID is 2^63-1")
  else pure (ls.get? id)

theorem findLane_eq_ok {ls : OrdMap Nat LaneState} {id : Nat} {r : Option LaneState} :
    findLane ls id = .ok r ↔ id ≤ maxLane ∧ r = ls.get? id := by
  unfold findLane
  split
  · next hgt =>
    simp only [Except.throw_ne_ok, false_iff, not_and]
    intro hle
    omega
  · next hle =>
    simp only [Except.pure_eq_ok, Nat.le_of_not_lt hle, true_and]
    exact eq_comm

/-- The loop over the voucher's merges: each merge lane's redeemed amount
added up, its nonce moved to the merge's. -/
def mergeLanes (svLane : Nat) :
    List Merge → OrdMap Nat LaneState → Int → Except ActorError (OrdMap Nat LaneState × Int)
  | [], lStates, redeemedFromOthers => pure (lStates, redeemedFromOthers)
  | merge :: rest, lStates, redeemedFromOthers => do
    if merge.lane = svLane then
      throw (.illegalArgument "voucher cannot merge lanes into it's own lane")
    let otherLs ← (← findLane lStates merge.lane).elim
      (throw (.illegalArgument s!"voucher specifies invalid merge lane {merge.lane}")) pure
    if otherLs.nonce ≥ merge.nonce then
      throw (.illegalArgument "merged lane in voucher has outdated nonce, cannot redeem")
    mergeLanes svLane rest (lStates.set merge.lane { otherLs with nonce := merge.nonce })
      (redeemedFromOthers + otherLs.redeemed)

/-- What a voucher's merges do to the nonces, in order: each finds its lane
with a smaller nonce and leaves its own there; `none` where one does not. -/
def advanceNonces : OrdMap Nat LaneState → List Merge → Option (OrdMap Nat LaneState)
  | ls, [] => some ls
  | ls, m :: rest => (ls.get? m.lane).bind fun l =>
    if l.nonce < m.nonce then advanceNonces (ls.set m.lane { l with nonce := m.nonce }) rest
    else none

theorem mergeLanes_ok {svLane : Nat} {merges : List Merge} {ls ls' : OrdMap Nat LaneState}
    {acc r : Int} (h : mergeLanes svLane merges ls acc = .ok (ls', r)) :
    (∀ m ∈ merges, m.lane ≠ svLane) ∧ advanceNonces ls merges = some ls' := by
  induction merges generalizing ls acc with
  | nil =>
    simp only [mergeLanes, Except.pure_eq_ok, Prod.mk.injEq] at h
    exact ⟨List.forall_mem_nil _, by rw [h.1]; rfl⟩
  | cons m rest ih =>
    unfold mergeLanes at h
    simp only [Except.throw_bind, Except.ite_throw_eq_ok, Except.bind_eq_ok, findLane_eq_ok] at h
    obtain ⟨hne, _, ⟨-, rfl⟩, l, hl, hnonce, hrest⟩ := h
    -- the merge lane must already have a state
    cases hget : ls.get? m.lane with
    | none => simp [hget] at hl
    | some l' =>
      simp only [hget, Option.elim_some, Except.pure_eq_ok] at hl
      subst hl
      obtain ⟨hall, hadv⟩ := ih hrest
      refine ⟨List.forall_mem_cons.mpr ⟨hne, hall⟩, ?_⟩
      simp only [advanceNonces, hget, Option.bind_some, if_pos (Nat.lt_of_not_le hnonce)]
      exact hadv

/-- A voucher's `min_settle_height`, when set: a later settling epoch, and
a later minimum. -/
def applyMinSettleHeight (svMinSettleHeight : Int) (st : State) : State :=
  if svMinSettleHeight ≠ 0 then
    let st := if st.settlingAt ≠ 0 ∧ st.settlingAt < svMinSettleHeight then
      { st with settlingAt := svMinSettleHeight } else st
    if st.minSettleHeight < svMinSettleHeight then
      { st with minSettleHeight := svMinSettleHeight } else st
  else st

/-- The settling epoch moves to the voucher's minimum where it is set and
earlier; the minimum moves up to it. -/
theorem applyMinSettleHeight_eq (msh : Int) (st : State) :
    applyMinSettleHeight msh st = { st with
      settlingAt := if msh ≠ 0 ∧ st.settlingAt ≠ 0 ∧ st.settlingAt < msh then msh else st.settlingAt
      minSettleHeight := if msh ≠ 0 ∧ st.minSettleHeight < msh then msh else st.minSettleHeight } := by
  simp only [applyMinSettleHeight]
  by_cases h0 : msh ≠ 0 <;> by_cases h1 : st.settlingAt ≠ 0 ∧ st.settlingAt < msh <;>
    by_cases h2 : st.minSettleHeight < msh <;> simp [h0, h1, h2]

@[simp] theorem toSend_applyMinSettleHeight (msh : Int) (st : State) :
    (applyMinSettleHeight msh st).toSend = st.toSend := by
  rw [applyMinSettleHeight_eq]

theorem applyMinSettleHeight_settling (msh : Int) (st : State) :
    st.settlingAt ≤ (applyMinSettleHeight msh st).settlingAt ∧
      ((st.settlingAt ≠ 0 → st.minSettleHeight ≤ st.settlingAt) →
        (applyMinSettleHeight msh st).settlingAt ≠ 0 →
        (applyMinSettleHeight msh st).minSettleHeight ≤ (applyMinSettleHeight msh st).settlingAt) := by
  rw [applyMinSettleHeight_eq]
  dsimp only
  split_ifs <;> omega

/-- The transaction of `update_channel_state`: the voucher's lane and the
lanes it merges moved on, and what it redeems beyond them added to
`to_send`. -/
def redeemVoucher (currentBalance : Int) (sv : SignedVoucher) (st : State) :
    Except ActorError State := do
  let laneId := sv.lane
  let laneState ← match ← findLane st.laneStates laneId with
    | some state =>
      if state.nonce ≥ sv.nonce then
        throw (.illegalArgument s!"voucher has an outdated nonce, existing: {state.nonce}, voucher: {sv.nonce}, cannot redeem")
      else pure state
    | none => pure default
  let (lStates, redeemedFromOthers) ← mergeLanes sv.lane sv.merges st.laneStates 0
  let balanceDelta := sv.amount - (redeemedFromOthers + laneState.redeemed)
  let newSendBalance := balanceDelta + st.toSend
  if newSendBalance < 0 then
    throw (.illegalArgument "voucher would leave channel balance negative")
  if newSendBalance > currentBalance then
    throw (.illegalArgument "not enough funds in channel to cover voucher")
  let st := applyMinSettleHeight sv.minSettleHeight { st with toSend := newSendBalance }
  pure { st with laneStates := lStates.set laneId ⟨sv.amount, sv.nonce⟩ }

theorem redeemVoucher_ok {bal : Int} {sv : SignedVoucher} {st st' : State}
    (h : redeemVoucher bal sv st = .ok st') :
    (∀ ls, st.laneStates.get? sv.lane = some ls → ls.nonce < sv.nonce) ∧
      ∃ lStates r toSend, mergeLanes sv.lane sv.merges st.laneStates 0 = .ok (lStates, r) ∧
        0 ≤ toSend ∧ toSend ≤ bal ∧
        st' = { applyMinSettleHeight sv.minSettleHeight { st with toSend := toSend } with
          laneStates := lStates.set sv.lane ⟨sv.amount, sv.nonce⟩ } := by
  unfold redeemVoucher at h
  simp only [Except.bind_eq_ok, findLane_eq_ok] at h
  obtain ⟨_, ⟨-, rfl⟩, h⟩ := h
  -- a lane without a state starts from the default one, with no nonce to pass
  cases hget : st.laneStates.get? sv.lane <;>
    simp only [hget, Except.throw_bind, Except.ite_throw_eq_ok, Except.bind_eq_ok,
      Except.pure_eq_ok] at h
  case none =>
    obtain ⟨_, rfl, ⟨lStates, r⟩, hmerge, hneg, hbal, rfl⟩ := h
    exact ⟨fun _ h => (by cases h), lStates, r, _, hmerge, by omega, by omega, rfl⟩
  case some l =>
    obtain ⟨hnonce, _, rfl, ⟨lStates, r⟩, hmerge, hneg, hbal, rfl⟩ := h
    refine ⟨fun _ h => ?_, lStates, r, _, hmerge, by omega, by omega, rfl⟩
    cases h
    exact Nat.lt_of_not_le hnonce

def updateChannelState (env : Env) (params : UpdateChannelStateParams) (st : State) :
    Except ActorError State := do
  validateImmediateCallerIs env.caller [st.from, st.to]
  let signer := if env.caller = st.from then st.to else st.from
  let sv := params.sv
  let sig ← sv.signature.elim (throw (.illegalArgument "voucher has no signature")) pure
  if st.settlingAt ≠ 0 ∧ env.currEpoch ≥ st.settlingAt then
    throw ⟨errChannelStateUpdateAfterSettled, "no vouchers can be processed after settling at epoch"⟩
  if params.secret.length > maxSecretSize then
    throw (.illegalArgument "secret must be at most 256 bytes long")
  let svBz ← (env.signingBytes sv).mapError
    fun e => .serialization s!"failed to serialized SignedVoucher: {e}"
  let authenticated ← (env.authenticate signer sig svBz).mapError
    (ActorError.context "proposal authentication failed")
  if !authenticated then
    throw (.illegalArgument "voucher sig authentication failed")
  let pchAddr := env.receiver
  let svpchId ← (env.resolveAddress sv.channelAddr).elim
    (throw (.illegalArgument
      s!"voucher payment channel address {sv.channelAddr} does not resolve to an ID address"))
    pure
  if pchAddr ≠ ⟨svpchId⟩ then
    throw (.illegalArgument
      s!"voucher payment channel address {svpchId} does not match receiver {pchAddr}")
  if env.currEpoch < sv.timeLockMin then
    throw (.illegalArgument "cannot use this voucher yet")
  if sv.timeLockMax ≠ 0 ∧ env.currEpoch > sv.timeLockMax then
    throw (.illegalArgument "this voucher has expired")
  if sv.amount < 0 then
    throw (.illegalArgument s!"voucher amount must be non-negative, was {sv.amount}")
  if !sv.secretPreImage.isEmpty ∧ env.hashBlake2b params.secret ≠ sv.secretPreImage then
    throw (.illegalArgument "incorrect secret")
  match sv.extra with
  | some extra =>
    (env.sendExtra extra).mapError (ActorError.context "spend voucher verification failed")
  | none => pure ()
  redeemVoucher env.currentBalance sv st

theorem updateChannelState_ok {env : Env} {params : UpdateChannelStateParams} {st st' : State}
    (h : updateChannelState env params st = .ok st') :
    env.caller ∈ [st.from, st.to] ∧ (st.settlingAt = 0 ∨ env.currEpoch < st.settlingAt) ∧
      redeemVoucher env.currentBalance params.sv st = .ok st' := by
  unfold updateChannelState at h
  simp only [Except.bind_eq_ok, Except.throw_bind, Except.ite_throw_eq_ok,
    validateImmediateCallerIs_eq_ok] at h
  obtain ⟨_, hcaller, _, -, hsettled, -, _, -, _, -, -, _, -, -, -, -, -, -, h⟩ := h
  refine ⟨hcaller, by omega, ?_⟩
  -- the voucher's `extra` call, when it has one, must succeed first
  cases hextra : params.sv.extra with
  | none =>
    simp only [hextra] at h
    exact h
  | some extra =>
    simp only [hextra, Except.bind_eq_ok] at h
    obtain ⟨_, -, h⟩ := h
    exact h

def settle (env : Env) (st : State) : Except ActorError State := do
  validateImmediateCallerIs env.caller [st.from, st.to]
  if st.settlingAt ≠ 0 then
    throw (.illegalState "channel already settling")
  let settlingAt := env.currEpoch + settleDelay
  pure { st with
    settlingAt := if settlingAt < st.minSettleHeight then st.minSettleHeight else settlingAt }

theorem settle_ok {env : Env} {st st' : State} (h : settle env st = .ok st') :
    env.caller ∈ [st.from, st.to] ∧ st.settlingAt = 0 ∧
      st' = { st with settlingAt :=
        if env.currEpoch + settleDelay < st.minSettleHeight then st.minSettleHeight
        else env.currEpoch + settleDelay } := by
  unfold settle at h
  simp only [Except.bind_eq_ok, Except.throw_bind, Except.ite_throw_eq_ok, validateImmediateCallerIs_eq_ok,
    not_not, Except.pure_eq_ok] at h
  obtain ⟨_, hcaller, hzero, rfl⟩ := h
  exact ⟨hcaller, hzero, rfl⟩

/-- `collect`: the payments it sends, in order, before the actor is deleted.
The second sends what the first left of the balance. -/
def collect (env : Env) (st : State) : Except ActorError (List (Address × Int)) := do
  validateImmediateCallerIs env.caller [st.from, st.to]
  if st.settlingAt = 0 ∨ env.currEpoch < st.settlingAt then
    throw (.forbidden "payment channel not settling or settled")
  (env.sendFunds st.to st.toSend).mapError
    (ActorError.context "Failed to send funds to `to` address")
  (env.sendFunds st.from (env.currentBalance - st.toSend)).mapError
    (ActorError.context "Failed to send funds to `from` address")
  pure [(st.to, st.toSend), (st.from, env.currentBalance - st.toSend)]

theorem collect_ok {env : Env} {st : State} {out : List (Address × Int)}
    (h : collect env st = .ok out) :
    env.caller ∈ [st.from, st.to] ∧ st.settlingAt ≠ 0 ∧ st.settlingAt ≤ env.currEpoch ∧
      out = [(st.to, st.toSend), (st.from, env.currentBalance - st.toSend)] := by
  unfold collect at h
  simp only [Except.bind_eq_ok, Except.throw_bind, Except.ite_throw_eq_ok, validateImmediateCallerIs_eq_ok,
    not_or, Except.mapError_eq_ok, Except.pure_eq_ok] at h
  obtain ⟨_, hcaller, ⟨hzero, hepoch⟩, -, -, -, -, rfl⟩ := h
  exact ⟨hcaller, hzero, Int.le_of_not_gt hepoch, rfl⟩

end BuiltinActors.Paych
