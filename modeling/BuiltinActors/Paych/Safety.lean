import BuiltinActors.Paych.Actor

/-! # Payment channel safety over runs

A channel is the actor's state, while the actor exists, and its balance.
Anyone can add funds at any time; each of the four methods changes the state
as `Actor.lean` computes it, reading the channel's own balance as the
current balance, and `collect` pays the balance out and deletes the actor. A
method that fails leaves the channel as it was, so a run is a sequence of
successful steps.

Along every run the amount owed to `to` stays between zero and the balance,
and a settling epoch stays at or after the minimum settle height
(`Channel.Funded`). Each step moves a settling epoch only later; a voucher is
accepted only before the settling epoch, with a nonce above its lane's, and
with each merge above the merge lane's; and `collect` runs only once the
settling epoch is reached, paying `to_send` to `to` and the rest to `from`. -/

namespace BuiltinActors.Paych

structure Channel where
  state : Option State
  balance : Nat

inductive Call where
  | deposit (amount : Nat)
  | constructor (env : Env) (params : ConstructorParams)
  | updateChannelState (env : Env) (params : UpdateChannelStateParams)
  | settle (env : Env)
  | collect (env : Env)

/-- A successful message to the channel, and the payments it makes. -/
inductive Step : Channel → Call → List (Address × Int) → Channel → Prop
  | deposit {c : Channel} {amount : Nat} :
      Step c (.deposit amount) [] { c with balance := c.balance + amount }
  | constructor {balance : Nat} {env : Env} {params : ConstructorParams} {st : State} :
      Paych.constructor env params = .ok st →
      Step ⟨none, balance⟩ (.constructor env params) [] ⟨some st, balance⟩
  | updateChannelState {st st' : State} {balance : Nat} {env : Env}
      {params : UpdateChannelStateParams} :
      Paych.updateChannelState { env with currentBalance := balance } params st = .ok st' →
      Step ⟨some st, balance⟩ (.updateChannelState env params) [] ⟨some st', balance⟩
  | settle {st st' : State} {balance : Nat} {env : Env} :
      Paych.settle env st = .ok st' →
      Step ⟨some st, balance⟩ (.settle env) [] ⟨some st', balance⟩
  | collect {st : State} {balance : Nat} {env : Env} {out : List (Address × Int)} :
      Paych.collect { env with currentBalance := balance } st = .ok out →
      Step ⟨some st, balance⟩ (.collect env) out ⟨none, 0⟩

/-- The channels of every run: from no actor, with any balance. -/
inductive Reachable : Channel → Prop
  | init {balance : Nat} : Reachable ⟨none, balance⟩
  | step {c c' : Channel} {call : Call} {out : List (Address × Int)} :
      Reachable c → Step c call out c' → Reachable c'

/-! ## The funding invariant -/

/-- What a channel state keeps against the balance: `to_send` is owed and
covered, and a settling epoch is no earlier than the minimum. -/
structure State.Funded (st : State) (balance : Nat) : Prop where
  toSend_nonneg : 0 ≤ st.toSend
  toSend_le : st.toSend ≤ balance
  settling : st.settlingAt ≠ 0 → st.minSettleHeight ≤ st.settlingAt

def Channel.Funded (c : Channel) : Prop := ∀ st, c.state = some st → st.Funded c.balance

theorem State.funded_new (fromAddr toAddr : Address) (balance : Nat) :
    (State.new fromAddr toAddr).Funded balance :=
  ⟨le_refl 0, Int.natCast_nonneg balance, fun h => absurd rfl h⟩

theorem State.Funded.mono {st : State} {b b' : Nat} (h : st.Funded b) (hle : b ≤ b') :
    st.Funded b' :=
  ⟨h.toSend_nonneg, le_trans h.toSend_le (Int.ofNat_le.mpr hle), h.settling⟩

/-- A voucher leaves `to_send` within the balance it was checked against, and
moves the settling epoch with the minimum. -/
theorem State.Funded.redeemVoucher {st st' : State} {balance : Nat} {sv : SignedVoucher}
    (h : st.Funded balance) (hr : Paych.redeemVoucher balance sv st = .ok st') :
    st'.Funded balance := by
  obtain ⟨-, lStates, r, toSend, -, hnonneg, hle, rfl⟩ := redeemVoucher_ok hr
  have hsettling := (applyMinSettleHeight_settling sv.minSettleHeight { st with toSend := toSend }).2
  exact ⟨by simpa using hnonneg, by simpa using hle, hsettling h.settling⟩

theorem State.Funded.settle {st st' : State} {balance : Nat} {env : Env}
    (h : st.Funded balance) (hs : Paych.settle env st = .ok st') : st'.Funded balance := by
  obtain ⟨-, -, rfl⟩ := settle_ok hs
  refine ⟨h.toSend_nonneg, h.toSend_le, fun _ => ?_⟩
  dsimp only
  split <;> omega

theorem Step.funded {c c' : Channel} {call : Call} {out : List (Address × Int)}
    (h : Step c call out c') (hc : c.Funded) : c'.Funded := by
  intro st' hst'
  cases h with
  | deposit =>
    exact (hc st' hst').mono (Nat.le_add_right _ _)
  | constructor hcons =>
    obtain ⟨fromId, toId, rfl⟩ := constructor_ok hcons
    cases hst'
    exact State.funded_new _ _ _
  | updateChannelState hupd =>
    cases hst'
    exact (hc _ rfl).redeemVoucher (updateChannelState_ok hupd).2.2
  | settle hs =>
    cases hst'
    exact (hc _ rfl).settle hs
  | collect => cases hst'

theorem Reachable.funded {c : Channel} (h : Reachable c) : c.Funded := by
  induction h with
  | init => intro st h; cases h
  | step _ hstep ih => exact hstep.funded ih

/-! ## What each step does -/

/-- A settling epoch, once set, only moves later. -/
theorem Step.settlingAt_le {c c' : Channel} {call : Call} {out : List (Address × Int)}
    {st st' : State} (h : Step c call out c') (hs : c.state = some st) (hs' : c'.state = some st')
    (hne : st.settlingAt ≠ 0) : st.settlingAt ≤ st'.settlingAt := by
  cases h with
  | deposit =>
    rw [hs] at hs'
    cases hs'
    exact le_refl _
  | constructor => cases hs
  | updateChannelState hupd =>
    cases hs
    cases hs'
    obtain ⟨-, lStates, r, toSend, -, -, -, rfl⟩ := redeemVoucher_ok (updateChannelState_ok hupd).2.2
    exact (applyMinSettleHeight_settling _ _).1
  | settle hset =>
    cases hs
    exact absurd (settle_ok hset).2.1 hne
  | collect => cases hs'

/-- An accepted voucher: before the settling epoch, with a nonce above its
lane's, which it leaves there with its amount, and with merges that move
their lanes' nonces up in order. -/
theorem Step.updateChannelState_spec {c c' : Channel} {env : Env}
    {params : UpdateChannelStateParams} {out : List (Address × Int)} {st st' : State}
    (h : Step c (.updateChannelState env params) out c') (hs : c.state = some st)
    (hs' : c'.state = some st') :
    (st.settlingAt = 0 ∨ env.currEpoch < st.settlingAt) ∧
      (∀ ls, st.laneStates.get? params.sv.lane = some ls → ls.nonce < params.sv.nonce) ∧
      st'.laneStates.get? params.sv.lane = some ⟨params.sv.amount, params.sv.nonce⟩ ∧
      ∃ merged, advanceNonces st.laneStates params.sv.merges = some merged ∧
        ∀ l, l ≠ params.sv.lane → st'.laneStates.get? l = merged.get? l := by
  cases h with
  | updateChannelState hupd =>
    cases hs
    cases hs'
    obtain ⟨-, hsettled, hredeem⟩ := updateChannelState_ok hupd
    obtain ⟨hown, lStates, r, toSend, hmerge, -, -, rfl⟩ := redeemVoucher_ok hredeem
    refine ⟨hsettled, hown, by simp, lStates, (mergeLanes_ok hmerge).2, fun l hl => ?_⟩
    simp [hl]

/-- `collect` runs only once the settling epoch is reached, pays `to_send` to
`to` and what is left to `from`, and deletes the actor. -/
theorem Step.collect_spec {c c' : Channel} {env : Env} {out : List (Address × Int)} {st : State}
    (h : Step c (.collect env) out c') (hs : c.state = some st) :
    st.settlingAt ≠ 0 ∧ st.settlingAt ≤ env.currEpoch ∧
      out = [(st.to, st.toSend), (st.from, c.balance - st.toSend)] ∧ c' = ⟨none, 0⟩ := by
  cases h with
  | collect hcol =>
    cases hs
    obtain ⟨-, hne, hle, rfl⟩ := collect_ok hcol
    exact ⟨hne, hle, rfl, rfl⟩

end BuiltinActors.Paych
