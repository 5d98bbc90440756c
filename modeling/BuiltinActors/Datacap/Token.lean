import BuiltinActors.Runtime.Util
import BuiltinActors.Lib.Except

/-! # The DataCap token

The DataCap actor keeps an FRC-46 token whose governor, the verified
registry, alone mints and destroys it, and which moves only to or from the
governor. The token library is not part of this repository; it is modelled
by what the actor relies on: amounts are non-negative multiples of the
granularity, a mint, burn or transfer changes the balances by exactly its
amount and fails on an overdraft, an operator spends an owner's tokens only
within the allowance it holds, and a zero balance is not stored.

Mint and the two transfers end by calling the receiving actor's hook with
what it received. This module has the token's part of each method, which
returns that payload; the hook, and the calls between the DataCap actor and
the registry, are in `Verifreg.Actor`. -/

namespace BuiltinActors.Datacap

/-- Atto-units in one whole token. -/
def tokenPrecision : Int := 10 ^ 18

def datacapGranularity : Int := tokenPrecision

/-- The allowance a mint gives each operator the registry names: over 800 EiB. -/
def infiniteAllowance : Int := tokenPrecision * 1000000000000000000000

/-- The token library's errors, by the exit code each becomes. -/
inductive TokenError
  | invalidNegative
  | invalidGranularity
  | insufficientBalance
  | insufficientAllowance
deriving DecidableEq, Repr

def TokenError.toActorError : TokenError → ActorError
  | .invalidNegative => .illegalArgument "amount must not be negative"
  | .invalidGranularity => .illegalArgument "amount must be a multiple of the granularity"
  | .insufficientBalance => .insufficientFunds "insufficient balance"
  | .insufficientAllowance => .forbidden "insufficient allowance"

structure TokenState where
  supply : Int
  balances : OrdMap Nat Int
  allowances : MapMap Int

/-- What the token passes to the receiving actor's hook. -/
structure TokensReceived where
  operator : Nat
  /-- The payload's `from`: the owner the tokens left, or the token actor on a mint. -/
  fromId : Nat
  toId : Nat
  amount : Int
  operatorData : List UInt8

namespace TokenState

def new : TokenState := ⟨0, .empty, .empty⟩

def balanceOf (t : TokenState) (owner : Nat) : Int := (t.balances.get? owner).getD 0

def allowance (t : TokenState) (owner operator : Nat) : Int :=
  (t.allowances.get owner operator).getD 0

/-- Stores a balance; a zero balance is deleted. -/
def setBalance (t : TokenState) (owner : Nat) (amount : Int) : TokenState :=
  { t with balances := if amount = 0 then t.balances.erase owner else t.balances.set owner amount }

def setAllowance (t : TokenState) (owner operator : Nat) (amount : Int) : TokenState :=
  { t with allowances := t.allowances.put owner operator amount }

def validateAmount (amount : Int) : Except TokenError Unit :=
  if amount < 0 then .error .invalidNegative
  else if amount % datacapGranularity ≠ 0 then .error .invalidGranularity
  else .ok ()

def mint (t : TokenState) (toId : Nat) (amount : Int) : Except TokenError TokenState := do
  validateAmount amount
  pure { t.setBalance toId (t.balanceOf toId + amount) with supply := t.supply + amount }

def burn (t : TokenState) (owner : Nat) (amount : Int) : Except TokenError TokenState := do
  validateAmount amount
  let balance := t.balanceOf owner
  if balance < amount then throw .insufficientBalance
  pure { t.setBalance owner (balance - amount) with supply := t.supply - amount }

def transfer (t : TokenState) (fromId toId : Nat) (amount : Int) : Except TokenError TokenState := do
  validateAmount amount
  let balance := t.balanceOf fromId
  if balance < amount then throw .insufficientBalance
  let t := t.setBalance fromId (balance - amount)
  pure (t.setBalance toId (t.balanceOf toId + amount))

def spendAllowance (t : TokenState) (owner operator : Nat) (amount : Int) :
    Except TokenError TokenState := do
  let allowance := t.allowance owner operator
  if allowance < amount then throw .insufficientAllowance
  pure (t.setAllowance owner operator (allowance - amount))

def transferFrom (t : TokenState) (operator fromId toId : Nat) (amount : Int) :
    Except TokenError TokenState := do
  validateAmount amount
  let t ← t.spendAllowance fromId operator amount
  t.transfer fromId toId amount

def burnFrom (t : TokenState) (operator owner : Nat) (amount : Int) :
    Except TokenError TokenState := do
  validateAmount amount
  let t ← t.spendAllowance owner operator amount
  t.burn owner amount

def increaseAllowance (t : TokenState) (owner operator : Nat) (delta : Int) :
    Except TokenError (Int × TokenState) := do
  if delta < 0 then throw .invalidNegative
  let allowance := t.allowance owner operator + delta
  pure (allowance, t.setAllowance owner operator allowance)

def decreaseAllowance (t : TokenState) (owner operator : Nat) (delta : Int) :
    Except TokenError (Int × TokenState) := do
  if delta < 0 then throw .invalidNegative
  let allowance := max (t.allowance owner operator - delta) 0
  pure (allowance, t.setAllowance owner operator allowance)

def revokeAllowance (t : TokenState) (owner operator : Nat) : Int × TokenState :=
  (t.allowance owner operator, t.setAllowance owner operator 0)

/-! ### How the operations move balances -/

@[simp] theorem balanceOf_setBalance (t : TokenState) (owner : Nat) (amount : Int) (a : Nat) :
    (t.setBalance owner amount).balanceOf a = if a = owner then amount else t.balanceOf a := by
  unfold setBalance balanceOf
  by_cases ha : a = owner
  · subst ha
    by_cases h0 : amount = 0 <;> simp [h0]
  · by_cases h0 : amount = 0 <;> simp [h0, ha]

@[simp] theorem balanceOf_setAllowance (t : TokenState) (owner operator : Nat) (amount : Int) :
    (t.setAllowance owner operator amount).balanceOf = t.balanceOf := rfl

@[simp] theorem balanceOf_with_supply (t : TokenState) (s : Int) :
    ({ t with supply := s } : TokenState).balanceOf = t.balanceOf := rfl

@[simp] theorem balanceOf_foldl_setAllowance (owner : Nat) (amount : Int) (operators : List Address)
    (t : TokenState) :
    (operators.foldl (fun t delegate => t.setAllowance owner delegate.id amount) t).balanceOf =
      t.balanceOf := by
  induction operators generalizing t with
  | nil => rfl
  | cons delegate rest ih => exact ih _

theorem validateAmount_eq_ok {amount : Int} {u : Unit} :
    validateAmount amount = .ok u ↔ 0 ≤ amount ∧ amount % datacapGranularity = 0 := by
  unfold validateAmount
  by_cases hneg : amount < 0
  · simp [hneg]
  · have hnn : 0 ≤ amount := by omega
    by_cases hg : amount % datacapGranularity = 0 <;> simp [hneg, hg, hnn]

/-- A valid amount: what every operation checks first. -/
def ValidAmount (amount : Int) : Prop := 0 ≤ amount ∧ amount % datacapGranularity = 0

theorem mint_eq_ok {t t' : TokenState} {toId : Nat} {amount : Int} :
    t.mint toId amount = .ok t' ↔ ValidAmount amount ∧
      t' = { t.setBalance toId (t.balanceOf toId + amount) with supply := t.supply + amount } := by
  simp only [mint, Except.bind_eq_ok, validateAmount_eq_ok, Except.pure_eq_ok, ValidAmount]
  constructor
  · rintro ⟨_, hv, rfl⟩
    exact ⟨hv, rfl⟩
  · rintro ⟨hv, rfl⟩
    exact ⟨(), hv, rfl⟩

theorem burn_eq_ok {t t' : TokenState} {owner : Nat} {amount : Int} :
    t.burn owner amount = .ok t' ↔ ValidAmount amount ∧ amount ≤ t.balanceOf owner ∧
      t' = { t.setBalance owner (t.balanceOf owner - amount) with supply := t.supply - amount } := by
  simp only [burn, Except.bind_eq_ok, validateAmount_eq_ok, Except.throw_bind,
    Except.ite_throw_eq_ok, Except.pure_eq_ok, ValidAmount, not_lt]
  constructor
  · rintro ⟨_, hv, hle, rfl⟩
    exact ⟨hv, hle, rfl⟩
  · rintro ⟨hv, hle, rfl⟩
    exact ⟨(), hv, hle, rfl⟩

theorem transfer_eq_ok {t t' : TokenState} {fromId toId : Nat} {amount : Int} :
    t.transfer fromId toId amount = .ok t' ↔ ValidAmount amount ∧ amount ≤ t.balanceOf fromId ∧
      t' = (t.setBalance fromId (t.balanceOf fromId - amount)).setBalance toId
        ((t.setBalance fromId (t.balanceOf fromId - amount)).balanceOf toId + amount) := by
  simp only [transfer, Except.bind_eq_ok, validateAmount_eq_ok, Except.throw_bind,
    Except.ite_throw_eq_ok, Except.pure_eq_ok, ValidAmount, not_lt]
  constructor
  · rintro ⟨_, hv, hle, rfl⟩
    exact ⟨hv, hle, rfl⟩
  · rintro ⟨hv, hle, rfl⟩
    exact ⟨(), hv, hle, rfl⟩

/-- A transfer takes its amount off the sender and adds it to the receiver;
a transfer to oneself changes nothing. -/
theorem balanceOf_of_transfer {t t' : TokenState} {fromId toId : Nat} {amount : Int}
    (h : t.transfer fromId toId amount = .ok t') (a : Nat) :
    t'.balanceOf a = t.balanceOf a - (if a = fromId then amount else 0) +
      (if a = toId then amount else 0) := by
  obtain ⟨-, -, rfl⟩ := transfer_eq_ok.mp h
  simp only [balanceOf_setBalance]
  split_ifs <;> subst_vars <;> omega

theorem balanceOf_of_mint {t t' : TokenState} {toId : Nat} {amount : Int}
    (h : t.mint toId amount = .ok t') (a : Nat) :
    t'.balanceOf a = t.balanceOf a + (if a = toId then amount else 0) := by
  obtain ⟨-, rfl⟩ := mint_eq_ok.mp h
  by_cases ha : a = toId <;> simp [ha]

theorem balanceOf_of_burn {t t' : TokenState} {owner : Nat} {amount : Int}
    (h : t.burn owner amount = .ok t') (a : Nat) :
    t'.balanceOf a = t.balanceOf a - (if a = owner then amount else 0) := by
  obtain ⟨-, -, rfl⟩ := burn_eq_ok.mp h
  by_cases ha : a = owner <;> simp [ha]

theorem spendAllowance_eq_ok {t t' : TokenState} {owner operator : Nat} {amount : Int}
    (h : t.spendAllowance owner operator amount = .ok t') : t'.balanceOf = t.balanceOf := by
  simp only [spendAllowance, Except.throw_bind, Except.ite_throw_eq_ok, Except.pure_eq_ok] at h
  rw [← h.2, balanceOf_setAllowance]

theorem balanceOf_of_transferFrom {t t' : TokenState} {operator fromId toId : Nat} {amount : Int}
    (h : t.transferFrom operator fromId toId amount = .ok t') (a : Nat) :
    t'.balanceOf a = t.balanceOf a - (if a = fromId then amount else 0) +
      (if a = toId then amount else 0) := by
  simp only [transferFrom, Except.bind_eq_ok] at h
  obtain ⟨_, -, t₁, hspend, htransfer⟩ := h
  rw [balanceOf_of_transfer htransfer, spendAllowance_eq_ok hspend]

theorem balanceOf_of_burnFrom {t t' : TokenState} {operator owner : Nat} {amount : Int}
    (h : t.burnFrom operator owner amount = .ok t') (a : Nat) :
    t'.balanceOf a = t.balanceOf a - (if a = owner then amount else 0) := by
  simp only [burnFrom, Except.bind_eq_ok] at h
  obtain ⟨_, -, t₁, hspend, hburn⟩ := h
  rw [balanceOf_of_burn hburn, spendAllowance_eq_ok hspend]

theorem validAmount_of_transfer {t t' : TokenState} {fromId toId : Nat} {amount : Int}
    (h : t.transfer fromId toId amount = .ok t') : ValidAmount amount :=
  (transfer_eq_ok.mp h).1

theorem validAmount_of_transferFrom {t t' : TokenState} {operator fromId toId : Nat} {amount : Int}
    (h : t.transferFrom operator fromId toId amount = .ok t') : ValidAmount amount := by
  simp only [transferFrom, Except.bind_eq_ok] at h
  obtain ⟨_, hv, -⟩ := h
  exact validateAmount_eq_ok.mp hv

end TokenState

/-! ## The actor's methods, up to the receiver hook -/

structure State where
  governor : Address
  token : TokenState

/-- A token error as the actor returns it from its state transaction. -/
def tokenResult {α : Type} (x : Except TokenError α) : Except ActorError α :=
  x.mapError fun e => e.toActorError.context "state transaction failed"

namespace State

/-- The governor mints `amount` to `toAddress`, and each of `operators` may
then spend all of it. -/
def mint (st : State) (caller toAddress : Address) (amount : Int) (operators : List Address) :
    Except ActorError (TokensReceived × State) := do
  (validateImmediateCallerIs caller [st.governor]).mapError
    (ActorError.context "state transaction failed")
  let token ← tokenResult (st.token.mint toAddress.id amount)
  let token := operators.foldl
    (fun t delegate => t.setAllowance toAddress.id delegate.id infiniteAllowance) token
  pure (⟨st.governor.id, datacapTokenActorAddr.id, toAddress.id, amount, []⟩, { st with token })

/-- The governor burns an owner's tokens without an allowance. -/
def destroy (st : State) (caller owner : Address) (amount : Int) : Except ActorError State := do
  (validateImmediateCallerIs caller [st.governor]).mapError
    (ActorError.context "state transaction failed")
  let token ← tokenResult (st.token.burn owner.id amount)
  pure { st with token }

/-- A transfer, allowed only to or from the governor. -/
def transfer (st : State) (caller toAddress : Address) (amount : Int) (operatorData : List UInt8) :
    Except ActorError (TokensReceived × State) := do
  let allowed := toAddress = st.governor || caller = st.governor
  if !allowed then
    throw ((ActorError.forbidden
      s!"transfer not allowed from {caller} to {toAddress} (governor is {st.governor})").context
        "state transaction failed")
  let token ← tokenResult (st.token.transfer caller.id toAddress.id amount)
  pure (⟨caller.id, caller.id, toAddress.id, amount, operatorData⟩, { st with token })

/-- An operator's transfer of an owner's tokens, allowed only to the governor. -/
def transferFrom (st : State) (caller fromAddr toAddress : Address) (amount : Int)
    (operatorData : List UInt8) : Except ActorError (TokensReceived × State) := do
  let allowed := toAddress = st.governor
  if !allowed then
    throw ((ActorError.forbidden
      s!"transfer not allowed from {fromAddr} to {toAddress} (governor is {st.governor})").context
        "state transaction failed")
  let token ← tokenResult (st.token.transferFrom caller.id fromAddr.id toAddress.id amount)
  pure (⟨caller.id, fromAddr.id, toAddress.id, amount, operatorData⟩, { st with token })

def burn (st : State) (caller : Address) (amount : Int) : Except ActorError State := do
  let token ← tokenResult (st.token.burn caller.id amount)
  pure { st with token }

def burnFrom (st : State) (caller owner : Address) (amount : Int) : Except ActorError State := do
  let token ← tokenResult (st.token.burnFrom caller.id owner.id amount)
  pure { st with token }

def increaseAllowance (st : State) (caller operator : Address) (increase : Int) :
    Except ActorError (Int × State) := do
  let (allowance, token) ← tokenResult (st.token.increaseAllowance caller.id operator.id increase)
  pure (allowance, { st with token })

def decreaseAllowance (st : State) (caller operator : Address) (decrease : Int) :
    Except ActorError (Int × State) := do
  let (allowance, token) ← tokenResult (st.token.decreaseAllowance caller.id operator.id decrease)
  pure (allowance, { st with token })

def revokeAllowance (st : State) (caller operator : Address) : Int × State :=
  let (allowance, token) := st.token.revokeAllowance caller.id operator.id
  (allowance, { st with token })

/-! ### What each method does to the state -/

theorem tokenResult_eq_ok {α : Type} {x : Except TokenError α} {a : α} :
    tokenResult x = .ok a ↔ x = .ok a :=
  Except.mapError_eq_ok

theorem burn_eq_ok {st st' : State} {caller : Address} {amount : Int} :
    st.burn caller amount = .ok st' ↔
      ∃ token, st.token.burn caller.id amount = .ok token ∧ st' = { st with token } := by
  simp only [burn, Except.bind_eq_ok, tokenResult_eq_ok, Except.pure_eq_ok]
  exact exists_congr fun _ => and_congr_right fun _ => eq_comm

theorem burnFrom_eq_ok {st st' : State} {caller owner : Address} {amount : Int} :
    st.burnFrom caller owner amount = .ok st' ↔
      ∃ token, st.token.burnFrom caller.id owner.id amount = .ok token ∧
        st' = { st with token } := by
  simp only [burnFrom, Except.bind_eq_ok, tokenResult_eq_ok, Except.pure_eq_ok]
  exact exists_congr fun _ => and_congr_right fun _ => eq_comm

theorem destroy_eq_ok {st st' : State} {caller owner : Address} {amount : Int} :
    st.destroy caller owner amount = .ok st' ↔ caller = st.governor ∧
      ∃ token, st.token.burn owner.id amount = .ok token ∧ st' = { st with token } := by
  simp only [destroy, Except.bind_eq_ok, Except.mapError_eq_ok, validateImmediateCallerIs_eq_ok,
    List.mem_singleton, tokenResult_eq_ok, Except.pure_eq_ok]
  constructor
  · rintro ⟨_, hc, token, htoken, rfl⟩
    exact ⟨hc, token, htoken, rfl⟩
  · rintro ⟨hc, token, htoken, rfl⟩
    exact ⟨(), hc, token, htoken, rfl⟩

theorem mint_eq_ok {st st' : State} {caller toAddress : Address} {amount : Int}
    {operators : List Address} {received : TokensReceived} :
    st.mint caller toAddress amount operators = .ok (received, st') ↔ caller = st.governor ∧
      ∃ token, st.token.mint toAddress.id amount = .ok token ∧
        received = ⟨st.governor.id, datacapTokenActorAddr.id, toAddress.id, amount, []⟩ ∧
        st' = { st with token := (operators.foldl
          (fun t delegate => t.setAllowance toAddress.id delegate.id infiniteAllowance) token) } := by
  simp only [mint, Except.bind_eq_ok, Except.mapError_eq_ok, validateImmediateCallerIs_eq_ok,
    List.mem_singleton, tokenResult_eq_ok, Except.pure_eq_ok, Prod.mk.injEq]
  constructor
  · rintro ⟨_, hc, token, htoken, hr, hst⟩
    exact ⟨hc, token, htoken, hr.symm, hst.symm⟩
  · rintro ⟨hc, token, htoken, hr, hst⟩
    exact ⟨(), hc, token, htoken, hr.symm, hst.symm⟩

theorem transfer_eq_ok {st st' : State} {caller toAddress : Address} {amount : Int}
    {operatorData : List UInt8} {received : TokensReceived} :
    st.transfer caller toAddress amount operatorData = .ok (received, st') ↔
      (toAddress = st.governor ∨ caller = st.governor) ∧
      ∃ token, st.token.transfer caller.id toAddress.id amount = .ok token ∧
        received = ⟨caller.id, caller.id, toAddress.id, amount, operatorData⟩ ∧
        st' = { st with token } := by
  simp only [transfer, Except.bind_eq_ok, Except.throw_bind, Except.ite_throw_eq_ok,
    Bool.not_eq_true', Bool.or_eq_false_iff, decide_eq_false_iff_not, tokenResult_eq_ok,
    Except.pure_eq_ok, Prod.mk.injEq]
  constructor
  · rintro ⟨hallowed, token, htoken, hr, hst⟩
    exact ⟨by tauto, token, htoken, hr.symm, hst.symm⟩
  · rintro ⟨hallowed, token, htoken, hr, hst⟩
    exact ⟨by tauto, token, htoken, hr.symm, hst.symm⟩

theorem transferFrom_eq_ok {st st' : State} {caller fromAddr toAddress : Address}
    {amount : Int} {operatorData : List UInt8} {received : TokensReceived} :
    st.transferFrom caller fromAddr toAddress amount operatorData = .ok (received, st') ↔
      toAddress = st.governor ∧
      ∃ token, st.token.transferFrom caller.id fromAddr.id toAddress.id amount = .ok token ∧
        received = ⟨caller.id, fromAddr.id, toAddress.id, amount, operatorData⟩ ∧
        st' = { st with token } := by
  simp only [transferFrom, Except.bind_eq_ok, Except.throw_bind, Except.ite_throw_eq_ok,
    Bool.not_eq_true', decide_eq_false_iff_not, not_not, tokenResult_eq_ok,
    Except.pure_eq_ok, Prod.mk.injEq]
  constructor
  · rintro ⟨hallowed, token, htoken, hr, hst⟩
    exact ⟨hallowed, token, htoken, hr.symm, hst.symm⟩
  · rintro ⟨hallowed, token, htoken, hr, hst⟩
    exact ⟨hallowed, token, htoken, hr.symm, hst.symm⟩

end State

end BuiltinActors.Datacap
