import BuiltinActors.Lib.Except
import BuiltinActors.Multisig.State

/-! # Multisig methods

Each method from the state it starts in to the state it leaves. A method
that executes a transaction (`propose`, `approve`) stops at the send: the
transaction is deleted by then and nothing is written after it, so the
method's own effect ends there; what the callee does to this actor meanwhile
is a run of further calls (`Multisig.Exec`). These methods return the id and
the transaction they send, if any.

Two functions of code outside the actors are parameters: the runtime's
resolution of an address to an actor ID (which may create an account), and
the hash of a proposal (its CBOR encoding under BLAKE2b). -/

namespace BuiltinActors.Multisig

/-- What a method reads from the runtime. -/
structure Env where
  caller : Address
  receiver : Address
  currEpoch : Int
  currentBalance : Int
  valueReceived : Int

structure ConstructorParams (α : Type) where
  signers : List α
  numApprovalsThreshold : Nat
  unlockDuration : Int
  startEpoch : Int

structure ProposeParams (α : Type) where
  toAddress : α
  value : Int
  method : Nat
  params : List UInt8

structure TxnIDParams where
  id : Int
  proposalHash : List UInt8

section Methods

variable {α : Type} [ToString α]
  (resolveToActorId : α → Bool → Except ActorError Nat)
  (computeProposalHash : Transaction α → Except String (List UInt8))

/-- Resolves the signers in order, refusing one that resolves to an actor
already listed. -/
def resolveSigners : List α → List Address → Except ActorError (List Address)
  | [], resolvedSigners => pure resolvedSigners
  | signer :: rest, resolvedSigners => do
    let resolved ← resolveToActorId signer true
    if resolvedSigners.contains ⟨resolved⟩ then
      throw (.illegalArgument s!"duplicate signer not allowed: {signer}")
    resolveSigners rest (resolvedSigners ++ [⟨resolved⟩])

def constructor (env : Env) (params : ConstructorParams α) : Except ActorError (State α) := do
  validateImmediateCallerIs env.caller [initActorAddr]
  if params.signers.isEmpty then
    throw (.illegalArgument "Must have at least one signer")
  if params.signers.length > signersMax then
    throw (.illegalArgument s!"cannot add more than {signersMax} signers")
  let resolvedSigners ← resolveSigners resolveToActorId params.signers []
  if params.numApprovalsThreshold > params.signers.length then
    throw (.illegalArgument "must not require more approvals than signers")
  if params.numApprovalsThreshold < 1 then
    throw (.illegalArgument "must require at least one approval")
  if params.unlockDuration < 0 then
    throw (.illegalArgument "negative unlock duration disallowed")
  let st : State α :=
    { signers := resolvedSigners, numApprovalsThreshold := params.numApprovalsThreshold,
      pendingTxs := OrdMap.empty, initialBalance := 0, nextTxId := 0, startEpoch := 0,
      unlockDuration := 0 }
  if params.unlockDuration ≠ 0 then
    return st.setLocked params.startEpoch params.unlockDuration env.valueReceived
  return st

/-- Executes a transaction once enough signers approved it: the locked
balance is checked and the transaction deleted before it is sent. -/
def executeTransactionIfApproved (env : Env) (st : State α) (txnId : Int) (txn : Transaction α) :
    Except ActorError (State α × Option (Int × Transaction α)) := do
  let thresholdMet := txn.approved.length ≥ st.numApprovalsThreshold
  if thresholdMet then
    st.checkAvailable env.currentBalance txn.value env.currEpoch
    return ({ st with pendingTxs := st.pendingTxs.erase txnId }, some (txnId, txn))
  return (st, none)

/-- Records the caller's approval and executes the transaction if it is now
approved. The source's loop over the previous approvers stops at the one
equal to the caller, which is the one it prints. -/
def approveTransaction (env : Env) (st : State α) (txId : Int) (txn : Transaction α) :
    Except ActorError (State α × Option (Int × Transaction α)) := do
  if env.caller ∈ txn.approved then
    throw (.forbidden s!"{env.caller} already approved this message")
  let txn := { txn with approved := txn.approved ++ [env.caller] }
  let st := { st with pendingTxs := st.pendingTxs.set txId txn }
  executeTransactionIfApproved env st txId txn

/-- Any caller may propose; a signer's proposal counts as its approval. -/
def propose (env : Env) (st : State α) (params : ProposeParams α) :
    Except ActorError (State α × Option (Int × Transaction α)) := do
  let proposer := env.caller
  if params.value < 0 then
    throw (.illegalArgument s!"proposed value must be non-negative, was {params.value}")
  if !st.isSigner proposer then
    throw (.forbidden s!"{proposer} is not a signer")
  let tId := st.nextTxId
  let txn : Transaction α :=
    { toAddress := params.toAddress, value := params.value, method := params.method,
      params := params.params, approved := [] }
  let st := { st with nextTxId := st.nextTxId + 1, pendingTxs := st.pendingTxs.set tId txn }
  approveTransaction env st tId txn

/-- The pending transaction `txnId`, checked against the hash the caller
gives, if any. Transaction ids print as the source's `TxnID` debug form. -/
def getTransaction (st : State α) (txnId : Int) (proposalHash : List UInt8) :
    Except ActorError (Transaction α) := do
  let some txn := st.pendingTxs.get? txnId
    | throw (.notFound s!"no such transaction TxnID({txnId}) for approval")
  if !proposalHash.isEmpty then
    let calculatedHash ← (computeProposalHash txn).mapError fun e =>
      ⟨.usrIllegalState, s!"failed to compute proposal hash for (tx: TxnID({txnId})): {e}"⟩
    if proposalHash ≠ calculatedHash then
      throw (.illegalArgument
        "hash does not match proposal params (ensure requester is an ID address)")
  return txn

/-- Executes the transaction if it is already approved (the threshold may
have been lowered), else records the caller's approval first. -/
def approve (env : Env) (st : State α) (params : TxnIDParams) :
    Except ActorError (State α × Option (Int × Transaction α)) := do
  let approver := env.caller
  if !st.isSigner approver then
    throw (.forbidden s!"{approver} is not a signer")
  let txn ← getTransaction computeProposalHash st params.id params.proposalHash
  let (st, sent) ← executeTransactionIfApproved env st params.id txn
  if sent.isSome then return (st, sent)
  approveTransaction env st params.id txn

/-- Only the proposer, the first approver, may cancel. -/
def cancel (env : Env) (st : State α) (params : TxnIDParams) : Except ActorError (State α) := do
  let callerAddr := env.caller
  if !st.isSigner callerAddr then
    throw (.forbidden s!"{callerAddr} is not a signer")
  let some tx := st.pendingTxs.get? params.id
    | throw (.notFound s!"no such transaction TxnID({params.id}) to cancel")
  if tx.approved.head? ≠ some callerAddr then
    throw (.forbidden "Cannot cancel another signers transaction")
  let calculatedHash ← (computeProposalHash tx).mapError fun e =>
    ⟨.usrIllegalState, s!"failed to compute proposal hash for (tx: TxnID({params.id})): {e}"⟩
  if !params.proposalHash.isEmpty && params.proposalHash != calculatedHash then
    throw (.illegalState "hash does not match proposal params")
  return { st with pendingTxs := st.pendingTxs.erase params.id }

/-! ## Methods the multisig calls on itself -/

def addSigner (env : Env) (st : State α) (signer : α) (increase : Bool) :
    Except ActorError (State α) := do
  validateImmediateCallerIs env.caller [env.receiver]
  let resolvedNewSigner ← resolveToActorId signer true
  if st.signers.length ≥ signersMax then
    throw (.forbidden s!"cannot add more than {signersMax} signers")
  if st.isSigner ⟨resolvedNewSigner⟩ then
    throw (.forbidden s!"{resolvedNewSigner} is already a signer")
  let st := { st with signers := st.signers ++ [⟨resolvedNewSigner⟩] }
  if increase then
    return { st with numApprovalsThreshold := st.numApprovalsThreshold + 1 }
  return st

def removeSigner (env : Env) (st : State α) (signer : α) (decrease : Bool) :
    Except ActorError (State α) := do
  validateImmediateCallerIs env.caller [env.receiver]
  let resolvedOldSigner ← resolveToActorId signer false
  if !st.isSigner ⟨resolvedOldSigner⟩ then
    throw (.forbidden s!"{resolvedOldSigner} is not a signer")
  let signersLen := st.signers.length
  let threshold := st.numApprovalsThreshold
  if signersLen = 1 then
    throw (.forbidden "Cannot remove only signer")
  if !decrease && signersLen - 1 < threshold then
    throw (.illegalArgument
      s!"can't reduce signers to {signersLen} below threshold {threshold} with decrease=false")
  let st ← if decrease then do
      if threshold < 2 then
        throw (.illegalArgument s!"can't decrease approvals from {threshold} to {threshold - 1}")
      pure { st with numApprovalsThreshold := threshold - 1 }
    else pure st
  -- the removed signer's approvals go first
  let st := st.purgeApprovals ⟨resolvedOldSigner⟩
  return { st with signers := st.signers.filter (· != ⟨resolvedOldSigner⟩) }

def swapSigner (env : Env) (st : State α) (fromAddress toAddress : α) :
    Except ActorError (State α) := do
  validateImmediateCallerIs env.caller [env.receiver]
  let fromResolved ← resolveToActorId fromAddress false
  let toResolved ← resolveToActorId toAddress true
  if !st.isSigner ⟨fromResolved⟩ then
    throw (.forbidden s!"{fromResolved} is not a signer")
  if st.isSigner ⟨toResolved⟩ then
    throw (.illegalArgument s!"{toResolved} is already a signer")
  -- the order of the other signers is kept
  let st := { st with signers := st.signers.filter (· != Address.mk fromResolved) ++ [Address.mk toResolved] }
  return st.purgeApprovals ⟨fromResolved⟩

def changeNumApprovalsThreshold (env : Env) (st : State α) (newThreshold : Nat) :
    Except ActorError (State α) := do
  validateImmediateCallerIs env.caller [env.receiver]
  if newThreshold = 0 ∨ newThreshold > st.signers.length then
    throw (.illegalArgument "New threshold value not supported")
  return { st with numApprovalsThreshold := newThreshold }

def lockBalance (env : Env) (st : State α) (startEpoch unlockDuration amount : Int) :
    Except ActorError (State α) := do
  validateImmediateCallerIs env.caller [env.receiver]
  if unlockDuration ≤ 0 then
    throw (.illegalArgument "unlock duration must be positive")
  if amount < 0 then
    throw (.illegalArgument "amount to lock must be positive")
  if st.unlockDuration ≠ 0 then
    throw (.forbidden "modification of unlock disallowed")
  return st.setLocked startEpoch unlockDuration amount

/-- The methods of a constructed multisig. -/
inductive Call (α : Type)
  | propose (params : ProposeParams α)
  | approve (params : TxnIDParams)
  | cancel (params : TxnIDParams)
  | addSigner (signer : α) (increase : Bool)
  | removeSigner (signer : α) (decrease : Bool)
  | swapSigner (fromAddress toAddress : α)
  | changeNumApprovalsThreshold (newThreshold : Nat)
  | lockBalance (startEpoch unlockDuration amount : Int)
  | universalReceiverHook

/-- A call up to its send, if it sends. -/
def Call.apply (env : Env) (st : State α) :
    Call α → Except ActorError (State α × Option (Int × Transaction α))
  | .propose params => Multisig.propose env st params
  | .approve params => Multisig.approve computeProposalHash env st params
  | .cancel params => (·, none) <$> Multisig.cancel computeProposalHash env st params
  | .addSigner signer increase =>
    (·, none) <$> Multisig.addSigner resolveToActorId env st signer increase
  | .removeSigner signer decrease =>
    (·, none) <$> Multisig.removeSigner resolveToActorId env st signer decrease
  | .swapSigner fromAddress toAddress =>
    (·, none) <$> Multisig.swapSigner resolveToActorId env st fromAddress toAddress
  | .changeNumApprovalsThreshold newThreshold =>
    (·, none) <$> Multisig.changeNumApprovalsThreshold env st newThreshold
  | .lockBalance startEpoch unlockDuration amount =>
    (·, none) <$> Multisig.lockBalance env st startEpoch unlockDuration amount
  -- accepts any transfer and changes nothing
  | .universalReceiverHook => pure (st, none)

end Methods

/-! ## What a successful method did

One lemma per method: the checks it passed and the state it left, in terms
of the state it started from. -/

section Spec

variable {α : Type}
  {resolveToActorId : α → Bool → Except ActorError Nat}
  {computeProposalHash : Transaction α → Except String (List UInt8)}
  {env : Env} {st st' : State α} {sent : Option (Int × Transaction α)}

theorem executeTransactionIfApproved_ok {txnId : Int} {txn : Transaction α}
    (h : executeTransactionIfApproved env st txnId txn = .ok (st', sent)) :
    (st.numApprovalsThreshold ≤ txn.approved.length ∧
        st.checkAvailable env.currentBalance txn.value env.currEpoch = .ok () ∧
        st' = { st with pendingTxs := st.pendingTxs.erase txnId } ∧ sent = some (txnId, txn)) ∨
      (txn.approved.length < st.numApprovalsThreshold ∧ st' = st ∧ sent = none) := by
  unfold executeTransactionIfApproved at h
  by_cases hm : st.numApprovalsThreshold ≤ txn.approved.length
  · simp only [ge_iff_le, hm, if_true, Except.bind_eq_ok, Except.pure_eq_ok, Prod.mk.injEq] at h
    obtain ⟨⟨⟩, hc, rfl, rfl⟩ := h
    exact .inl ⟨hm, hc, rfl, rfl⟩
  · simp only [ge_iff_le, hm, if_false, Except.pure_eq_ok, Prod.mk.injEq] at h
    obtain ⟨rfl, rfl⟩ := h
    exact .inr ⟨not_le.mp hm, rfl, rfl⟩

theorem approveTransaction_ok {txId : Int} {txn : Transaction α} {r}
    (h : approveTransaction env st txId txn = .ok r) :
    env.caller ∉ txn.approved ∧
      executeTransactionIfApproved env
        { st with
          pendingTxs := st.pendingTxs.set txId ({ txn with approved := txn.approved ++ [env.caller] }) }
        txId ({ txn with approved := txn.approved ++ [env.caller] }) = .ok r := by
  unfold approveTransaction at h
  simp only [Except.throw_bind, Except.ite_throw_eq_ok] at h
  exact h

theorem propose_ok {params : ProposeParams α} {r}
    (h : propose env st params = .ok r) :
    0 ≤ params.value ∧ env.caller ∈ st.signers ∧
      executeTransactionIfApproved env
        { st with nextTxId := st.nextTxId + 1,
                  pendingTxs := st.pendingTxs.set st.nextTxId
                    ⟨params.toAddress, params.value, params.method, params.params, [env.caller]⟩ }
        st.nextTxId ⟨params.toAddress, params.value, params.method, params.params, [env.caller]⟩ =
        .ok r := by
  unfold propose at h
  simp only [Except.throw_bind, Except.ite_throw_eq_ok, not_lt, State.isSigner,
    Bool.not_eq_true', Bool.not_eq_false, List.contains_iff_mem] at h
  obtain ⟨hv, hs, h⟩ := h
  obtain ⟨-, h⟩ := approveTransaction_ok h
  refine ⟨hv, hs, ?_⟩
  simpa using h

theorem getTransaction_ok {txnId : Int} {proposalHash : List UInt8} {txn : Transaction α}
    (h : getTransaction computeProposalHash st txnId proposalHash = .ok txn) :
    st.pendingTxs.get? txnId = some txn := by
  unfold getTransaction at h
  cases hg : st.pendingTxs.get? txnId with
  | none => simp [hg] at h
  | some t =>
    simp only [hg] at h
    split_ifs at h
    · simp only [Except.bind_eq_ok, Except.mapError_eq_ok, Except.throw_bind,
        Except.ite_throw_eq_ok, Except.pure_eq_ok] at h
      obtain ⟨-, -, -, rfl⟩ := h
      rfl
    · simp only [Except.pure_eq_ok] at h
      rw [h]

theorem approve_ok {params : TxnIDParams} {r : State α × Option (Int × Transaction α)}
    (h : approve computeProposalHash env st params = .ok r) :
    env.caller ∈ st.signers ∧ ∃ txn, st.pendingTxs.get? params.id = some txn ∧
      ((st.numApprovalsThreshold ≤ txn.approved.length ∧
          executeTransactionIfApproved env st params.id txn = .ok r) ∨
        (txn.approved.length < st.numApprovalsThreshold ∧
          approveTransaction env st params.id txn = .ok r)) := by
  unfold approve at h
  simp only [Except.throw_bind, Except.ite_throw_eq_ok, State.isSigner, Bool.not_eq_true',
    Bool.not_eq_false, List.contains_iff_mem, Except.bind_eq_ok] at h
  obtain ⟨hs, txn, htx, ⟨st₁, sent₁⟩, hex, h⟩ := h
  refine ⟨hs, txn, getTransaction_ok htx, ?_⟩
  rcases executeTransactionIfApproved_ok hex with ⟨hm, -, -, rfl⟩ | ⟨hm, rfl, rfl⟩
  · -- already approved: executed now, without the caller's approval
    simp only [Option.isSome_some, if_true, Except.pure_eq_ok] at h
    exact .inl ⟨hm, h ▸ hex⟩
  · simp only [Option.isSome_none, Bool.false_eq_true, if_false] at h
    exact .inr ⟨hm, h⟩

theorem cancel_ok {params : TxnIDParams}
    (h : cancel computeProposalHash env st params = .ok st') :
    env.caller ∈ st.signers ∧ ∃ tx, st.pendingTxs.get? params.id = some tx ∧
      tx.approved.head? = some env.caller ∧
      st' = { st with pendingTxs := st.pendingTxs.erase params.id } := by
  unfold cancel at h
  simp only [Except.throw_bind, Except.ite_throw_eq_ok, State.isSigner, Bool.not_eq_true',
    Bool.not_eq_false, List.contains_iff_mem] at h
  obtain ⟨hs, h⟩ := h
  cases hg : st.pendingTxs.get? params.id with
  | none => simp [hg] at h
  | some tx =>
    simp only [hg, Except.ite_throw_eq_ok, not_not, Except.bind_eq_ok,
      Except.mapError_eq_ok, Except.pure_eq_ok] at h
    obtain ⟨hfirst, -, -, -, rfl⟩ := h
    exact ⟨hs, tx, rfl, hfirst, rfl⟩

theorem addSigner_ok {signer : α} {increase : Bool}
    (h : addSigner resolveToActorId env st signer increase = .ok st') :
    ∃ n, resolveToActorId signer true = .ok n ∧ st.signers.length < signersMax ∧
      ⟨n⟩ ∉ st.signers ∧
      st' = { st with
              signers := st.signers ++ [⟨n⟩],
              numApprovalsThreshold :=
                if increase then st.numApprovalsThreshold + 1 else st.numApprovalsThreshold } := by
  unfold addSigner at h
  simp only [Except.bind_eq_ok] at h
  obtain ⟨-, -, n, hn, h⟩ := h
  simp only [Except.throw_bind, Except.ite_throw_eq_ok, not_le, State.isSigner,
    List.contains_iff_mem] at h
  obtain ⟨hlen, hnew, h⟩ := h
  refine ⟨n, hn, hlen, hnew, ?_⟩
  cases increase
  · simp only [Bool.false_eq_true, if_false, Except.pure_eq_ok] at h ⊢
    exact h.symm
  · simp only [if_true, Except.pure_eq_ok] at h ⊢
    exact h.symm

theorem changeNumApprovalsThreshold_ok {newThreshold : Nat}
    (h : changeNumApprovalsThreshold env st newThreshold = .ok st') :
    0 < newThreshold ∧ newThreshold ≤ st.signers.length ∧
      st' = { st with numApprovalsThreshold := newThreshold } := by
  unfold changeNumApprovalsThreshold at h
  simp only [Except.bind_eq_ok, Except.throw_bind, Except.ite_throw_eq_ok, not_or, not_lt,
    Except.pure_eq_ok] at h
  obtain ⟨-, -, ⟨h0, hle⟩, rfl⟩ := h
  exact ⟨Nat.pos_of_ne_zero h0, hle, rfl⟩

theorem lockBalance_ok {startEpoch unlockDuration amount : Int}
    (h : lockBalance env st startEpoch unlockDuration amount = .ok st') :
    0 < unlockDuration ∧ 0 ≤ amount ∧ st.unlockDuration = 0 ∧
      st' = st.setLocked startEpoch unlockDuration amount := by
  unfold lockBalance at h
  simp only [Except.bind_eq_ok, Except.throw_bind, Except.ite_throw_eq_ok, not_le, not_lt,
    not_not, Except.pure_eq_ok] at h
  obtain ⟨-, -, hd, ha, hu, rfl⟩ := h
  exact ⟨hd, ha, hu, rfl⟩

theorem swapSigner_ok {fromAddress toAddress : α}
    (h : swapSigner resolveToActorId env st fromAddress toAddress = .ok st') :
    ∃ f t, resolveToActorId fromAddress false = .ok f ∧ resolveToActorId toAddress true = .ok t ∧
      ⟨f⟩ ∈ st.signers ∧ ⟨t⟩ ∉ st.signers ∧
      st' = { st with
              signers := st.signers.filter (· != ⟨f⟩) ++ [⟨t⟩],
              pendingTxs := (st.purgeApprovals ⟨f⟩).pendingTxs } := by
  unfold swapSigner at h
  simp only [Except.bind_eq_ok] at h
  obtain ⟨-, -, f, hf, t, ht, h⟩ := h
  simp only [Except.throw_bind, Except.ite_throw_eq_ok, State.isSigner, Bool.not_eq_true',
    Bool.not_eq_false, List.contains_iff_mem, Except.pure_eq_ok] at h
  obtain ⟨hfrom, hto, rfl⟩ := h
  exact ⟨f, t, hf, ht, hfrom, by simpa using hto, rfl⟩

theorem removeSigner_ok {signer : α} {decrease : Bool}
    (h : removeSigner resolveToActorId env st signer decrease = .ok st') :
    ∃ n, resolveToActorId signer false = .ok n ∧ ⟨n⟩ ∈ st.signers ∧ st.signers.length ≠ 1 ∧
      (if decrease then 2 ≤ st.numApprovalsThreshold
        else st.numApprovalsThreshold ≤ st.signers.length - 1) ∧
      st' = { st with
              signers := st.signers.filter (· != ⟨n⟩),
              numApprovalsThreshold :=
                if decrease then st.numApprovalsThreshold - 1 else st.numApprovalsThreshold,
              pendingTxs := (st.purgeApprovals ⟨n⟩).pendingTxs } := by
  unfold removeSigner at h
  simp only [Except.bind_eq_ok] at h
  obtain ⟨-, -, n, hn, h⟩ := h
  simp only [Except.throw_bind, Except.ite_throw_eq_ok, State.isSigner, Bool.not_eq_true',
    Bool.not_eq_false, List.contains_iff_mem] at h
  obtain ⟨hmem, hone, h⟩ := h
  refine ⟨n, hn, hmem, hone, ?_⟩
  cases decrease
  · simp only [Bool.not_false, Bool.true_and, decide_eq_true_eq, not_lt, Bool.false_eq_true,
      if_false, Except.bind_eq_ok, Except.pure_eq_ok] at h ⊢
    obtain ⟨hle, _, rfl, rfl⟩ := h
    exact ⟨hle, rfl⟩
  · simp only [Bool.not_true, Bool.false_and, if_true, Except.bind_eq_ok,
      Except.ite_throw_eq_ok, not_lt, Except.pure_eq_ok] at h ⊢
    obtain ⟨-, h2, _, rfl, rfl⟩ := h
    exact ⟨h2, rfl⟩

section Resolve

variable [ToString α]

theorem resolveSigners_ok : ∀ {signers : List α} {acc r : List Address},
    resolveSigners resolveToActorId signers acc = .ok r → acc.Nodup →
      r.Nodup ∧ r.length = acc.length + signers.length
  | [], acc, r, h, hnd => by
    simp only [resolveSigners, Except.pure_eq_ok] at h
    subst h
    exact ⟨hnd, rfl⟩
  | signer :: rest, acc, r, h, hnd => by
    simp only [resolveSigners, Except.bind_eq_ok, Except.throw_bind, Except.ite_throw_eq_ok,
      List.contains_iff_mem] at h
    obtain ⟨n, -, hnew, h⟩ := h
    have hnd' : (acc ++ [Address.mk n]).Nodup := List.nodup_append.mpr
      ⟨hnd, List.nodup_singleton _, fun a ha b hb => by
        rw [List.mem_singleton] at hb
        exact fun hab => hnew (hb ▸ hab ▸ ha)⟩
    obtain ⟨hr, hlen⟩ := resolveSigners_ok h hnd'
    refine ⟨hr, ?_⟩
    rw [hlen, List.length_append, List.length_singleton, List.length_cons]
    omega

theorem constructor_ok {params : ConstructorParams α}
    (h : constructor resolveToActorId env params = .ok st) :
    ∃ signers, resolveSigners resolveToActorId params.signers [] = .ok signers ∧
      params.signers ≠ [] ∧ params.signers.length ≤ signersMax ∧
      1 ≤ params.numApprovalsThreshold ∧ params.numApprovalsThreshold ≤ params.signers.length ∧
      0 ≤ params.unlockDuration ∧
      st = (if params.unlockDuration ≠ 0 then
          State.setLocked ⟨signers, params.numApprovalsThreshold, 0, 0, 0, 0, OrdMap.empty⟩
            params.startEpoch params.unlockDuration env.valueReceived
        else ⟨signers, params.numApprovalsThreshold, 0, 0, 0, 0, OrdMap.empty⟩) := by
  unfold constructor at h
  simp only [Except.bind_eq_ok, Except.throw_bind, Except.ite_throw_eq_ok, List.isEmpty_iff,
    not_lt] at h
  obtain ⟨-, -, hne, hmax, signers, hs, hthr, hone, hud, h⟩ := h
  refine ⟨signers, hs, hne, hmax, hone, hthr, hud, ?_⟩
  split_ifs at h ⊢ <;>
  · simp only [Except.pure_eq_ok] at h
    exact h.symm

end Resolve

end Spec

end BuiltinActors.Multisig
