import Mathlib.Logic.Relation
import BuiltinActors.Multisig.Actor

/-! # The multisig's invariant over every run

`Inv` is the state invariant of the multisig: distinct signers, no more than
`signersMax`, a threshold between one and their number, every pending
transaction approved by distinct current signers under an id below the next
one, and no lock-up fields without a lock-up. The constructor establishes
it and every method keeps it (`Inv.apply`).

A method that sends hands control to the callee, which may call this actor
again before the send returns; `Exec` is a call together with any such run.
Since the sending methods write nothing after the send, the invariant of
the whole call follows from that of its steps (`Inv.runs`). `SentOk` says
what holds of every transaction the multisig sends. -/

namespace BuiltinActors.Multisig

variable {α : Type}

/-- The approvals of a pending transaction: at least one, none twice, and
all by current signers. -/
structure Approvals (signers approved : List Address) : Prop where
  ne_nil : approved ≠ []
  nodup : approved.Nodup
  subset : ∀ a ∈ approved, a ∈ signers

/-- Every pending transaction is approved by current signers and has an id
below the next one. -/
def PendingOk (signers : List Address) (nextTxId : Int) (pending : OrdMap Int (Transaction α)) :
    Prop :=
  ∀ id txn, pending.get? id = some txn → Approvals signers txn.approved ∧ id < nextTxId

/-- The multisig's state invariant. Signers are ID addresses by their type. -/
structure Inv (st : State α) : Prop where
  nodup : st.signers.Nodup
  one_le_threshold : 1 ≤ st.numApprovalsThreshold
  threshold_le : st.numApprovalsThreshold ≤ st.signers.length
  length_le : st.signers.length ≤ signersMax
  pending : PendingOk st.signers st.nextTxId st.pendingTxs
  unlock : st.unlockDuration = 0 → st.startEpoch = 0 ∧ st.initialBalance = 0

/-- A new approval, by a signer that had not approved yet. -/
theorem approvals_append {signers approved : List Address} {a : Address} (hnd : approved.Nodup)
    (hsub : ∀ b ∈ approved, b ∈ signers) (ha : a ∈ signers) (hnew : a ∉ approved) :
    Approvals signers (approved ++ [a]) := by
  refine ⟨by simp, List.nodup_append.mpr ⟨hnd, List.nodup_singleton _, ?_⟩, fun b hb => ?_⟩
  · intro b hb c hc hbc
    rw [List.mem_singleton] at hc
    exact hnew (hc ▸ hbc ▸ hb)
  · rcases List.mem_append.mp hb with hb | hb
    · exact hsub b hb
    · exact List.mem_singleton.mp hb ▸ ha

/-! ## Pending transactions -/

namespace PendingOk

variable {signers : List Address} {nextTxId : Int} {pending : OrdMap Int (Transaction α)}

theorem erase (h : PendingOk signers nextTxId pending) (id : Int) :
    PendingOk signers nextTxId (pending.erase id) := by
  intro k txn hk
  rw [OrdMap.get?_erase] at hk
  split_ifs at hk
  exact h k txn hk

theorem set (h : PendingOk signers nextTxId pending) {id : Int} {txn : Transaction α}
    (ha : Approvals signers txn.approved) (hid : id < nextTxId) :
    PendingOk signers nextTxId (pending.set id txn) := by
  intro k t hk
  rw [OrdMap.get?_set] at hk
  split_ifs at hk with hkid
  · cases hk
    exact ⟨ha, hkid ▸ hid⟩
  · exact h k t hk

theorem mono (h : PendingOk signers nextTxId pending) {signers' : List Address} {nextTxId' : Int}
    (hs : ∀ a ∈ signers, a ∈ signers') (hn : nextTxId ≤ nextTxId') :
    PendingOk signers' nextTxId' pending := fun id txn hk =>
  let ⟨⟨hne, hnd, hsub⟩, hid⟩ := h id txn hk
  ⟨⟨hne, hnd, fun a ha => hs a (hsub a ha)⟩, lt_of_lt_of_le hid hn⟩

/-- Purging a signer's approvals leaves only approvals by the other signers. -/
theorem purge {st : State α} (h : PendingOk signers nextTxId st.pendingTxs) (addr : Address) :
    PendingOk (signers.filter (· != addr)) nextTxId (st.purgeApprovals addr).pendingTxs := by
  intro id txn' hk
  rw [State.get?_purgeApprovals, Option.bind_eq_some_iff] at hk
  obtain ⟨txn, htx, hp⟩ := hk
  obtain ⟨⟨hne, hnd, hsub⟩, hid⟩ := h id txn htx
  refine ⟨?_, hid⟩
  by_cases ha : txn.approved.contains addr
  · -- the signer's approval is dropped; an emptied transaction is gone
    simp only [ha, if_true, State.purgedTxn] at hp
    split_ifs at hp with hemp
    cases hp
    refine ⟨by simpa using hemp, hnd.filter _, fun a hmem => ?_⟩
    obtain ⟨hmem, hne'⟩ := List.mem_filter.mp hmem
    exact List.mem_filter.mpr ⟨hsub a hmem, hne'⟩
  · simp only [ha, Bool.false_eq_true, if_false, Option.some.injEq] at hp
    subst hp
    refine ⟨hne, hnd, fun a hmem => List.mem_filter.mpr ⟨hsub a hmem, ?_⟩⟩
    -- `addr` approved nothing here, so every approver differs from it
    have hna : a ≠ addr := fun hx => ha (List.contains_iff_mem.mpr (hx ▸ hmem))
    simpa using hna

end PendingOk

/-- Dropping a listed signer from distinct signers leaves one fewer. -/
theorem length_filter_bne {l : List Address} {a : Address} (hnd : l.Nodup) (ha : a ∈ l) :
    (l.filter (· != a)).length = l.length - 1 := by
  rw [← hnd.erase_eq_filter a, List.length_erase_of_mem ha]

/-! ## Each method keeps the invariant -/

namespace Inv

variable {resolveToActorId : α → Bool → Except ActorError Nat}
  {computeProposalHash : Transaction α → Except String (List UInt8)}
  {env : Env} {st st' : State α} {sent : Option (Int × Transaction α)}

theorem withPending (hi : Inv st) {pending : OrdMap Int (Transaction α)}
    (hp : PendingOk st.signers st.nextTxId pending) : Inv { st with pendingTxs := pending } :=
  ⟨hi.nodup, hi.one_le_threshold, hi.threshold_le, hi.length_le, hp, hi.unlock⟩

theorem executeTransactionIfApproved (hi : Inv st) {id : Int} {txn : Transaction α}
    (h : Multisig.executeTransactionIfApproved env st id txn = .ok (st', sent)) : Inv st' := by
  rcases executeTransactionIfApproved_ok h with ⟨-, -, rfl, -⟩ | ⟨-, rfl, -⟩
  · exact hi.withPending (hi.pending.erase id)
  · exact hi

/-- A signer's new approval, added to distinct approvals by signers of a
transaction under a live id. -/
theorem approveTransaction (hi : Inv st) {id : Int} {txn : Transaction α}
    (hs : env.caller ∈ st.signers) (hnd : txn.approved.Nodup)
    (hsub : ∀ a ∈ txn.approved, a ∈ st.signers) (hid : id < st.nextTxId)
    (h : Multisig.approveTransaction env st id txn = .ok (st', sent)) : Inv st' := by
  obtain ⟨hnew, h⟩ := approveTransaction_ok h
  have hp : PendingOk st.signers st.nextTxId
      (st.pendingTxs.set id { txn with approved := txn.approved ++ [env.caller] }) :=
    hi.pending.set (approvals_append hnd hsub hs hnew) hid
  exact (hi.withPending hp).executeTransactionIfApproved h

theorem propose (hi : Inv st) {params : ProposeParams α}
    (h : Multisig.propose env st params = .ok (st', sent)) : Inv st' := by
  obtain ⟨-, hs, h⟩ := propose_ok h
  -- the proposal is stored under the old next id, with the proposer's approval
  have happ : Approvals st.signers [env.caller] :=
    ⟨List.cons_ne_nil _ _, List.nodup_singleton _, fun a ha => List.mem_singleton.mp ha ▸ hs⟩
  have hp : PendingOk st.signers (st.nextTxId + 1) (st.pendingTxs.set st.nextTxId
      ⟨params.toAddress, params.value, params.method, params.params, [env.caller]⟩) :=
    (hi.pending.mono (fun _ ha => ha) (by omega)).set happ (by omega)
  have hi' : Inv { st with
      nextTxId := st.nextTxId + 1
      pendingTxs := st.pendingTxs.set st.nextTxId
        ⟨params.toAddress, params.value, params.method, params.params, [env.caller]⟩ } :=
    ⟨hi.nodup, hi.one_le_threshold, hi.threshold_le, hi.length_le, hp, hi.unlock⟩
  exact hi'.executeTransactionIfApproved h

theorem approve (hi : Inv st) {params : TxnIDParams}
    (h : Multisig.approve computeProposalHash env st params = .ok (st', sent)) : Inv st' := by
  obtain ⟨hs, txn, htx, ⟨-, h⟩ | ⟨-, h⟩⟩ := approve_ok h
  · exact hi.executeTransactionIfApproved h
  · obtain ⟨⟨-, hnd, hsub⟩, hid⟩ := hi.pending params.id txn htx
    exact hi.approveTransaction hs hnd hsub hid h

theorem cancel (hi : Inv st) {params : TxnIDParams}
    (h : Multisig.cancel computeProposalHash env st params = .ok st') : Inv st' := by
  obtain ⟨-, tx, -, -, rfl⟩ := cancel_ok h
  exact hi.withPending (hi.pending.erase params.id)

theorem addSigner (hi : Inv st) {signer : α} {increase : Bool}
    (h : Multisig.addSigner resolveToActorId env st signer increase = .ok st') : Inv st' := by
  obtain ⟨n, -, hlen, hnew, rfl⟩ := addSigner_ok h
  have hone := hi.one_le_threshold
  have hle := hi.threshold_le
  refine ⟨?_, ?_, ?_, ?_, hi.pending.mono (fun a ha => List.mem_append_left _ ha) le_rfl,
    hi.unlock⟩
  · refine List.nodup_append.mpr ⟨hi.nodup, List.nodup_singleton _, fun a ha b hb hab => ?_⟩
    rw [List.mem_singleton] at hb
    exact hnew (hb ▸ hab ▸ ha)
  · dsimp only
    split_ifs <;> omega
  · simp only [List.length_append, List.length_singleton]
    split_ifs <;> omega
  · simp only [List.length_append, List.length_singleton]
    exact hlen

theorem removeSigner (hi : Inv st) {signer : α} {decrease : Bool}
    (h : Multisig.removeSigner resolveToActorId env st signer decrease = .ok st') : Inv st' := by
  obtain ⟨n, -, hmem, hone, hthr, rfl⟩ := removeSigner_ok h
  have hlen := length_filter_bne hi.nodup hmem
  have hpos := hi.one_le_threshold
  have hle := hi.threshold_le
  have hmax := hi.length_le
  refine ⟨hi.nodup.filter _, ?_, ?_, ?_, hi.pending.purge ⟨n⟩, hi.unlock⟩
  · dsimp only
    split_ifs at hthr ⊢ <;> omega
  · dsimp only
    rw [hlen]
    split_ifs at hthr ⊢ <;> omega
  · dsimp only
    omega

theorem swapSigner (hi : Inv st) {fromAddress toAddress : α}
    (h : Multisig.swapSigner resolveToActorId env st fromAddress toAddress = .ok st') :
    Inv st' := by
  obtain ⟨f, t, -, -, hf, ht, rfl⟩ := swapSigner_ok h
  have hlen := length_filter_bne hi.nodup hf
  have hpos : 0 < st.signers.length := List.length_pos_of_mem hf
  have hle := hi.threshold_le
  have hmax := hi.length_le
  refine ⟨?_, hi.one_le_threshold, ?_, ?_, ?_, hi.unlock⟩
  · refine List.nodup_append.mpr ⟨hi.nodup.filter _, List.nodup_singleton _, fun a ha b hb hab => ?_⟩
    rw [List.mem_singleton] at hb
    exact ht (hb ▸ hab ▸ (List.mem_filter.mp ha).1)
  · simp only [List.length_append, List.length_singleton]
    omega
  · simp only [List.length_append, List.length_singleton]
    omega
  · exact (hi.pending.purge ⟨f⟩).mono (fun a ha => List.mem_append_left _ ha) le_rfl

theorem changeNumApprovalsThreshold (hi : Inv st) {newThreshold : Nat}
    (h : Multisig.changeNumApprovalsThreshold env st newThreshold = .ok st') : Inv st' := by
  obtain ⟨hpos, hle, rfl⟩ := changeNumApprovalsThreshold_ok h
  exact ⟨hi.nodup, hpos, hle, hi.length_le, hi.pending, hi.unlock⟩

theorem lockBalance (hi : Inv st) {startEpoch unlockDuration amount : Int}
    (h : Multisig.lockBalance env st startEpoch unlockDuration amount = .ok st') : Inv st' := by
  obtain ⟨hpos, -, -, rfl⟩ := lockBalance_ok h
  refine ⟨hi.nodup, hi.one_le_threshold, hi.threshold_le, hi.length_le, hi.pending, ?_⟩
  -- the lock-up now has a positive duration
  intro h0
  exact absurd h0 (ne_of_gt hpos)

/-- A method that never sends returned its state and nothing to send. -/
private theorem ok_of_map_none {x : Except ActorError (State α)}
    (h : (fun st => (st, (none : Option (Int × Transaction α)))) <$> x = .ok (st', sent)) :
    x = .ok st' ∧ sent = none := by
  obtain ⟨st₁, h₁, heq⟩ := Except.map_eq_ok.mp h
  simp only [Prod.mk.injEq] at heq
  obtain ⟨rfl, rfl⟩ := heq
  exact ⟨h₁, rfl⟩

/-- Every method of a constructed multisig keeps the invariant. -/
theorem apply (hi : Inv st) {c : Call α}
    (h : c.apply resolveToActorId computeProposalHash env st = .ok (st', sent)) : Inv st' := by
  cases c with
  | propose params => exact hi.propose h
  | approve params => exact hi.approve h
  | cancel params => exact hi.cancel (ok_of_map_none h).1
  | addSigner signer increase => exact hi.addSigner (ok_of_map_none h).1
  | removeSigner signer decrease => exact hi.removeSigner (ok_of_map_none h).1
  | swapSigner fromAddress toAddress => exact hi.swapSigner (ok_of_map_none h).1
  | changeNumApprovalsThreshold newThreshold =>
    exact hi.changeNumApprovalsThreshold (ok_of_map_none h).1
  | lockBalance startEpoch unlockDuration amount => exact hi.lockBalance (ok_of_map_none h).1
  | universalReceiverHook =>
    simp only [Call.apply, Except.pure_eq_ok, Prod.mk.injEq] at h
    exact h.1 ▸ hi

end Inv

/-! ## The constructor -/

theorem inv_constructor [ToString α] {resolveToActorId : α → Bool → Except ActorError Nat}
    {env : Env} {params : ConstructorParams α} {st : State α}
    (h : constructor resolveToActorId env params = .ok st) : Inv st := by
  obtain ⟨signers, hs, -, hmax, hone, hthr, -, rfl⟩ := constructor_ok h
  obtain ⟨hnd, hlen⟩ := resolveSigners_ok hs List.nodup_nil
  rw [List.length_nil, zero_add] at hlen
  have hpend : PendingOk signers 0 (OrdMap.empty : OrdMap Int (Transaction α)) := by
    intro id txn hk
    simp at hk
  split_ifs with hud
  · exact ⟨hnd, hone, hlen ▸ hthr, hlen ▸ hmax, hpend, fun h0 => absurd h0 hud⟩
  · exact ⟨hnd, hone, hlen ▸ hthr, hlen ▸ hmax, hpend, fun _ => ⟨rfl, rfl⟩⟩

/-! ## Runs with re-entrant calls -/

section Runs

variable (resolveToActorId : α → Bool → Except ActorError Nat)
  (computeProposalHash : Transaction α → Except String (List UInt8))

/-- One successful call of a method, up to its send. -/
def Steps (st st' : State α) : Prop :=
  ∃ (env : Env) (c : Call α) (sent : Option (Int × Transaction α)),
    c.apply resolveToActorId computeProposalHash env st = .ok (st', sent)

/-- A successful call: the method up to its send and then, if it sends,
whatever the callee does to this actor before the send returns, which is
any run of successful calls, re-entrant ones included. A send that fails
undoes its callee's changes: the empty run. -/
def Exec (env : Env) (c : Call α) (st st' : State α) : Prop :=
  ∃ st₁ sent, c.apply resolveToActorId computeProposalHash env st = .ok (st₁, sent) ∧
    (sent = none → st' = st₁) ∧
    Relation.ReflTransGen (Steps resolveToActorId computeProposalHash) st₁ st'

end Runs

namespace Inv

variable {resolveToActorId : α → Bool → Except ActorError Nat}
  {computeProposalHash : Transaction α → Except String (List UInt8)}
  {env : Env} {st st' : State α}

theorem runs (hi : Inv st)
    (h : Relation.ReflTransGen (Steps resolveToActorId computeProposalHash) st st') : Inv st' := by
  induction h with
  | refl => exact hi
  | tail _ hstep ih =>
    obtain ⟨env, c, sent, hc⟩ := hstep
    exact ih.apply hc

theorem exec (hi : Inv st) {c : Call α}
    (h : Exec resolveToActorId computeProposalHash env c st st') : Inv st' := by
  obtain ⟨st₁, sent, hc, -, hrun⟩ := h
  exact (hi.apply hc).runs hrun

end Inv

/-! ## What is sent -/

/-- What holds of a transaction the multisig sends, against the state the
call started in: it was pending there, or was proposed by this very call,
with the same destination, value, method and parameters; at least the
threshold of distinct current signers approved it; the locked-balance check
passed; and it is no longer pending when it is sent. -/
structure SentOk (env : Env) (c : Call α) (st st₁ : State α) (id : Int) (txn : Transaction α) :
    Prop where
  pending : (∃ t₀, st.pendingTxs.get? id = some t₀ ∧ t₀.toAddress = txn.toAddress ∧
      t₀.value = txn.value ∧ t₀.method = txn.method ∧ t₀.params = txn.params) ∨
    ∃ params, c = .propose params ∧ id = st.nextTxId ∧ params.toAddress = txn.toAddress ∧
      params.value = txn.value ∧ params.method = txn.method ∧ params.params = txn.params
  threshold : st.numApprovalsThreshold ≤ txn.approved.length
  nodup : txn.approved.Nodup
  signers : ∀ a ∈ txn.approved, a ∈ st.signers
  available : st.checkAvailable env.currentBalance txn.value env.currEpoch = .ok ()
  deleted : st₁.pendingTxs.get? id = none

section Sent

variable {resolveToActorId : α → Bool → Except ActorError Nat}
  {computeProposalHash : Transaction α → Except String (List UInt8)}
  {env : Env} {st st₁ : State α}

theorem executeTransactionIfApproved_sent {id id' : Int} {txn txn' : Transaction α}
    (h : executeTransactionIfApproved env st id txn = .ok (st₁, some (id', txn'))) :
    id' = id ∧ txn' = txn ∧ st.numApprovalsThreshold ≤ txn.approved.length ∧
      st.checkAvailable env.currentBalance txn.value env.currEpoch = .ok () ∧
      st₁.pendingTxs.get? id = none := by
  rcases executeTransactionIfApproved_ok h with ⟨hthr, havail, rfl, hsent⟩ | ⟨-, -, hsent⟩
  · simp only [Option.some.injEq, Prod.mk.injEq] at hsent
    obtain ⟨rfl, rfl⟩ := hsent
    exact ⟨rfl, rfl, hthr, havail, by simp⟩
  · cases hsent

theorem sentOk_of_apply (hi : Inv st) {c : Call α} {id : Int} {txn : Transaction α}
    (h : c.apply resolveToActorId computeProposalHash env st = .ok (st₁, some (id, txn))) :
    SentOk env c st st₁ id txn := by
  cases c with
  | propose params =>
    obtain ⟨-, hs, h⟩ := propose_ok h
    obtain ⟨rfl, rfl, hthr, havail, hdel⟩ := executeTransactionIfApproved_sent h
    exact ⟨.inr ⟨params, rfl, rfl, rfl, rfl, rfl, rfl⟩, hthr, List.nodup_singleton _,
      fun a ha => List.mem_singleton.mp ha ▸ hs, havail, hdel⟩
  | approve params =>
    obtain ⟨hs, t₀, htx, ⟨-, h⟩ | ⟨-, h⟩⟩ := approve_ok h
    · -- executed with the approvals it already had
      obtain ⟨rfl, rfl, hthr, havail, hdel⟩ := executeTransactionIfApproved_sent h
      obtain ⟨⟨-, hnd, hsub⟩, -⟩ := hi.pending _ _ htx
      exact ⟨.inl ⟨_, htx, rfl, rfl, rfl, rfl⟩, hthr, hnd, hsub, havail, hdel⟩
    · -- executed once the caller's approval is added
      obtain ⟨hnew, h⟩ := approveTransaction_ok h
      obtain ⟨rfl, rfl, hthr, havail, hdel⟩ := executeTransactionIfApproved_sent h
      obtain ⟨⟨-, hnd, hsub⟩, -⟩ := hi.pending _ _ htx
      obtain ⟨-, hnd', hsub'⟩ := approvals_append hnd hsub hs hnew
      exact ⟨.inl ⟨t₀, htx, rfl, rfl, rfl, rfl⟩, hthr, hnd', hsub', havail, hdel⟩
  | universalReceiverHook =>
    simp only [Call.apply, Except.pure_eq_ok, Prod.mk.injEq] at h
    cases h.2
  -- the other methods never send
  | _ => cases (Inv.ok_of_map_none h).2

end Sent

end BuiltinActors.Multisig
