import BuiltinActors.Lib.OrdMap
import BuiltinActors.Runtime

/-! # Multisig state

The multisig's state: its signers (ID addresses), the approval threshold,
the linear lock-up of its balance, and the pending transactions by id. The
pending-transaction HAMT is an ordered map: every method reads it through
lookups and writes, and `purge_approvals` handles each transaction on its
own, so the walk order does not show.

A proposed transaction's destination is kept as given, unresolved; its type
`α` is that of addresses in message parameters. Token amounts and epochs are
unbounded integers; an `i64` overflow aborts the message. -/

namespace BuiltinActors.Multisig

def signersMax : Nat := 256

/-- A proposed transaction and the signers that approved it, in order;
`toAddress` is the source's `to`. -/
structure Transaction (α : Type) where
  toAddress : α
  value : Int
  method : Nat
  params : List UInt8
  approved : List Address
deriving DecidableEq, Repr

structure State (α : Type) where
  signers : List Address
  numApprovalsThreshold : Nat
  nextTxId : Int
  initialBalance : Int
  startEpoch : Int
  unlockDuration : Int
  pendingTxs : OrdMap Int (Transaction α)

namespace State

variable {α : Type}

def isSigner (st : State α) (address : Address) : Bool := st.signers.contains address

def setLocked (st : State α) (startEpoch unlockDuration lockedAmount : Int) : State α :=
  { st with startEpoch, unlockDuration, initialBalance := lockedAmount }

/-- The balance still locked `elapsedEpoch` epochs after the start: the
initial balance, released linearly over the unlock duration and rounded up. -/
def amountLocked (st : State α) (elapsedEpoch : Int) : Int :=
  if elapsedEpoch ≥ st.unlockDuration then 0
  else if elapsedEpoch ≤ 0 then st.initialBalance
  else
    let remainingLockDuration := st.unlockDuration - elapsedEpoch
    let numerator := st.initialBalance * remainingLockDuration
    -- the ceiling of the quotient, as floor division of the negation
    Int.neg ((-numerator).fdiv st.unlockDuration)

/-- Removes `addr` from every approval list, and the transactions it leaves
with none. -/
def purgeApprovals (st : State α) (addr : Address) : State α :=
  -- the transactions that list `addr`, in walk order
  let txnIdsToPurge := st.pendingTxs.entries.filter fun e => e.2.approved.contains addr
  let txns := txnIdsToPurge.foldl (fun txns e =>
      let txn := { e.2 with approved := e.2.approved.filter (· != addr) }
      if !txn.approved.isEmpty then txns.set e.1 txn else txns.erase e.1)
    st.pendingTxs
  { st with pendingTxs := txns }

def checkAvailable (st : State α) (balance amountToSpend currEpoch : Int) :
    Except ActorError Unit := do
  if amountToSpend < 0 then
    throw (.illegalArgument s!"amount to spend {amountToSpend} less than zero")
  if balance < amountToSpend then
    throw (.insufficientFunds s!"current balance {balance} less than amount to spend {amountToSpend}")
  -- a transaction that sends no value is always permitted
  if amountToSpend = 0 then return
  let remainingBalance := balance - amountToSpend
  let amountLocked := st.amountLocked (currEpoch - st.startEpoch)
  if remainingBalance < amountLocked then
    throw (.insufficientFunds
      s!"actor balance {remainingBalance} if spent {amountToSpend} would be less than required locked amount {amountLocked}")

/-! ## Purging approvals -/

/-- One transaction without `addr`'s approval; `none` when no approval is
left. -/
def purgedTxn (addr : Address) (txn : Transaction α) : Option (Transaction α) :=
  let txn := { txn with approved := txn.approved.filter (· != addr) }
  if !txn.approved.isEmpty then some txn else none

/-- The fold step of `purgeApprovals` writes its own key only. -/
private theorem purgeStep_get? (addr : Address) (m : OrdMap Int (Transaction α))
    (e : Int × Transaction α) (k : Int) :
    (let txn := { e.2 with approved := e.2.approved.filter (· != addr) }
      if !txn.approved.isEmpty then m.set e.1 txn else m.erase e.1).get? k =
      if k = e.1 then purgedTxn addr e.2 else m.get? k := by
  simp only [purgedTxn]
  split_ifs <;> simp_all

/-- A lookup after purging: a transaction that lists `addr` is purged, any
other is left as it is. -/
theorem get?_purgeApprovals (st : State α) (addr : Address) (id : Int) :
    (st.purgeApprovals addr).pendingTxs.get? id =
      (st.pendingTxs.get? id).bind fun txn =>
        if txn.approved.contains addr then purgedTxn addr txn else some txn := by
  have hnd : ((st.pendingTxs.entries.filter fun e => e.2.approved.contains addr).map
      Prod.fst).Nodup :=
    (st.pendingTxs.keys_nodup).sublist ((List.filter_sublist).map _)
  have hfold : (st.purgeApprovals addr).pendingTxs.get? id =
      (OrdMap.lookup id (st.pendingTxs.entries.filter fun e => e.2.approved.contains addr)).elim
        (st.pendingTxs.get? id) (purgedTxn addr) :=
    @OrdMap.get?_foldl_local Int (Transaction α) _ (fun _ txn => purgedTxn addr txn) _
      (fun m e => by rw [purgeStep_get?, if_pos rfl])
      (fun m e k hk => by rw [purgeStep_get?, if_neg hk]) _ st.pendingTxs hnd id
  rw [hfold]
  cases hid : st.pendingTxs.get? id with
  | none =>
    -- an absent key is absent from every part of the entries
    have : OrdMap.lookup id (st.pendingTxs.entries.filter fun e => e.2.approved.contains addr) =
        none :=
      OrdMap.lookup_eq_none fun hm => by
        obtain ⟨⟨k, v⟩, hkv, rfl⟩ := List.mem_map.mp hm
        have := OrdMap.get?_eq_some_iff.mpr (List.mem_of_mem_filter hkv)
        simp_all
    rw [this]
    rfl
  | some txn =>
    have hmem := OrdMap.get?_eq_some_iff.mp hid
    by_cases ha : txn.approved.contains addr
    · have : OrdMap.lookup id (st.pendingTxs.entries.filter fun e => e.2.approved.contains addr) =
          some txn :=
        OrdMap.lookup_eq_some_of_mem (st.pendingTxs.sorted.filter _)
          (List.mem_filter.mpr ⟨hmem, ha⟩)
      rw [this]
      simp [List.contains_iff_mem.mp ha]
    · have : OrdMap.lookup id (st.pendingTxs.entries.filter fun e => e.2.approved.contains addr) =
          none :=
        OrdMap.lookup_eq_none fun hm => by
          obtain ⟨⟨k, v⟩, hkv, hk⟩ := List.mem_map.mp hm
          obtain ⟨hkv', hpv⟩ := List.mem_filter.mp hkv
          simp only at hk
          subst hk
          have hv := OrdMap.get?_eq_some_iff.mpr hkv'
          rw [hid] at hv
          cases hv
          exact ha hpv
      have ha' : addr ∉ txn.approved := fun h => ha (List.contains_iff_mem.mpr h)
      rw [this]
      simp [ha']

end State

end BuiltinActors.Multisig
