import Mathlib.Data.Finset.Insert
import BuiltinActors.Lib.OrdMap
import BuiltinActors.Lib.EStateM
import BuiltinActors.Market.Deal

/-! # Storage market state

The market's state: the deal proposals and their states by deal ID, the
set of pending proposal CIDs, the escrow and locked balance tables, the
schedule of deal updates by epoch, and the totals locked for deals.

A balance table reads zero for an address it has no entry for, never stores
a negative balance and drops an entry that falls to zero. The state methods
write the state in place (`EStateM`); the market runs them inside a
transaction, which drops every write of a method that fails. -/

namespace BuiltinActors.Market

/-! ## Balance tables -/

namespace BalanceTable

/-- The balance of `key`, zero when the table has no entry for it. -/
def get (t : OrdMap Address Int) (key : Address) : Int := (t.get? key).getD 0

/-- Adds to a balance; the balance may not fall below zero. -/
def add (t : OrdMap Address Int) (key : Address) (value : Int) :
    Except ActorError (OrdMap Address Int) :=
  let prev := get t key
  let sum := prev + value
  if sum < 0 then .error (.illegalArgument s!"negative balance for {key} adding {value} to {prev}")
  else if sum = 0 ∧ prev ≠ 0 then .ok (t.erase key)
  else .ok (t.set key sum)

variable {t t' : OrdMap Address Int} {key : Address} {value : Int}

@[simp] theorem get_set (v : Int) (a : Address) :
    get (t.set key v) a = if a = key then v else get t a := by
  unfold get
  split_ifs with h <;> simp [h]

@[simp] theorem get_erase (a : Address) : get (t.erase key) a = if a = key then 0 else get t a := by
  unfold get
  split_ifs with h <;> simp [h]

/-- What an addition does to every balance. -/
theorem get_of_add {a : Address} (h : add t key value = .ok t') :
    get t' a = get t a + if a = key then value else 0 := by
  unfold add at h
  dsimp only at h
  split_ifs at h with hneg hzero
  · cases h
    by_cases ha : a = key <;> simp [ha, hzero.1]
  · cases h
    by_cases ha : a = key <;> simp [ha]

theorem add_ok_iff : (∃ t', add t key value = .ok t') ↔ 0 ≤ get t key + value := by
  unfold add
  dsimp only
  split_ifs with hneg hzero
  · simp only [exists_false, false_iff]
    omega
  · simp only [Except.ok.injEq, exists_eq', true_iff]
    omega
  · simp only [Except.ok.injEq, exists_eq', true_iff]
    omega

/-- An addition keeps every balance of the table non-negative. -/
theorem nonneg_of_add (h : add t key value = .ok t') (ht : ∀ a, 0 ≤ get t a) (a : Address) :
    0 ≤ get t' a := by
  have hsum : 0 ≤ get t key + value := add_ok_iff.mp ⟨t', h⟩
  rw [get_of_add h]
  by_cases ha : a = key
  · subst ha; simpa using hsum
  · simpa [ha] using ht a

/-- The table's total moves by the amount added. -/
theorem sumBy_of_add (h : add t key value = .ok t') :
    t'.sumBy (fun _ v => v) = t.sumBy (fun _ v => v) + value := by
  unfold add at h
  dsimp only at h
  split_ifs at h with hneg hzero
  · cases h
    cases hk : t.get? key with
    | none => simp [get, hk] at hzero
    | some v₀ =>
      rw [OrdMap.sumBy_erase_of_get? hk]
      simp only [get, hk, Option.getD_some] at hzero
      omega
  · cases h
    cases hk : t.get? key with
    | none =>
      rw [OrdMap.sumBy_set_of_get?_none hk]
      simp [get, hk]
    | some v₀ =>
      rw [OrdMap.sumBy_set_of_get? hk]
      simp only [get, hk, Option.getD_some]
      abel

end BalanceTable

/-! ## The state -/

structure State where
  proposals : OrdMap Nat (DealProposal Address)
  states : OrdMap Nat DealState
  pendingProposals : Finset Cid
  escrowTable : OrdMap Address Int
  lockedTable : OrdMap Address Int
  nextId : Nat
  dealOpsByEpoch : OrdMap Int (Finset Nat)
  lastCron : Int
  totalClientLockedCollateral : Int
  totalProviderLockedCollateral : Int
  totalClientStorageFee : Int
  pendingDealAllocationIds : OrdMap Nat Nat
  providerSectors : OrdMap Nat (OrdMap Nat (List Nat))

namespace State

def epochUndefined : Int := -1

def new : State where
  proposals := .empty
  states := .empty
  pendingProposals := ∅
  escrowTable := .empty
  lockedTable := .empty
  nextId := 0
  dealOpsByEpoch := .empty
  lastCron := epochUndefined
  totalClientLockedCollateral := 0
  totalProviderLockedCollateral := 0
  totalClientStorageFee := 0
  pendingDealAllocationIds := .empty
  providerSectors := .empty

def getTotalLocked (st : State) : Int :=
  st.totalClientLockedCollateral + st.totalProviderLockedCollateral + st.totalClientStorageFee

def generateStorageDealId : EStateM ActorError State Nat := do
  let st ← get
  set { st with nextId := st.nextId + 1 }
  pure st.nextId

/-- Whether the escrow of `addr` covers what it has locked and `amountToLock`
more. -/
def balanceCovered (st : State) (addr : Address) (amountToLock : Int) : Bool :=
  BalanceTable.get st.lockedTable addr + amountToLock ≤ BalanceTable.get st.escrowTable addr

def maybeLockBalance (addr : Address) (amount : Int) : EStateM ActorError State Unit := do
  if amount < 0 then
    throw (.illegalState s!"cannot lock negative amount {amount}")
  let st ← get
  let prevLocked := BalanceTable.get st.lockedTable addr
  let escrowBalance := BalanceTable.get st.escrowTable addr
  if prevLocked + amount > escrowBalance then
    throw (.insufficientFunds
      (s!"not enough balance to lock for addr{addr}: " ++
        s!"escrow balance {escrowBalance} < prev locked {prevLocked} + amount {amount}"))
  match BalanceTable.add st.lockedTable addr amount with
  | .error e => throw e
  | .ok lockedTable => set { st with lockedTable }

def lockClientAndProviderBalances (proposal : DealProposal Address) :
    EStateM ActorError State Unit := do
  (maybeLockBalance proposal.client proposal.clientBalanceRequirement).adaptExcept
    (ActorError.context "locking client funds")
  (maybeLockBalance proposal.provider proposal.providerCollateral).adaptExcept
    (ActorError.context "locking provider funds")
  modify fun st => { st with
    totalClientLockedCollateral := st.totalClientLockedCollateral + proposal.clientCollateral
    totalClientStorageFee := st.totalClientStorageFee + proposal.totalStorageFee
    totalProviderLockedCollateral :=
      st.totalProviderLockedCollateral + proposal.providerCollateral }

def hasPendingDeal (st : State) (key : Cid) : Bool := decide (key ∈ st.pendingProposals)

def putPendingDeals (newPendingDeals : List Cid) : EStateM ActorError State Unit :=
  modify fun st => { st with
    pendingProposals := newPendingDeals.foldl (fun s key => insert key s) st.pendingProposals }

def putDealProposals (newDealProposals : List (Nat × DealProposal Address)) :
    EStateM ActorError State Unit :=
  modify fun st => { st with
    proposals := newDealProposals.foldl (fun m e => m.set e.1 e.2) st.proposals }

def putPendingDealAllocationIds (newPendingDealAllocationIds : List (Nat × Nat)) :
    EStateM ActorError State Unit :=
  modify fun st => { st with
    pendingDealAllocationIds :=
      newPendingDealAllocationIds.foldl (fun m e => m.set e.1 e.2) st.pendingDealAllocationIds }

/-- Adds each deal to the set of deals due at its epoch. -/
def putDealsByEpoch (newDealsByEpoch : List (Int × Nat)) : EStateM ActorError State Unit :=
  modify fun st => { st with
    dealOpsByEpoch := newDealsByEpoch.foldl
      (fun m e => m.set e.1 (insert e.2 ((m.get? e.1).getD ∅))) st.dealOpsByEpoch }

/-! ## Locking -/

variable {st st' : State} {addr : Address} {amount : Int}

@[simp] theorem generateStorageDealId_apply (st : State) :
    generateStorageDealId st = .ok st.nextId { st with nextId := st.nextId + 1 } := rfl

/-- A lock succeeds exactly when the amount is not negative and the escrow
covers it on top of what is locked, and it adds the amount to the locked
balance of `addr` and changes nothing else. -/
theorem maybeLockBalance_ok (hlocked : 0 ≤ BalanceTable.get st.lockedTable addr)
    (hamount : 0 ≤ amount) (hcovered : st.balanceCovered addr amount) :
    ∃ lockedTable, BalanceTable.add st.lockedTable addr amount = .ok lockedTable ∧
      maybeLockBalance addr amount st = .ok () { st with lockedTable } := by
  obtain ⟨t', ht'⟩ := (@BalanceTable.add_ok_iff st.lockedTable addr amount).mpr (by omega)
  have hle : ¬ (BalanceTable.get st.lockedTable addr + amount > BalanceTable.get st.escrowTable addr) := by
    simpa [balanceCovered] using hcovered
  refine ⟨t', ht', ?_⟩
  simp [maybeLockBalance, Int.not_lt.mpr hamount, hle, ht']

theorem maybeLockBalance_eq_ok (h : maybeLockBalance addr amount st = .ok () st') :
    ∃ lockedTable, BalanceTable.add st.lockedTable addr amount = .ok lockedTable ∧
      st' = { st with lockedTable } := by
  unfold maybeLockBalance at h
  simp only [EStateM.bind_apply, EStateM.ite_apply, EStateM.throw_apply, EStateM.get_apply] at h
  split_ifs at h
  cases hadd : BalanceTable.add st.lockedTable addr amount with
  | error e => simp [hadd] at h
  | ok t' =>
    simp only [hadd, EStateM.set_apply] at h
    cases h
    exact ⟨t', rfl, rfl⟩

/-- Locking a deal adds its client's requirement to the client's locked
balance and its collateral to the provider's, and the deal's amounts to the
totals. -/
theorem lockClientAndProviderBalances_eq_ok {proposal : DealProposal Address}
    (h : lockClientAndProviderBalances proposal st = .ok () st') :
    ∃ t₁ t₂, BalanceTable.add st.lockedTable proposal.client proposal.clientBalanceRequirement =
        .ok t₁ ∧ BalanceTable.add t₁ proposal.provider proposal.providerCollateral = .ok t₂ ∧
      st' = { st with
        lockedTable := t₂
        totalClientLockedCollateral := st.totalClientLockedCollateral + proposal.clientCollateral
        totalClientStorageFee := st.totalClientStorageFee + proposal.totalStorageFee
        totalProviderLockedCollateral :=
          st.totalProviderLockedCollateral + proposal.providerCollateral } := by
  unfold lockClientAndProviderBalances at h
  simp only [EStateM.bind_apply, EStateM.adaptExcept_apply, EStateM.modify_apply] at h
  cases h₁ : maybeLockBalance proposal.client proposal.clientBalanceRequirement st with
  | error e s => simp [h₁] at h
  | ok u s₁ =>
    obtain ⟨t₁, ht₁, rfl⟩ := maybeLockBalance_eq_ok h₁
    simp only [h₁] at h
    cases h₂ : maybeLockBalance proposal.provider proposal.providerCollateral
        { st with lockedTable := t₁ } with
    | error e s => simp [h₂] at h
    | ok u s₂ =>
      obtain ⟨t₂, ht₂, rfl⟩ := maybeLockBalance_eq_ok h₂
      simp only [h₂] at h
      cases h
      exact ⟨t₁, t₂, ht₁, ht₂, rfl⟩

/-- A deal between two different parties is locked when each party's escrow
covers its own share on top of what it has locked; the locked total grows by
both shares. -/
theorem lockClientAndProviderBalances_ok {proposal : DealProposal Address}
    (hparties : proposal.client ≠ proposal.provider)
    (hlocked : ∀ a, 0 ≤ BalanceTable.get st.lockedTable a)
    (hreq : 0 ≤ proposal.clientBalanceRequirement) (hcoll : 0 ≤ proposal.providerCollateral)
    (hclient : st.balanceCovered proposal.client proposal.clientBalanceRequirement)
    (hprovider : st.balanceCovered proposal.provider proposal.providerCollateral) :
    ∃ lockedTable, (∀ a, BalanceTable.get lockedTable a = BalanceTable.get st.lockedTable a +
        (if a = proposal.client then proposal.clientBalanceRequirement else 0) +
        (if a = proposal.provider then proposal.providerCollateral else 0)) ∧
      lockedTable.sumBy (fun _ v => v) = st.lockedTable.sumBy (fun _ v => v) +
        proposal.clientBalanceRequirement + proposal.providerCollateral ∧
      lockClientAndProviderBalances proposal st = .ok () { st with
        lockedTable
        totalClientLockedCollateral := st.totalClientLockedCollateral + proposal.clientCollateral
        totalClientStorageFee := st.totalClientStorageFee + proposal.totalStorageFee
        totalProviderLockedCollateral :=
          st.totalProviderLockedCollateral + proposal.providerCollateral } := by
  obtain ⟨t₁, ht₁, h₁⟩ := maybeLockBalance_ok (hlocked _) hreq hclient
  -- the client's lock leaves the provider's balance as it was
  have hprov₁ : BalanceTable.get t₁ proposal.provider =
      BalanceTable.get st.lockedTable proposal.provider := by
    simp [BalanceTable.get_of_add ht₁, hparties.symm]
  obtain ⟨t₂, ht₂, h₂⟩ := @maybeLockBalance_ok { st with lockedTable := t₁ } proposal.provider
    proposal.providerCollateral (hprov₁ ▸ hlocked _) hcoll
    (by simpa [balanceCovered, hprov₁] using hprovider)
  refine ⟨t₂, fun a => ?_, ?_, ?_⟩
  · rw [BalanceTable.get_of_add ht₂, BalanceTable.get_of_add ht₁]
  · rw [BalanceTable.sumBy_of_add ht₂, BalanceTable.sumBy_of_add ht₁]
  · simp [lockClientAndProviderBalances, h₁, h₂]

end State

end BuiltinActors.Market
