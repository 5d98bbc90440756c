import Mathlib.Data.List.Forall2
import BuiltinActors.Lib.Except
import BuiltinActors.Market.State

/-! # Publishing storage deals

`publish_storage_deals` in two parts. The first checks each proposal on its
own (its client's signature and the policy's bounds), before the state is
read, because authenticating a proposal may call back into the market; it
then reads the state once and keeps the proposals whose client and provider
escrow covers the lock-up of every proposal kept so far, asking the datacap
actor for the allocations of the verified ones. The second is the state
transaction: it locks the funds of each kept proposal and stores it under a
new deal ID.

The other actors' answers come from the environment. Nothing the market
calls between its read of the state and the transaction writes the
market's state, so the transaction runs on the state the checks read. -/

namespace BuiltinActors.Market

variable {α : Type}

/-- What publishing reads of the rest of the system: the runtime's address
resolution and actor types, and the answers of the actors the market calls. -/
structure PublishEnv (α : Type) where
  currEpoch : Int
  caller : α
  resolveAddress : α → Option Nat
  newId : Nat → α
  getActorCodeCid : Nat → Option Cid
  resolveBuiltinActorType : Cid → Option ActorType
  isControllingAddress : Nat → α → Except ActorError Bool
  currentBaselinePower : Except ActorError Int
  currentNetworkPower : Except ActorError (Int × Int)
  totalFilCircSupply : Int
  authenticateMessage : ClientDealProposal α → Except ActorError Bool
  serializedDealCid : DealProposal Address → Cid
  balanceOf : Nat → Except ActorError Int
  transferFrom : Nat → List AllocationRequest → Except ActorError (List Nat)
  notifyDeal : DealProposal Address → Nat → Except ActorError Unit

/-! ## Checks of a single proposal -/

def dealProposalIsInternallyValid (env : PublishEnv α) (proposal : ClientDealProposal α) :
    Except ActorError Unit :=
  match env.authenticateMessage proposal with
  | .error e => .error (e.context "proposal authentication failed")
  | .ok false => .error (.illegalArgument "proposal authentication failed")
  | .ok true => .ok ()

def validateDeal (env : PublishEnv α) (policy : Policy) (deal : ClientDealProposal α)
    (networkRawPower baselinePower : Int) : Except ActorError Unit := do
  dealProposalIsInternallyValid env deal
  let proposal := deal.proposal
  if proposal.label.len > dealMaxLabelSize then
    throw (.illegalArgument
      s!"deal label can be at most {dealMaxLabelSize} bytes, is {proposal.label.len}")
  match validatePaddedPieceSize proposal.pieceSize with
  | .error e => throw (.illegalArgument s!"proposal piece size is invalid: {e}")
  | .ok () => pure ()
  if !isPieceCid proposal.pieceCid then
    throw (.illegalArgument "proposal PieceCID undefined")
  if proposal.endEpoch ≤ proposal.startEpoch then
    throw (.illegalArgument "proposal end before proposal start")
  if env.currEpoch > proposal.startEpoch then
    throw (.illegalArgument "Deal start epoch has already elapsed.")
  let (minDur, maxDur) := dealDurationBounds proposal.pieceSize
  if proposal.duration < minDur || proposal.duration > maxDur then
    throw (.illegalArgument "Deal duration out of bounds.")
  let (minPrice, maxPrice) := dealPricePerEpochBounds proposal.pieceSize proposal.duration
  if proposal.storagePricePerEpoch < minPrice || proposal.storagePricePerEpoch > maxPrice then
    throw (.illegalArgument "Storage price out of bounds.")
  let (minProviderCollateral, maxProviderCollateral) := dealProviderCollateralBounds policy
    proposal.pieceSize networkRawPower baselinePower env.totalFilCircSupply
  if proposal.providerCollateral < minProviderCollateral ||
      proposal.providerCollateral > maxProviderCollateral then
    throw (.illegalArgument "Provider collateral out of bounds.")
  let (minClientCollateral, maxClientCollateral) :=
    dealClientCollateralBounds proposal.pieceSize proposal.duration
  if proposal.clientCollateral < minClientCollateral ||
      proposal.clientCollateral > maxClientCollateral then
    throw (.illegalArgument "Client collateral out of bounds.")

/-! ## The filter over the batch -/

structure ValidDeal where
  proposal : DealProposal Address
  cid : Cid

/-- The locals of the filter loop. The bitfield of valid input indices is
kept as its indices in increasing order. -/
structure PublishFilter where
  validDeals : List ValidDeal
  proposalCidLookup : Finset Cid
  totalClientLockup : OrdMap Nat Int
  clientDatacapRemaining : OrdMap Nat Int
  clientAllocReqs : OrdMap Nat (List (Cid × AllocationRequest))
  totalProviderLockup : Int
  validInputBf : List Nat

def PublishFilter.empty : PublishFilter :=
  ⟨[], ∅, .empty, .empty, .empty, 0, []⟩

/-- The filter's locals once the deal `di` is kept. -/
def PublishFilter.accept (acc : PublishFilter) (clientId : Nat) (clientLockup providerLockup : Int)
    (proposal : DealProposal Address) (pcid : Cid) (di : Nat) : PublishFilter :=
  { acc with
    totalProviderLockup := providerLockup
    totalClientLockup := acc.totalClientLockup.set clientId clientLockup
    proposalCidLookup := insert pcid acc.proposalCidLookup
    validDeals := acc.validDeals ++ [⟨proposal, pcid⟩]
    validInputBf := acc.validInputBf ++ [di] }

/-- The datacap check of a verified deal: the deal is dropped (`false`) when
its client's remaining datacap does not cover the piece. -/
def reserveDatacap (env : PublishEnv α) (policy : Policy) (acc : PublishFilter) (clientId : Nat)
    (proposal : DealProposal Address) (pcid : Cid) : Except ActorError (PublishFilter × Bool) := do
  let remainingDatacap ← match acc.clientDatacapRemaining.get? clientId with
    | none => (env.balanceOf clientId).mapError (ActorError.withContextCode .usrNotFound
        s!"failed to get datacap balance for client {clientId}")
    | some clientData => pure clientData
  -- `piece_size.0 as i64`
  let pieceDatacapRequired := fromWhole proposal.pieceSize.toInt64.toInt
  if remainingDatacap < pieceDatacapRequired then
    return ({ acc with
      clientDatacapRemaining := acc.clientDatacapRemaining.set clientId remainingDatacap }, false)
  return ({ acc with
    clientDatacapRemaining :=
      acc.clientDatacapRemaining.set clientId (remainingDatacap - pieceDatacapRequired)
    clientAllocReqs := acc.clientAllocReqs.set clientId
      ((acc.clientAllocReqs.get? clientId).getD [] ++
        [(pcid, allocRequestForDeal proposal policy env.currEpoch)]) }, true)

/-- One pass of the filter loop over the deal at index `di`. -/
def filterDeal (env : PublishEnv α) (policy : Policy) [DecidableEq α] (st : State)
    (providerRaw : α) (providerId : Nat) (validityIndex : List Bool) (acc : PublishFilter)
    (di : Nat) (deal : ClientDealProposal α) : Except ActorError PublishFilter := do
  let some valid := validityIndex[di]?
    | throw ⟨.usrAssertionFailed, "validity index has incorrect length"⟩
  if !valid then return acc
  if deal.proposal.provider ≠ env.newId providerId ∧ deal.proposal.provider ≠ providerRaw then
    return acc
  let some clientId := env.resolveAddress deal.proposal.client | return acc
  -- drop deals with insufficient lock up to cover costs
  let clientLockup :=
    (acc.totalClientLockup.get? clientId).getD 0 + deal.proposal.clientBalanceRequirement
  if !st.balanceCovered ⟨clientId⟩ clientLockup then return acc
  let providerLockup := acc.totalProviderLockup + deal.proposal.providerCollateral
  if !st.balanceCovered ⟨providerId⟩ providerLockup then return acc
  -- normalise both parties to ID addresses before taking the CID
  let proposal := deal.proposal.withParties (⟨clientId⟩ : Address) ⟨providerId⟩
  let pcid := env.serializedDealCid proposal
  if st.hasPendingDeal pcid || decide (pcid ∈ acc.proposalCidLookup) then return acc
  if proposal.verifiedDeal then
    let (acc', keep) ← reserveDatacap env policy acc clientId proposal pcid
    if !keep then return acc'
    return acc'.accept clientId clientLockup providerLockup proposal pcid di
  return acc.accept clientId clientLockup providerLockup proposal pcid di

/-- The filter loop, from the deal at index `di` on. -/
def filterDeals (env : PublishEnv α) (policy : Policy) [DecidableEq α] (st : State)
    (providerRaw : α) (providerId : Nat) (validityIndex : List Bool) :
    PublishFilter → Nat → List (ClientDealProposal α) → Except ActorError PublishFilter
  | acc, _, [] => pure acc
  | acc, di, deal :: rest => do
    let acc ← filterDeal env policy st providerRaw providerId validityIndex acc di deal
    filterDeals env policy st providerRaw providerId validityIndex acc (di + 1) rest

/-- One datacap transfer per client for the allocations of its verified
deals; the allocation IDs come back in the order of the requests. The map
from proposal CID to allocation ID is kept newest entry first. -/
def requestAllocations (env : PublishEnv α) :
    List (Nat × List (Cid × AllocationRequest)) → List (Cid × Nat) →
      Except ActorError (List (Cid × Nat))
  | [], dealAllocationIds => pure dealAllocationIds
  | (clientId, cidsAndReqs) :: rest, dealAllocationIds => do
    let reqs := cidsAndReqs.map (·.2)
    let allocIds ← (env.transferFrom clientId reqs).mapError (ActorError.withContextCode
      .usrIllegalState s!"failed to transfer datacap from client {clientId}")
    if allocIds.length ≠ cidsAndReqs.length then
      throw (.illegalState
        s!"datacap transfer returned {allocIds.length} allocation IDs for {cidsAndReqs.length} requests")
    requestAllocations env rest
      (((cidsAndReqs.map (·.1)).zip allocIds).foldl (fun m e => e :: m) dealAllocationIds)

/-- What the checks hand to the state transaction. -/
structure PublishPrepared where
  providerId : Nat
  validDeals : List ValidDeal
  validInputBf : List Nat
  dealAllocationIds : List (Cid × Nat)

/-- Everything `publish_storage_deals` does before its state transaction. -/
def publishPrepare [ToString α] [DecidableEq α] (env : PublishEnv α) (policy : Policy)
    (st : State) (deals : List (ClientDealProposal α)) : Except ActorError PublishPrepared := do
  let some first := deals.head? | throw (.illegalArgument "Empty deals parameter")
  -- all deals should have the same provider
  let providerRaw := first.proposal.provider
  let some providerId := env.resolveAddress providerRaw
    | throw (.notFound s!"failed to resolve provider address {providerRaw}")
  let some codeId := env.getActorCodeCid providerId
    | throw (.notFound s!"no code ID for address {providerId}")
  if env.resolveBuiltinActorType codeId ≠ some .miner then
    throw (.illegalArgument "deal provider is not a storage miner actor")
  let isControlling ← env.isControllingAddress providerId env.caller
  if !isControlling then
    throw (.forbidden
      s!"caller {env.caller} is not worker or control address of provider {providerId}")
  let baselinePower ← env.currentBaselinePower
  let (networkRawPower, _) ← env.currentNetworkPower
  -- checked before the state is read, since authentication may call back
  let validityIndex := deals.map fun deal =>
    (validateDeal env policy deal networkRawPower baselinePower).isOk
  let filter ← filterDeals env policy st providerRaw providerId validityIndex
    PublishFilter.empty 0 deals
  let dealAllocationIds ← requestAllocations env filter.clientAllocReqs.entries []
  let validDealCount := filter.validInputBf.length
  if validDealCount ≠ filter.validDeals.length then
    throw (.illegalState
      s!"{filter.validDeals.length} valid deals but valid_deal_count {validDealCount}")
  if validDealCount = 0 then
    throw (.illegalArgument "All deal proposals invalid")
  pure ⟨providerId, filter.validDeals, filter.validInputBf, dealAllocationIds⟩

/-! ## The state transaction -/

/-- The writes the transaction collects before it stores them. -/
structure PublishBatch where
  pendingDeals : List Cid
  dealProposals : List (Nat × DealProposal Address)
  dealsByEpoch : List (Int × Nat)
  pendingDealAllocationIds : List (Nat × Nat)
  newDealIds : List Nat

def PublishBatch.empty : PublishBatch := ⟨[], [], [], [], []⟩

/-- The batch's writes for one more deal. Its first update is put off to a
point in its ID's own interval, so that no epoch gets too many. -/
def PublishBatch.push (batch : PublishBatch) (policy : Policy)
    (dealAllocationIds : List (Cid × Nat)) (validDeal : ValidDeal) (dealId : Nat) : PublishBatch where
  pendingDeals := batch.pendingDeals ++ [validDeal.cid]
  dealProposals := batch.dealProposals ++ [(dealId, validDeal.proposal)]
  pendingDealAllocationIds := match dealAllocationIds.lookup validDeal.cid with
    | some allocId => batch.pendingDealAllocationIds ++ [(dealId, allocId)]
    | none => batch.pendingDealAllocationIds
  dealsByEpoch := batch.dealsByEpoch ++
    [(nextUpdateEpoch dealId policy.dealUpdatesInterval validDeal.proposal.startEpoch, dealId)]
  newDealIds := batch.newDealIds ++ [dealId]

/-- Locks the funds of each valid deal and gives it the next deal ID. -/
def lockDeals (policy : Policy) (dealAllocationIds : List (Cid × Nat)) :
    PublishBatch → List ValidDeal → EStateM ActorError State PublishBatch
  | batch, [] => pure batch
  | batch, validDeal :: rest => do
    State.lockClientAndProviderBalances validDeal.proposal
    let dealId ← State.generateStorageDealId
    lockDeals policy dealAllocationIds (batch.push policy dealAllocationIds validDeal dealId) rest

def publishDeals (policy : Policy) (validDeals : List ValidDeal)
    (dealAllocationIds : List (Cid × Nat)) : EStateM ActorError State (List Nat) := do
  let batch ← lockDeals policy dealAllocationIds PublishBatch.empty validDeals
  State.putPendingDeals batch.pendingDeals
  State.putDealProposals batch.dealProposals
  State.putPendingDealAllocationIds batch.pendingDealAllocationIds
  State.putDealsByEpoch batch.dealsByEpoch
  pure batch.newDealIds

/-- Each client is told of its deal; any failure fails the whole method. -/
def notifyDeals (env : PublishEnv α) : List ValidDeal → List Nat → Except ActorError Unit
  | validDeal :: rest, dealId :: ids => do
    (env.notifyDeal validDeal.proposal dealId).mapError (ActorError.withContextCode
      .usrIllegalArgument s!"failed to notify deal with proposal cid {validDeal.cid}")
    notifyDeals env rest ids
  | _, _ => pure ()

structure PublishStorageDealsReturn where
  ids : List Nat
  validDeals : List Nat

def publishStorageDeals [ToString α] [DecidableEq α] (env : PublishEnv α) (policy : Policy)
    (st : State) (deals : List (ClientDealProposal α)) :
    Except ActorError (PublishStorageDealsReturn × State) := do
  let prepared ← publishPrepare env policy st deals
  let (newDealIds, st) ← transaction
    (publishDeals policy prepared.validDeals prepared.dealAllocationIds) st
  notifyDeals env prepared.validDeals newDealIds
  pure (⟨newDealIds, prepared.validInputBf⟩, st)

/-! ## What each part does -/

theorem dealProposalIsInternallyValid_ok {env : PublishEnv α} {deal : ClientDealProposal α}
    {u : Unit} (h : dealProposalIsInternallyValid env deal = .ok u) :
    env.authenticateMessage deal = .ok true := by
  unfold dealProposalIsInternallyValid at h
  split at h <;> simp_all

theorem validateDeal_ok {env : PublishEnv α} {policy : Policy} {deal : ClientDealProposal α}
    {networkRawPower baselinePower : Int} {u : Unit}
    (h : validateDeal env policy deal networkRawPower baselinePower = .ok u) :
    env.authenticateMessage deal = .ok true ∧ 128 ≤ deal.proposal.pieceSize.toNat ∧
      env.currEpoch ≤ deal.proposal.startEpoch ∧ deal.proposal.startEpoch < deal.proposal.endEpoch ∧
      deal.proposal.duration ≤ 1278 * epochsInDay ∧ 0 ≤ deal.proposal.storagePricePerEpoch ∧
      (dealProviderCollateralBounds policy deal.proposal.pieceSize networkRawPower baselinePower
        env.totalFilCircSupply).1 ≤ deal.proposal.providerCollateral ∧
      0 ≤ deal.proposal.clientCollateral := by
  unfold validateDeal at h
  simp only [Except.bind_eq_ok, Except.throw_bind, Except.ite_throw_eq_ok, Bool.or_eq_true,
    decide_eq_true_eq, Bool.not_eq_true'] at h
  obtain ⟨_, hauth, -, h⟩ := h
  cases hsize : validatePaddedPieceSize deal.proposal.pieceSize with
  | error e => simp [hsize] at h
  | ok v =>
    simp only [hsize, Except.ite_throw_eq_ok, not_or, not_lt] at h
    obtain ⟨-, hend, hstart, ⟨-, hdur⟩, ⟨hprice, -⟩, ⟨hprov, -⟩, ⟨hclient, -⟩, -⟩ := h
    simp only [dealDurationBounds, dealPricePerEpochBounds, dealClientCollateralBounds] at hdur hprice hclient
    exact ⟨dealProposalIsInternallyValid_ok hauth, validatePaddedPieceSize_ok hsize, hstart,
      not_le.mp hend, hdur, hprice, hprov, hclient⟩

theorem reserveDatacap_ok {env : PublishEnv α} {policy : Policy} {acc acc' : PublishFilter}
    {clientId : Nat} {proposal : DealProposal Address} {pcid : Cid} {keep : Bool}
    (h : reserveDatacap env policy acc clientId proposal pcid = .ok (acc', keep)) :
    ∃ r q, acc' = { acc with clientDatacapRemaining := r, clientAllocReqs := q } := by
  unfold reserveDatacap at h
  -- the remaining datacap comes from the loop's map or from the datacap actor
  split at h <;>
  · obtain ⟨remaining, -, h⟩ := Except.bind_eq_ok.mp h
    dsimp only at h
    split_ifs at h <;>
    · obtain ⟨rfl, -⟩ := Prod.mk.inj (Except.ok.inj h)
      exact ⟨_, _, rfl⟩

section
variable [DecidableEq α] {env : PublishEnv α} {policy : Policy} {st : State} {providerRaw : α}
  {providerId : Nat} {validityIndex : List Bool} {acc acc' : PublishFilter} {di : Nat}
  {deal : ClientDealProposal α}

theorem filterDeal_cases
    (h : filterDeal env policy st providerRaw providerId validityIndex acc di deal = .ok acc') :
    (∃ r q, acc' = { acc with clientDatacapRemaining := r, clientAllocReqs := q }) ∨
    ∃ clientId r q, validityIndex[di]? = some true ∧
      env.resolveAddress deal.proposal.client = some clientId ∧
      st.balanceCovered ⟨clientId⟩
        ((acc.totalClientLockup.get? clientId).getD 0 + deal.proposal.clientBalanceRequirement) ∧
      st.balanceCovered ⟨providerId⟩ (acc.totalProviderLockup + deal.proposal.providerCollateral) ∧
      env.serializedDealCid (deal.proposal.withParties ⟨clientId⟩ ⟨providerId⟩) ∉
        acc.proposalCidLookup ∧
      acc' = PublishFilter.accept { acc with clientDatacapRemaining := r, clientAllocReqs := q }
        clientId ((acc.totalClientLockup.get? clientId).getD 0 + deal.proposal.clientBalanceRequirement)
        (acc.totalProviderLockup + deal.proposal.providerCollateral)
        (deal.proposal.withParties ⟨clientId⟩ ⟨providerId⟩)
        (env.serializedDealCid (deal.proposal.withParties ⟨clientId⟩ ⟨providerId⟩)) di := by
  -- every early `return acc` drops the deal and changes nothing
  have dropped : acc = acc' →
      ∃ r q, acc' = { acc with clientDatacapRemaining := r, clientAllocReqs := q } :=
    fun h => ⟨_, _, h.symm⟩
  unfold filterDeal at h
  split at h
  case h_2 => simp at h
  rename_i valid hvalid
  split_ifs at h with hv hprov
  · exact .inl (dropped (Except.ok.inj h))
  · exact .inl (dropped (Except.ok.inj h))
  split at h
  case h_2 => exact .inl (dropped (Except.ok.inj h))
  rename_i clientId hclient
  dsimp only at h
  -- the two escrow checks and the duplicate check
  split at h
  · exact .inl (dropped (Except.ok.inj h))
  split at h
  · exact .inl (dropped (Except.ok.inj h))
  split at h
  · exact .inl (dropped (Except.ok.inj h))
  rename_i hcl hpr hdup
  -- the deal passed every check but the datacap one
  have hacc : (∃ r q, acc' = { acc with clientDatacapRemaining := r, clientAllocReqs := q }) ∨
      ∃ r q, acc' = PublishFilter.accept
        { acc with clientDatacapRemaining := r, clientAllocReqs := q } clientId
        ((acc.totalClientLockup.get? clientId).getD 0 + deal.proposal.clientBalanceRequirement)
        (acc.totalProviderLockup + deal.proposal.providerCollateral)
        (deal.proposal.withParties ⟨clientId⟩ ⟨providerId⟩)
        (env.serializedDealCid (deal.proposal.withParties ⟨clientId⟩ ⟨providerId⟩)) di := by
    split at h
    · obtain ⟨⟨acc₁, keep⟩, hres, h⟩ := Except.bind_eq_ok.mp h
      obtain ⟨r, q, rfl⟩ := reserveDatacap_ok hres
      dsimp only at h
      split_ifs at h
      · exact .inl ⟨r, q, (Except.ok.inj h).symm⟩
      · exact .inr ⟨r, q, (Except.ok.inj h).symm⟩
    · exact .inr ⟨_, _, (Except.ok.inj h).symm⟩
  rcases hacc with hdrop | ⟨r, q, hacc⟩
  · exact .inl hdrop
  · simp only [Bool.not_eq_true', Bool.not_eq_false, Bool.or_eq_true, decide_eq_true_eq,
      not_or] at hv hcl hpr hdup
    exact .inr ⟨clientId, r, q, hv ▸ hvalid, hclient, hcl, hpr, hdup.2, hacc⟩

end

/-- What the valid deals lock for `a` as their client. -/
def clientLockupOf (validDeals : List ValidDeal) (a : Address) : Int :=
  (validDeals.map fun vd =>
    if a = vd.proposal.client then vd.proposal.clientBalanceRequirement else 0).sum

/-- What the valid deals lock for `a` as their provider. -/
def providerLockupOf (validDeals : List ValidDeal) (a : Address) : Int :=
  (validDeals.map fun vd =>
    if a = vd.proposal.provider then vd.proposal.providerCollateral else 0).sum

@[simp] theorem clientLockupOf_nil (a : Address) : clientLockupOf [] a = 0 := rfl
@[simp] theorem providerLockupOf_nil (a : Address) : providerLockupOf [] a = 0 := rfl

@[simp] theorem clientLockupOf_cons (vd : ValidDeal) (rest : List ValidDeal) (a : Address) :
    clientLockupOf (vd :: rest) a =
      (if a = vd.proposal.client then vd.proposal.clientBalanceRequirement else 0) +
        clientLockupOf rest a := by
  simp [clientLockupOf]

@[simp] theorem providerLockupOf_cons (vd : ValidDeal) (rest : List ValidDeal) (a : Address) :
    providerLockupOf (vd :: rest) a =
      (if a = vd.proposal.provider then vd.proposal.providerCollateral else 0) +
        providerLockupOf rest a := by
  simp [providerLockupOf]

@[simp] theorem clientLockupOf_append (vds vds' : List ValidDeal) (a : Address) :
    clientLockupOf (vds ++ vds') a = clientLockupOf vds a + clientLockupOf vds' a := by
  simp [clientLockupOf]

@[simp] theorem providerLockupOf_append (vds vds' : List ValidDeal) (a : Address) :
    providerLockupOf (vds ++ vds') a = providerLockupOf vds a + providerLockupOf vds' a := by
  simp [providerLockupOf]

theorem clientLockupOf_nonneg {vds : List ValidDeal}
    (h : ∀ vd ∈ vds, 0 ≤ vd.proposal.clientBalanceRequirement) (a : Address) :
    0 ≤ clientLockupOf vds a := by
  apply List.sum_nonneg
  simp only [List.mem_map]
  rintro _ ⟨vd, hvd, rfl⟩
  split_ifs
  · exact h vd hvd
  · exact le_refl 0

theorem providerLockupOf_nonneg {vds : List ValidDeal}
    (h : ∀ vd ∈ vds, 0 ≤ vd.proposal.providerCollateral) (a : Address) :
    0 ≤ providerLockupOf vds a := by
  apply List.sum_nonneg
  simp only [List.mem_map]
  rintro _ ⟨vd, hvd, rfl⟩
  split_ifs
  · exact h vd hvd
  · exact le_refl 0

/-- The state after locking `validDeals`: its locked balances, the next deal
ID moved past their IDs, and the totals grown by their amounts. -/
def State.lockedFor (st : State) (lockedTable : OrdMap Address Int) (validDeals : List ValidDeal) :
    State :=
  { st with
    lockedTable
    nextId := st.nextId + validDeals.length
    totalClientLockedCollateral := st.totalClientLockedCollateral +
      (validDeals.map (·.proposal.clientCollateral)).sum
    totalClientStorageFee := st.totalClientStorageFee +
      (validDeals.map (·.proposal.totalStorageFee)).sum
    totalProviderLockedCollateral := st.totalProviderLockedCollateral +
      (validDeals.map (·.proposal.providerCollateral)).sum }

/-- Locking a batch whose parties differ, with non-negative amounts that
every party's escrow covers together, succeeds: each deal gets the next ID,
and every address has its share of the batch locked. -/
theorem lockDeals_ok (policy : Policy) (dealAllocationIds : List (Cid × Nat)) :
    ∀ (validDeals : List ValidDeal) (batch : PublishBatch) (st : State),
      (∀ a, 0 ≤ BalanceTable.get st.lockedTable a) →
      (∀ vd ∈ validDeals, 0 ≤ vd.proposal.clientBalanceRequirement ∧
        0 ≤ vd.proposal.providerCollateral ∧ vd.proposal.client ≠ vd.proposal.provider) →
      (∀ a, BalanceTable.get st.lockedTable a + clientLockupOf validDeals a +
        providerLockupOf validDeals a ≤ BalanceTable.get st.escrowTable a) →
      ∃ batch' lockedTable,
        lockDeals policy dealAllocationIds batch validDeals st =
          .ok batch' (st.lockedFor lockedTable validDeals) ∧
        (∀ a, BalanceTable.get lockedTable a = BalanceTable.get st.lockedTable a +
          clientLockupOf validDeals a + providerLockupOf validDeals a) ∧
        lockedTable.sumBy (fun _ v => v) = st.lockedTable.sumBy (fun _ v => v) +
          (validDeals.map fun vd =>
            vd.proposal.clientBalanceRequirement + vd.proposal.providerCollateral).sum ∧
        batch'.newDealIds = batch.newDealIds ++ List.range' st.nextId validDeals.length ∧
        batch'.dealProposals = batch.dealProposals ++
          (List.range' st.nextId validDeals.length).zip (validDeals.map (·.proposal)) ∧
        batch'.pendingDeals = batch.pendingDeals ++ validDeals.map (·.cid)
  | [], batch, st, _, _, _ =>
    ⟨batch, st.lockedTable, by simp [lockDeals, State.lockedFor, pure, EStateM.pure], by simp,
      by simp, by simp, by simp, by simp⟩
  | vd :: rest, batch, st, hlocked, hdeals, hcovered => by
    obtain ⟨hreq, hcoll, hparties⟩ := hdeals vd (by simp)
    have hrest := fun vd' h => hdeals vd' (List.mem_cons_of_mem vd h)
    -- the head deal's own shares are covered: the rest of the batch locks
    -- nothing negative
    have hshare : ∀ a, BalanceTable.get st.lockedTable a +
        (if a = vd.proposal.client then vd.proposal.clientBalanceRequirement else 0) +
        (if a = vd.proposal.provider then vd.proposal.providerCollateral else 0) ≤
        BalanceTable.get st.escrowTable a := by
      intro a
      have hbatch := hcovered a
      have := clientLockupOf_nonneg (fun vd' h => (hrest vd' h).1) a
      have := providerLockupOf_nonneg (fun vd' h => (hrest vd' h).2.1) a
      simp only [clientLockupOf_cons, providerLockupOf_cons] at hbatch
      omega
    have hclient : st.balanceCovered vd.proposal.client vd.proposal.clientBalanceRequirement := by
      simpa [State.balanceCovered, hparties] using hshare vd.proposal.client
    have hprovider : st.balanceCovered vd.proposal.provider vd.proposal.providerCollateral := by
      simpa [State.balanceCovered, Ne.symm hparties] using hshare vd.proposal.provider
    obtain ⟨t₁, ht₁, hsum₁, hlock⟩ :=
      State.lockClientAndProviderBalances_ok hparties hlocked hreq hcoll hclient hprovider
    set st₁ : State := { st with
      lockedTable := t₁
      nextId := st.nextId + 1
      totalClientLockedCollateral := st.totalClientLockedCollateral + vd.proposal.clientCollateral
      totalClientStorageFee := st.totalClientStorageFee + vd.proposal.totalStorageFee
      totalProviderLockedCollateral :=
        st.totalProviderLockedCollateral + vd.proposal.providerCollateral } with hst₁
    have hlocked₁ : ∀ a, 0 ≤ BalanceTable.get st₁.lockedTable a := by
      intro a
      have := hlocked a
      simp only [hst₁, ht₁]
      split_ifs <;> omega
    have hcovered₁ : ∀ a, BalanceTable.get st₁.lockedTable a + clientLockupOf rest a +
        providerLockupOf rest a ≤ BalanceTable.get st₁.escrowTable a := by
      intro a
      have := hcovered a
      simp only [clientLockupOf_cons, providerLockupOf_cons] at this
      simp only [hst₁, ht₁]
      omega
    obtain ⟨batch', t', hrun, ht', hsum', hids, hprops, hpend⟩ :=
      lockDeals_ok policy dealAllocationIds rest (batch.push policy dealAllocationIds vd st.nextId)
        st₁ hlocked₁ hrest hcovered₁
    refine ⟨batch', t', ?_, fun a => ?_, ?_, ?_, ?_, ?_⟩
    · simp only [lockDeals, EStateM.bind_apply, hlock, State.generateStorageDealId_apply]
      rw [← hst₁, hrun]
      simp only [State.lockedFor, hst₁, List.map_cons, List.sum_cons, List.length_cons, add_assoc,
        Nat.add_comm 1 rest.length]
    · rw [ht', ht₁]
      simp only [clientLockupOf_cons, providerLockupOf_cons]
      omega
    · rw [hsum', hst₁, hsum₁]
      simp only [List.map_cons, List.sum_cons]
      abel
    · simp [hids, List.range'_succ, hst₁, PublishBatch.push]
    · simp [hprops, List.range'_succ, hst₁, PublishBatch.push]
    · simp [hpend, PublishBatch.push]

/-- The transaction stores what the locking collected. -/
theorem publishDeals_of_lockDeals {policy : Policy} {validDeals : List ValidDeal}
    {dealAllocationIds : List (Cid × Nat)} {st st₁ : State} {batch : PublishBatch}
    (h : lockDeals policy dealAllocationIds PublishBatch.empty validDeals st = .ok batch st₁) :
    publishDeals policy validDeals dealAllocationIds st = .ok batch.newDealIds { st₁ with
      pendingProposals := batch.pendingDeals.foldl (fun s key => insert key s) st₁.pendingProposals
      proposals := batch.dealProposals.foldl (fun m e => m.set e.1 e.2) st₁.proposals
      pendingDealAllocationIds := batch.pendingDealAllocationIds.foldl (fun m e => m.set e.1 e.2)
        st₁.pendingDealAllocationIds
      dealOpsByEpoch := batch.dealsByEpoch.foldl
        (fun m e => m.set e.1 (insert e.2 ((m.get? e.1).getD ∅))) st₁.dealOpsByEpoch } := by
  simp [publishDeals, h, State.putPendingDeals, State.putDealProposals,
    State.putPendingDealAllocationIds, State.putDealsByEpoch]

end BuiltinActors.Market
