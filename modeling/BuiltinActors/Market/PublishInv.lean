import BuiltinActors.Market.Publish

/-! # What publishing checks is what it locks

The filter loop checks each kept proposal's client lock-up, summed per
client over the deals kept so far, and the provider's lock-up, summed over
all of them, each against the same escrow entries the transaction then locks
one deal at a time. The two agree as long as no address is both a client and
the provider of the batch. That is what authentication gives: the provider is
a storage miner, a miner accepts no `AuthenticateMessage`, so no kept
proposal's client is the provider.

`FilterInv` is what the filter keeps of its locals over the loop; the main
theorem assembles it with `lockDeals_ok`. -/

namespace BuiltinActors.Market

variable {α : Type}

/-- The escrow and locked tables as the market keeps them: no balance is
negative, no address has more locked than it has in escrow, and the locked
table holds exactly the totals locked for deals. -/
structure EscrowLockInv (st : State) : Prop where
  escrow_nonneg : ∀ a, 0 ≤ BalanceTable.get st.escrowTable a
  locked_nonneg : ∀ a, 0 ≤ BalanceTable.get st.lockedTable a
  locked_le_escrow : ∀ a, BalanceTable.get st.lockedTable a ≤ BalanceTable.get st.escrowTable a
  locked_total : st.lockedTable.sumBy (fun _ v => v) = st.getTotalLocked

/-- The storage miner actor exports no `AuthenticateMessage` method, so the
runtime fails every authentication sent to a miner. -/
def MinersRejectAuthentication (env : PublishEnv α) : Prop :=
  ∀ deal id codeId, env.resolveAddress deal.proposal.client = some id →
    env.getActorCodeCid id = some codeId → env.resolveBuiltinActorType codeId = some .miner →
    env.authenticateMessage deal ≠ .ok true

/-! ## The filter loop -/

section Filter

variable (env : PublishEnv α) (policy : Policy) (st : State) (deals : List (ClientDealProposal α))
  (providerId : Nat) (networkRawPower baselinePower : Int)

/-- The valid deal `vd` is the deal at input index `di`: a deal that passed
its own checks, normalised to the ID addresses of its parties. -/
def KeptAt (di : Nat) (vd : ValidDeal) : Prop :=
  ∃ deal clientId, deals[di]? = some deal ∧
    validateDeal env policy deal networkRawPower baselinePower = .ok () ∧
    env.resolveAddress deal.proposal.client = some clientId ∧
    vd.proposal = deal.proposal.withParties ⟨clientId⟩ ⟨providerId⟩ ∧
    vd.cid = env.serializedDealCid vd.proposal

/-- What the filter keeps of its locals: the kept deals with their input
indices, the running lock-ups as sums over the kept deals, and each running
lock-up covered by the escrow of the state it read. -/
structure FilterInv (acc : PublishFilter) : Prop where
  kept : List.Forall₂ (KeptAt env policy deals providerId networkRawPower baselinePower)
    acc.validInputBf acc.validDeals
  totalClientLockup : ∀ c, (acc.totalClientLockup.get? c).getD 0 = clientLockupOf acc.validDeals ⟨c⟩
  totalProviderLockup : acc.totalProviderLockup = providerLockupOf acc.validDeals ⟨providerId⟩
  clientCovered : ∀ a, st.balanceCovered a (clientLockupOf acc.validDeals a)
  providerCovered : st.balanceCovered ⟨providerId⟩ acc.totalProviderLockup

variable {env policy st deals providerId networkRawPower baselinePower}

theorem FilterInv.empty (hinv : EscrowLockInv st) :
    FilterInv env policy st deals providerId networkRawPower baselinePower PublishFilter.empty where
  kept := .nil
  totalClientLockup := by simp [PublishFilter.empty]
  totalProviderLockup := rfl
  clientCovered a := by simpa [PublishFilter.empty, State.balanceCovered] using hinv.locked_le_escrow a
  providerCovered := by
    simpa [PublishFilter.empty, State.balanceCovered] using hinv.locked_le_escrow _

/-- The datacap bookkeeping is no part of the invariant. -/
theorem FilterInv.withDatacap {acc : PublishFilter}
    (hinv : FilterInv env policy st deals providerId networkRawPower baselinePower acc)
    (r : OrdMap Nat Int) (q : OrdMap Nat (List (Cid × AllocationRequest))) :
    FilterInv env policy st deals providerId networkRawPower baselinePower
      { acc with clientDatacapRemaining := r, clientAllocReqs := q } :=
  ⟨hinv.kept, hinv.totalClientLockup, hinv.totalProviderLockup, hinv.clientCovered,
    hinv.providerCovered⟩

variable [DecidableEq α] {providerRaw : α}

/-- One pass of the filter keeps the invariant: a dropped deal changes none
of what it reads, and a kept deal passed both escrow checks against the sums
that now include it. -/
theorem FilterInv.filterDeal {acc acc' : PublishFilter} {di : Nat} {deal : ClientDealProposal α}
    (hinv : FilterInv env policy st deals providerId networkRawPower baselinePower acc)
    (hdeal : deals[di]? = some deal)
    (h : Market.filterDeal env policy st providerRaw providerId
      (deals.map fun deal => (validateDeal env policy deal networkRawPower baselinePower).isOk)
      acc di deal = .ok acc') :
    FilterInv env policy st deals providerId networkRawPower baselinePower acc' := by
  rcases filterDeal_cases h with ⟨r, q, rfl⟩ | ⟨clientId, r, q, hvalid, hclient, hcl, hpr, -, rfl⟩
  · exact hinv.withDatacap r q
  -- the deal was valid when checked on its own
  have hval : validateDeal env policy deal networkRawPower baselinePower = .ok () := by
    simp only [List.getElem?_map, hdeal, Option.map_some, Option.some.injEq] at hvalid
    obtain ⟨u, hu⟩ := Except.exists_eq_ok_of_toBool hvalid
    exact hu
  have hsum := hinv.totalClientLockup clientId
  refine ⟨List.rel_append hinv.kept (.cons ⟨deal, clientId, hdeal, hval, hclient, rfl, rfl⟩ .nil),
    fun c => ?_, ?_, fun a => ?_, hpr⟩
  · by_cases hc : c = clientId
    · subst hc
      simp [PublishFilter.accept, hsum]
    · have hne : (⟨c⟩ : Address) ≠ ⟨clientId⟩ := fun h => hc (congrArg Address.id h)
      simpa [PublishFilter.accept, hc, hne] using hinv.totalClientLockup c
  · simp [PublishFilter.accept, hinv.totalProviderLockup]
  · by_cases ha : a = ⟨clientId⟩
    · subst ha
      simpa [PublishFilter.accept, ← hsum] using hcl
    · simpa [PublishFilter.accept, ha] using hinv.clientCovered a

/-- The filter loop keeps the invariant, from the deal at index `di` on. -/
theorem FilterInv.filterDeals :
    ∀ (l : List (ClientDealProposal α)) (acc acc' : PublishFilter) (di : Nat),
      deals.drop di = l →
      FilterInv env policy st deals providerId networkRawPower baselinePower acc →
      Market.filterDeals env policy st providerRaw providerId
        (deals.map fun deal => (validateDeal env policy deal networkRawPower baselinePower).isOk)
        acc di l = .ok acc' →
      FilterInv env policy st deals providerId networkRawPower baselinePower acc'
  | [], acc, acc', _, _, hinv, h => by
    simp only [Market.filterDeals, Except.pure_eq_ok] at h
    exact h ▸ hinv
  | deal :: rest, acc, acc', di, hdrop, hinv, h => by
    obtain ⟨acc₁, h₁, h⟩ := Except.bind_eq_ok.mp h
    have hdeal : deals[di]? = some deal := by
      have := congrArg (·[0]?) hdrop
      simpa [List.getElem?_drop] using this
    have hdrop' : deals.drop (di + 1) = rest := by
      rw [← List.drop_drop, hdrop, List.drop_one, List.tail_cons]
    exact FilterInv.filterDeals rest acc₁ acc' (di + 1) hdrop' (hinv.filterDeal hdeal h₁) h

end Filter

/-! ## From the checks to the transaction -/

/-- Everything `publishPrepare` establishes about a batch it hands on. -/
theorem publishPrepare_ok [ToString α] [DecidableEq α] {env : PublishEnv α} {policy : Policy}
    {st : State} {deals : List (ClientDealProposal α)} {prepared : PublishPrepared}
    (h : publishPrepare env policy st deals = .ok prepared) :
    ∃ first codeId networkRawPower qaPower baselinePower filter, deals.head? = some first ∧
      env.resolveAddress first.proposal.provider = some prepared.providerId ∧
      env.getActorCodeCid prepared.providerId = some codeId ∧
      env.resolveBuiltinActorType codeId = some .miner ∧
      env.currentBaselinePower = .ok baselinePower ∧
      env.currentNetworkPower = .ok (networkRawPower, qaPower) ∧
      filterDeals env policy st first.proposal.provider prepared.providerId
        (deals.map fun deal => (validateDeal env policy deal networkRawPower baselinePower).isOk)
        PublishFilter.empty 0 deals = .ok filter ∧
      prepared.validDeals = filter.validDeals ∧ prepared.validInputBf = filter.validInputBf ∧
      filter.validInputBf.length = filter.validDeals.length ∧ filter.validDeals ≠ [] := by
  unfold publishPrepare at h
  split at h
  case h_2 => simp at h
  rename_i first hfirst
  dsimp only at h
  split at h
  case h_2 => simp at h
  rename_i providerId hprovider
  split at h
  case h_2 => simp at h
  rename_i codeId hcode
  simp only [Except.bind_eq_ok, Except.throw_bind, Except.ite_throw_eq_ok, Bool.not_eq_true',
    Except.pure_eq_ok] at h
  obtain ⟨hminer, -, -, -, baselinePower, hbase, ⟨networkRawPower, qaPower⟩, hpower, filter, hfilter,
    -, -, hcount, hnonempty, rfl⟩ := h
  refine ⟨first, codeId, networkRawPower, qaPower, baselinePower, filter, hfirst, hprovider, hcode,
    not_not.mp hminer, hbase, hpower, hfilter, rfl, rfl, not_not.mp hcount, ?_⟩
  -- the bitfield counts the kept deals, and it is not empty
  intro hnil
  rw [not_not.mp hcount, hnil] at hnonempty
  exact hnonempty rfl

section Lock

variable {env : PublishEnv α} {policy : Policy} {deals : List (ClientDealProposal α)}
  {providerId : Nat} {networkRawPower baselinePower : Int} {codeId : Cid}

/-- A kept deal is normalised to the batch's provider, its client is not the
provider (the provider is a miner, and a miner authenticates nothing), and
it locks non-negative amounts on both sides. -/
theorem KeptAt.valid (hminers : MinersRejectAuthentication env)
    (hsupply : 0 ≤ env.totalFilCircSupply) (hnum : 0 ≤ policy.provCollateralPercentSupplyNum)
    (hden : 0 < policy.provCollateralPercentSupplyDenom)
    (hcode : env.getActorCodeCid providerId = some codeId)
    (hminer : env.resolveBuiltinActorType codeId = some .miner) {di : Nat} {vd : ValidDeal}
    (hk : KeptAt env policy deals providerId networkRawPower baselinePower di vd) :
    vd.proposal.provider = ⟨providerId⟩ ∧ vd.proposal.client ≠ vd.proposal.provider ∧
      0 ≤ vd.proposal.clientBalanceRequirement ∧ 0 ≤ vd.proposal.providerCollateral := by
  obtain ⟨deal, clientId, -, hval, hclient, hprop, -⟩ := hk
  obtain ⟨hauth, hsize, -, hlt, hdur, hprice, hprov, hcoll⟩ := validateDeal_ok hval
  have hdur' : deal.proposal.duration < 2 ^ 64 := by
    have : (1278 : Int) * epochsInDay < 2 ^ 64 := by decide
    omega
  rw [hprop]
  refine ⟨rfl, fun heq => ?_, ?_, ?_⟩
  · -- a client resolving to the provider would have authenticated as a miner
    have hid : clientId = providerId := congrArg Address.id heq
    exact hminers deal providerId codeId (hid ▸ hclient) hcode hminer hauth
  · simpa using DealProposal.clientBalanceRequirement_nonneg
      (by unfold DealProposal.duration; omega) hdur' hprice hcoll
  · simpa using le_trans (dealProviderCollateralBounds_nonneg (by omega) hsupply hnum hden) hprov

/-- Every kept deal has a kept input index. -/
theorem exists_keptAt_of_mem {bf : List Nat} {validDeals : List ValidDeal}
    (hkept : List.Forall₂ (KeptAt env policy deals providerId networkRawPower baselinePower)
      bf validDeals) {vd : ValidDeal} (hvd : vd ∈ validDeals) :
    ∃ di, KeptAt env policy deals providerId networkRawPower baselinePower di vd := by
  induction hkept with
  | nil => cases hvd
  | @cons di vd' _ _ hk _ ih =>
    rcases List.mem_cons.mp hvd with rfl | hvd
    · exact ⟨di, hk⟩
    · exact ih hvd

end Lock

theorem clientLockupOf_eq_zero {vds : List ValidDeal} {a : Address}
    (h : ∀ vd ∈ vds, vd.proposal.client ≠ a) : clientLockupOf vds a = 0 := by
  induction vds with
  | nil => rfl
  | cons vd rest ih =>
    simp [Ne.symm (h vd (by simp)), ih fun vd' h' => h vd' (List.mem_cons_of_mem _ h')]

theorem providerLockupOf_eq_zero {vds : List ValidDeal} {a : Address}
    (h : ∀ vd ∈ vds, vd.proposal.provider ≠ a) : providerLockupOf vds a = 0 := by
  induction vds with
  | nil => rfl
  | cons vd rest ih =>
    simp [Ne.symm (h vd (by simp)), ih fun vd' h' => h vd' (List.mem_cons_of_mem _ h')]

/-- Index `k` of a list related to `l₁` is stored under ID `s + k`. -/
theorem forall₂_range' {β γ : Type} {R : β → γ → Prop} {R' : β → Nat → Prop} :
    ∀ {l₁ : List β} {l₂ : List γ} (s : Nat), List.Forall₂ R l₁ l₂ →
      (∀ k a b, l₂[k]? = some b → R a b → R' a (s + k)) →
      List.Forall₂ R' l₁ (List.range' s l₂.length)
  | _, _, _, .nil, _ => .nil
  | _, _ :: l₂, s, .cons hab hrest, hR => by
    rw [List.length_cons, List.range'_succ]
    refine .cons (by simpa using hR 0 _ _ rfl hab) (forall₂_range' (s + 1) hrest ?_)
    intro k a b hk hr
    have := hR (k + 1) a b (by simpa using hk) hr
    rwa [← Nat.add_assoc, Nat.add_right_comm] at this

/-! ## The lock-up -/

section LockUp

variable [ToString α] [DecidableEq α] {env : PublishEnv α} {policy : Policy} {st : State}
  {deals : List (ClientDealProposal α)} {prepared : PublishPrepared}

/-- What a batch handed to the transaction is: its deals are the valid input
deals its bitfield lists, each between the provider and another party and
with non-negative amounts, and every address's escrow covers the whole
batch. -/
theorem publishPrepare_covered (hinv : EscrowLockInv st)
    (hminers : MinersRejectAuthentication env) (hsupply : 0 ≤ env.totalFilCircSupply)
    (hnum : 0 ≤ policy.provCollateralPercentSupplyNum)
    (hden : 0 < policy.provCollateralPercentSupplyDenom)
    (h : publishPrepare env policy st deals = .ok prepared) :
    (∃ networkRawPower baselinePower, List.Forall₂
      (KeptAt env policy deals prepared.providerId networkRawPower baselinePower)
      prepared.validInputBf prepared.validDeals) ∧
    (∀ vd ∈ prepared.validDeals, vd.proposal.provider = ⟨prepared.providerId⟩ ∧
      vd.proposal.client ≠ vd.proposal.provider ∧ 0 ≤ vd.proposal.clientBalanceRequirement ∧
      0 ≤ vd.proposal.providerCollateral) ∧
    ∀ a, BalanceTable.get st.lockedTable a + clientLockupOf prepared.validDeals a +
      providerLockupOf prepared.validDeals a ≤ BalanceTable.get st.escrowTable a := by
  obtain ⟨first, codeId, networkRawPower, -, baselinePower, filter, -, -, hcode, hminer, -, -,
    hfilter, hvalid, hbf, -, -⟩ := publishPrepare_ok h
  have hfinv := FilterInv.filterDeals deals PublishFilter.empty filter 0 (List.drop_zero)
    (FilterInv.empty hinv) hfilter
  rw [hvalid, hbf]
  have hdeals : ∀ vd ∈ filter.validDeals, vd.proposal.provider = ⟨prepared.providerId⟩ ∧
      vd.proposal.client ≠ vd.proposal.provider ∧ 0 ≤ vd.proposal.clientBalanceRequirement ∧
      0 ≤ vd.proposal.providerCollateral := fun vd hvd => by
    obtain ⟨di, hk⟩ := exists_keptAt_of_mem hfinv.kept hvd
    exact hk.valid hminers hsupply hnum hden hcode hminer
  refine ⟨⟨networkRawPower, baselinePower, hfinv.kept⟩, hdeals, fun a => ?_⟩
  -- the provider is no client, and no one else is a provider
  by_cases ha : a = ⟨prepared.providerId⟩
  · subst ha
    have hcl : clientLockupOf filter.validDeals ⟨prepared.providerId⟩ = 0 :=
      clientLockupOf_eq_zero fun vd hvd => (hdeals vd hvd).1 ▸ (hdeals vd hvd).2.1
    have := hfinv.providerCovered
    simp only [State.balanceCovered, decide_eq_true_eq, hfinv.totalProviderLockup] at this
    omega
  · have hpl : providerLockupOf filter.validDeals a = 0 :=
      providerLockupOf_eq_zero fun vd hvd => (hdeals vd hvd).1 ▸ Ne.symm ha
    have := hfinv.clientCovered a
    simp only [State.balanceCovered, decide_eq_true_eq] at this
    omega

/-- Locking adds to the recorded totals what it adds to the locked table. -/
theorem State.getTotalLocked_lockedFor (st : State) (lockedTable : OrdMap Address Int)
    (validDeals : List ValidDeal) :
    (st.lockedFor lockedTable validDeals).getTotalLocked = st.getTotalLocked +
      (validDeals.map fun vd =>
        vd.proposal.clientBalanceRequirement + vd.proposal.providerCollateral).sum := by
  simp only [State.getTotalLocked, State.lockedFor, DealProposal.clientBalanceRequirement,
    List.sum_map_add]
  abel

/-- The transaction on a covered batch: it locks every deal and writes each
proposal at the next consecutive deal ID. -/
theorem publishDeals_of_covered
    (hlocked : ∀ a, 0 ≤ BalanceTable.get st.lockedTable a)
    (hdeals : ∀ vd ∈ prepared.validDeals, vd.proposal.provider = ⟨prepared.providerId⟩ ∧
      vd.proposal.client ≠ vd.proposal.provider ∧ 0 ≤ vd.proposal.clientBalanceRequirement ∧
      0 ≤ vd.proposal.providerCollateral)
    (hcovered : ∀ a, BalanceTable.get st.lockedTable a + clientLockupOf prepared.validDeals a +
      providerLockupOf prepared.validDeals a ≤ BalanceTable.get st.escrowTable a) :
    ∃ st', publishDeals policy prepared.validDeals prepared.dealAllocationIds st =
        .ok (List.range' st.nextId prepared.validDeals.length) st' ∧
      (∀ a, BalanceTable.get st'.lockedTable a = BalanceTable.get st.lockedTable a +
        clientLockupOf prepared.validDeals a + providerLockupOf prepared.validDeals a) ∧
      st'.lockedTable.sumBy (fun _ v => v) - st'.getTotalLocked =
        st.lockedTable.sumBy (fun _ v => v) - st.getTotalLocked ∧
      st'.escrowTable = st.escrowTable ∧
      st'.proposals = ((List.range' st.nextId prepared.validDeals.length).zip
        (prepared.validDeals.map (·.proposal))).foldl (fun m e => m.set e.1 e.2) st.proposals := by
  obtain ⟨batch, lockedTable, hlock, hlockedTable, hsum, hids, hprops, -⟩ :=
    lockDeals_ok policy prepared.dealAllocationIds prepared.validDeals PublishBatch.empty st
      hlocked
      (fun vd hvd => ⟨(hdeals vd hvd).2.2.1, (hdeals vd hvd).2.2.2, (hdeals vd hvd).2.1⟩) hcovered
  have hrun := publishDeals_of_lockDeals hlock
  simp only [hids, hprops, PublishBatch.empty, List.nil_append] at hrun
  refine ⟨_, hrun, hlockedTable, ?_, rfl, rfl⟩
  -- the locked table and the recorded totals grow by the same amounts
  have htotal := State.getTotalLocked_lockedFor st lockedTable prepared.validDeals
  simp only [State.getTotalLocked] at htotal ⊢
  rw [htotal]
  simp only [State.lockedFor, hsum]
  abel

/-- Whenever `publish_storage_deals` reaches its state transaction, its
pre-validation has guaranteed the lock-up: no kept deal's client is its
provider, every address's escrow covers what it has locked and its share of
every kept deal, the transaction locks all of them, and the deals it stores
under the new IDs are exactly the valid input deals the bitfield lists, in
order. -/
theorem publish_storage_deals_lock_up (hinv : EscrowLockInv st)
    (hminers : MinersRejectAuthentication env) (hsupply : 0 ≤ env.totalFilCircSupply)
    (hnum : 0 ≤ policy.provCollateralPercentSupplyNum)
    (hden : 0 < policy.provCollateralPercentSupplyDenom)
    (h : publishPrepare env policy st deals = .ok prepared) :
    (∀ vd ∈ prepared.validDeals, vd.proposal.client ≠ vd.proposal.provider) ∧
    (∀ a, BalanceTable.get st.lockedTable a + clientLockupOf prepared.validDeals a +
      providerLockupOf prepared.validDeals a ≤ BalanceTable.get st.escrowTable a) ∧
    ∃ st', publishDeals policy prepared.validDeals prepared.dealAllocationIds st =
        .ok (List.range' st.nextId prepared.validDeals.length) st' ∧
      (∀ a, BalanceTable.get st'.lockedTable a = BalanceTable.get st.lockedTable a +
        clientLockupOf prepared.validDeals a + providerLockupOf prepared.validDeals a) ∧
      List.Forall₂ (fun di id => ∃ deal clientId, deals[di]? = some deal ∧
          env.resolveAddress deal.proposal.client = some clientId ∧
          st'.proposals.get? id = some (deal.proposal.withParties ⟨clientId⟩ ⟨prepared.providerId⟩))
        prepared.validInputBf (List.range' st.nextId prepared.validDeals.length) ∧
      ∀ id, id ∉ List.range' st.nextId prepared.validDeals.length →
        st'.proposals.get? id = st.proposals.get? id := by
  obtain ⟨⟨_, _, hkept⟩, hdeals, hcovered⟩ := publishPrepare_covered hinv hminers hsupply hnum hden h
  obtain ⟨st', hrun, hlockedTable, -, -, hproposals⟩ :=
    publishDeals_of_covered hinv.locked_nonneg hdeals hcovered
  -- the transaction writes the kept proposals at the consecutive new IDs
  have hstored (id : Nat) := OrdMap.get?_foldl_set_range'
    (prepared.validDeals.map (·.proposal)) st.nextId id st.proposals
  simp only [List.length_map] at hstored
  refine ⟨fun vd hvd => (hdeals vd hvd).2.1, hcovered, _, hrun, hlockedTable, ?_, ?_⟩
  · apply forall₂_range' st.nextId hkept
    rintro k di vd hk ⟨deal, clientId, hdeal, -, hclient, hprop, -⟩
    obtain ⟨hlen, hget⟩ := List.getElem?_eq_some_iff.mp hk
    refine ⟨deal, clientId, hdeal, hclient, ?_⟩
    simp [hproposals, hstored, hlen, hget, hprop]
  · intro id hid
    have : ¬ (st.nextId ≤ id ∧ id < st.nextId + prepared.validDeals.length) := by
      simpa [List.mem_range'_1] using hid
    simp [hproposals, hstored, this]

/-- A successful publication keeps the escrow and locked tables as the market
keeps them: the batch it locks is covered, and the recorded totals grow with
the locked table. -/
theorem publish_storage_deals_escrow_lock_inv {ret : PublishStorageDealsReturn} {st' : State}
    (hinv : EscrowLockInv st) (hminers : MinersRejectAuthentication env)
    (hsupply : 0 ≤ env.totalFilCircSupply) (hnum : 0 ≤ policy.provCollateralPercentSupplyNum)
    (hden : 0 < policy.provCollateralPercentSupplyDenom)
    (h : publishStorageDeals env policy st deals = .ok (ret, st')) : EscrowLockInv st' := by
  unfold publishStorageDeals at h
  obtain ⟨prepared, hprep, h⟩ := Except.bind_eq_ok.mp h
  obtain ⟨⟨ids, st₁⟩, htx, h⟩ := Except.bind_eq_ok.mp h
  obtain ⟨-, -, h⟩ := Except.bind_eq_ok.mp h
  obtain rfl : st₁ = st' := (Prod.mk.inj (Except.ok.inj h)).2
  obtain ⟨-, hdeals, hcovered⟩ := publishPrepare_covered hinv hminers hsupply hnum hden hprep
  obtain ⟨st₂, hrun, hlocked, htotal, hescrow, -⟩ :=
    publishDeals_of_covered hinv.locked_nonneg hdeals hcovered
  -- the transaction commits the state the locking left
  rw [transaction_eq_ok, hrun] at htx
  obtain rfl : st₂ = st₁ := (EStateM.Result.ok.inj htx).2
  have hcl := clientLockupOf_nonneg fun vd hvd => (hdeals vd hvd).2.2.1
  have hpl := providerLockupOf_nonneg fun vd hvd => (hdeals vd hvd).2.2.2
  refine ⟨hescrow ▸ hinv.escrow_nonneg, fun a => ?_, fun a => ?_, ?_⟩
  · have := hinv.locked_nonneg a
    have := hcl a
    have := hpl a
    rw [hlocked]
    omega
  · have := hcovered a
    rw [hlocked, hescrow]
    exact this
  · have := hinv.locked_total
    omega

end LockUp

def lockUpMinerCode : Cid := ⟨1, 0x55, 0, [7]⟩
def lockUpAccountCode : Cid := ⟨1, 0x55, 0, [3]⟩

/-- A network with a storage miner `1000` and an account `100`, in which
accounts authenticate every proposal and the miner none. -/
def lockUpEnv : PublishEnv Nat where
  currEpoch := 0
  caller := 1000
  resolveAddress := some
  newId := id
  getActorCodeCid n := some (if n = 1000 then lockUpMinerCode else lockUpAccountCode)
  resolveBuiltinActorType c := some (if c = lockUpMinerCode then .miner else .account)
  isControllingAddress _ _ := .ok true
  currentBaselinePower := .ok 0
  currentNetworkPower := .ok (0, 0)
  totalFilCircSupply := 0
  authenticateMessage deal :=
    if deal.proposal.client = 1000 then .error ⟨⟨22⟩, "method not found"⟩ else .ok true
  serializedDealCid p := ⟨1, 0x71, 0xb220, [p.client.id.toUInt8]⟩
  balanceOf _ := .ok 0
  transferFrom _ _ := .ok []
  notifyDeal _ _ := .ok ()

/-- A deal of the account `100` with the miner `1000`, for the shortest
duration, one atto a epoch. -/
def lockUpDeal : ClientDealProposal Nat where
  proposal :=
    { pieceCid := ⟨1, filCommitmentUnsealed, sha256Trunc254Padded, List.replicate 32 0⟩
      pieceSize := 2048
      verifiedDeal := false
      client := 100
      provider := 1000
      label := .string ""
      startEpoch := 10
      endEpoch := 10 + 180 * 2880
      storagePricePerEpoch := 1
      providerCollateral := 5
      clientCollateral := 7 }
  clientSignature := []

def lockUpState : State :=
  { State.new with escrowTable := (OrdMap.empty.set ⟨100⟩ 1000000).set ⟨1000⟩ 100 }

theorem lockUpState_escrowLockInv : EscrowLockInv lockUpState where
  escrow_nonneg a := by
    simp only [lockUpState, BalanceTable.get_set]
    split_ifs <;> simp [BalanceTable.get]
  locked_nonneg a := by simp [lockUpState, State.new, BalanceTable.get]
  locked_le_escrow a := by
    simp only [lockUpState, State.new, BalanceTable.get_set]
    split_ifs <;> simp [BalanceTable.get]
  locked_total := rfl

theorem lockUpEnv_minersRejectAuthentication : MinersRejectAuthentication lockUpEnv := by
  intro deal id codeId hres hcode hty
  simp only [lockUpEnv, Option.some.injEq] at hres hcode hty
  -- only the miner `1000` has the miner's code
  have hid : id = 1000 := by
    by_contra hid
    rw [if_neg hid] at hcode
    subst hcode
    simp [lockUpMinerCode, lockUpAccountCode] at hty
  simp [lockUpEnv, hres, hid]

theorem lockUp_publishPrepare : publishPrepare lockUpEnv Policy.default lockUpState [lockUpDeal] =
    .ok ⟨1000, [⟨lockUpDeal.proposal.withParties ⟨100⟩ ⟨1000⟩, ⟨1, 0x71, 0xb220, [100]⟩⟩], [0], []⟩ :=
  rfl

theorem publish_storage_deals_lock_up_example :
    EscrowLockInv lockUpState ∧ MinersRejectAuthentication lockUpEnv ∧
      0 ≤ lockUpEnv.totalFilCircSupply ∧ 0 ≤ Policy.default.provCollateralPercentSupplyNum ∧
      0 < Policy.default.provCollateralPercentSupplyDenom ∧
      (∀ a, BalanceTable.get lockUpState.lockedTable a +
        clientLockupOf [⟨lockUpDeal.proposal.withParties ⟨100⟩ ⟨1000⟩, ⟨1, 0x71, 0xb220, [100]⟩⟩] a +
        providerLockupOf [⟨lockUpDeal.proposal.withParties ⟨100⟩ ⟨1000⟩, ⟨1, 0x71, 0xb220, [100]⟩⟩] a ≤
        BalanceTable.get lockUpState.escrowTable a) :=
  ⟨lockUpState_escrowLockInv, lockUpEnv_minersRejectAuthentication, by decide, by decide, by decide,
    (publish_storage_deals_lock_up lockUpState_escrowLockInv lockUpEnv_minersRejectAuthentication
      (by decide) (by decide) (by decide) lockUp_publishPrepare).2.1⟩

/-- What publishing the deal of `100` with `1000` returns. -/
def lockUpPublished : PublishStorageDealsReturn × State :=
  match publishStorageDeals lockUpEnv Policy.default lockUpState [lockUpDeal] with
  | .ok r => r
  | .error _ => (⟨[], []⟩, lockUpState)

theorem lockUp_publishStorageDeals :
    publishStorageDeals lockUpEnv Policy.default lockUpState [lockUpDeal] =
      .ok (lockUpPublished.1, lockUpPublished.2) :=
  rfl

theorem publish_storage_deals_escrow_lock_inv_example :
    EscrowLockInv lockUpState ∧ MinersRejectAuthentication lockUpEnv ∧
      0 ≤ lockUpEnv.totalFilCircSupply ∧ 0 ≤ Policy.default.provCollateralPercentSupplyNum ∧
      0 < Policy.default.provCollateralPercentSupplyDenom ∧
      publishStorageDeals lockUpEnv Policy.default lockUpState [lockUpDeal] =
        .ok (lockUpPublished.1, lockUpPublished.2) ∧
      EscrowLockInv lockUpPublished.2 :=
  ⟨lockUpState_escrowLockInv, lockUpEnv_minersRejectAuthentication, by decide, by decide, by decide,
    lockUp_publishStorageDeals,
    publish_storage_deals_escrow_lock_inv lockUpState_escrowLockInv
      lockUpEnv_minersRejectAuthentication (by decide) (by decide) (by decide)
      lockUp_publishStorageDeals⟩

end BuiltinActors.Market
