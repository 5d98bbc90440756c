import BuiltinActors.Verifreg.State
import BuiltinActors.Datacap.Token

/-! # The verified registry and the DataCap actor

The registry's methods, run together with the DataCap token they move. The
two actors call each other: the registry mints, destroys, burns and
transfers DataCap, and a transfer of DataCap to the registry runs the
registry's receiver hook, which may itself burn. A `World` holds both
states. A method that fails aborts the whole message, so a method maps a
world to its result and the world it leaves, or to the error alone.

The other actors are the environment's: the code of each actor, the answer of
an account to a signed proposal, the receiver hook of an actor other than
the registry, and what a transfer's operator data decodes to. -/

namespace BuiltinActors.Verifreg

open Datacap (TokensReceived)

/-! ## Parameters and returns -/

structure VerifierParams where
  address : Address
  allowance : Int

structure RemoveDataCapRequest where
  verifier : Address
  signature : List UInt8

structure RemoveDataCapParams where
  verifiedClientToRemove : Address
  dataCapAmountToRemove : Int
  verifierRequest1 : RemoveDataCapRequest
  verifierRequest2 : RemoveDataCapRequest

structure RemoveDataCapReturn where
  verifiedClient : Address
  dataCapRemoved : Int

/-- What each of the two verifiers signs to remove a client's DataCap. -/
structure RemoveDataCapProposal where
  verifiedClient : Address
  dataCapAmount : Int
  removalProposalId : Nat

structure RemoveExpiredAllocationsParams where
  client : Nat
  allocationIds : List Nat

structure RemoveExpiredAllocationsReturn where
  considered : List Nat
  results : BatchReturn
  datacapRecovered : Int

structure AllocationClaim where
  client : Nat
  allocationId : Nat
  data : Cid
  size : UInt64

structure SectorAllocationClaims where
  sector : Nat
  expiry : Int
  claims : List AllocationClaim

structure ClaimAllocationsParams where
  sectors : List SectorAllocationClaims
  allOrNothing : Bool

structure ClaimAllocationsReturn where
  sectorResults : BatchReturn
  /-- The space claimed in each sector group that succeeded. -/
  sectorClaims : List Int

structure ClaimTerm where
  provider : Nat
  claimId : Nat
  termMax : Int

structure AllocationRequest where
  provider : Nat
  data : Cid
  size : UInt64
  termMin : Int
  termMax : Int
  expiration : Int

structure ClaimExtensionRequest where
  provider : Nat
  claim : Nat
  termMax : Int

structure AllocationRequests where
  allocations : List AllocationRequest
  extensions : List ClaimExtensionRequest

structure AllocationsResponse where
  allocationResults : BatchReturn
  extensionResults : BatchReturn
  newAllocations : List Nat

structure GetClaimsParams where
  provider : Nat
  claimIds : List Nat

structure GetClaimsReturn where
  batchInfo : BatchReturn
  claims : List Claim

structure RemoveExpiredClaimsParams where
  provider : Nat
  claimIds : List Nat

structure RemoveExpiredClaimsReturn where
  considered : List Nat
  results : BatchReturn

/-! ## The two actors -/

/-- What the registry reads of the rest of the system. -/
structure Env where
  currEpoch : Int
  policy : Policy
  getActorCodeCid : Nat → Option Cid
  resolveBuiltinActorType : Cid → Option ActorType
  /-- The allocation requests a transfer's operator data decodes to, if any. -/
  deserializeAllocationRequests : List UInt8 → Option AllocationRequests
  /-- An account's answer to `AuthenticateMessage` for a signed removal proposal. -/
  authenticateMessage : Address → List UInt8 → RemoveDataCapProposal → Except ActorError Bool
  /-- The receiver hook of an actor other than the registry. -/
  receiverHook : TokensReceived → Except ActorError Unit

structure World where
  registry : State
  datacap : Datacap.State

def datacapToTokens (amount : Int) : Int := amount * Datacap.tokenPrecision

/-- Whole units of DataCap in a token amount; the division truncates. -/
def tokensToDatacap (amount : Int) : Int := amount.tdiv Datacap.tokenPrecision

namespace World

/-- The DataCap actor's `burn`: the caller burns tokens of its own. -/
def burn (w : World) (caller : Address) (amount : Int) : Except ActorError World := do
  let datacap ← w.datacap.burn caller amount
  pure { w with datacap }

def burnFrom (w : World) (caller owner : Address) (amount : Int) : Except ActorError World := do
  let datacap ← w.datacap.burnFrom caller owner amount
  pure { w with datacap }

def destroy (w : World) (caller owner : Address) (amount : Int) : Except ActorError World := do
  let datacap ← w.datacap.destroy caller owner amount
  pure { w with datacap }

end World

/-- The registry burns DataCap of its own; burning nothing sends nothing. -/
def burn (w : World) (amount : Int) : Except ActorError World :=
  if amount = 0 then pure w
  else
    let tokenAmt := datacapToTokens amount
    (w.burn verifiedRegistryActorAddr tokenAmt).mapError fun e =>
      e.sendAborted.context s!"failed to send burn BurnParams \x7b amount: {tokenAmt} \x7d to datacap"

/-! ## The receiver hook -/

def validateNewAllocation (req : AllocationRequest) (policy : Policy) (currEpoch : Int) :
    Except ActorError Unit := do
  if (req.size.toNat : Int) < policy.minimumVerifiedAllocationSize then
    throw (.illegalArgument
      s!"allocation size {req.size.toNat} below minimum {policy.minimumVerifiedAllocationSize}")
  if req.termMin < policy.minimumVerifiedAllocationTerm then
    throw (.illegalArgument
      s!"allocation term min {req.termMin} below limit {policy.minimumVerifiedAllocationTerm}")
  if req.termMax > policy.maximumVerifiedAllocationTerm then
    throw (.illegalArgument
      s!"allocation term max {req.termMax} above limit {policy.maximumVerifiedAllocationTerm}")
  if req.termMin > req.termMax then
    throw (.illegalArgument
      s!"allocation term min {req.termMin} exceeds term max {req.termMax}")
  if req.expiration < currEpoch then
    throw (.illegalArgument
      s!"allocation expiration epoch {req.expiration} has passed current epoch {currEpoch}")
  let maxExpiration := currEpoch + policy.maximumVerifiedAllocationExpiration
  if req.expiration > maxExpiration then
    throw (.illegalArgument
      s!"allocation expiration {req.expiration} exceeds maximum {maxExpiration}")

def validateClaimExtension (req : ClaimExtensionRequest) (claim : Claim) (policy : Policy)
    (currEpoch : Int) : Except ActorError Unit := do
  -- the limit runs from the current epoch, not from the old maximum term
  let termLimitAbsolute := currEpoch + policy.maximumVerifiedAllocationTerm
  let termLimitRelative := termLimitAbsolute - claim.termStart
  if req.termMax > termLimitRelative then
    throw (.illegalArgument s!"term_max {req.termMax} for claim {req.claim} exceeds maximum {termLimitRelative} at current epoch {currEpoch}")
  if req.termMax ≤ claim.termMax then
    throw (.illegalArgument s!"term_max {req.termMax} for claim {req.claim} is not larger than existing term max {claim.termMax}")
  let claimExpiration := claim.termStart + claim.termMax
  if currEpoch > claimExpiration then
    throw (.forbidden
      s!"claim {req.claim} expired at {claimExpiration}, current epoch {currEpoch}")

/-- Passes when the ID is a miner actor's. -/
def checkMinerId (env : Env) (id : Nat) : Except ActorError Unit := do
  let some codeCid := env.getActorCodeCid id
    | throw (.illegalArgument s!"no code CID for provider {id}")
  let some providerType := env.resolveBuiltinActorType codeCid
    | throw (.illegalArgument s!"provider code {codeCid} must be built-in miner actor")
  if providerType ≠ .miner then
    throw (.illegalArgument s!"allocation provider {id} must be a miner actor, was {providerType}")

/-- The allocations the requests ask for, each checked in turn. -/
def newAllocations (env : Env) (client : Nat) :
    List AllocationRequest → Except ActorError (List Allocation)
  | [] => pure []
  | req :: reqs => do
    validateNewAllocation req env.policy env.currEpoch
    checkMinerId env req.provider
    let rest ← newAllocations env client reqs
    pure (⟨client, req.provider, req.data, req.size, req.termMin, req.termMax, req.expiration⟩ ::
      rest)

/-- The claims the extension requests update, each read from the claims as
they were before the hook and checked in turn. Any client may extend any
claim; the claim keeps its client. -/
def claimExtensions (env : Env) (claims : MapMap Claim) :
    List ClaimExtensionRequest → Except ActorError (List (Nat × Claim))
  | [] => pure []
  | req :: reqs => do
    let some claim := claims.get req.provider req.claim
      | throw (.notFound s!"no claim {req.claim} for provider {req.provider}")
    validateClaimExtension req claim env.policy env.currEpoch
    let rest ← claimExtensions env claims reqs
    pure ((req.claim, { claim with termMax := req.termMax }) :: rest)

/-- Receives DataCap from a client and makes the allocations and claim
extensions its operator data requests, which must add up to exactly the
amount received. The DataCap spent on extensions is burnt at once; the rest
stays with the registry until its allocations are claimed or expire. -/
def universalReceiverHook (env : Env) (caller : Address) (received : TokensReceived)
    (w : World) : Except ActorError (AllocationsResponse × World) := do
  validateImmediateCallerIs caller [datacapTokenActorAddr]
  let myId := verifiedRegistryActorAddr.id
  if received.toId ≠ myId then
    throw (.illegalArgument s!"token receiver expected to {myId}, was {received.toId}")
  let client := received.fromId
  let some reqs := env.deserializeAllocationRequests received.operatorData
    | throw (.serialization "failed to deserialize allocation requests")
  let newAllocs ← newAllocations env client reqs.allocations
  let updatedClaims ← claimExtensions env w.registry.claims reqs.extensions
  let extensionTotal := (updatedClaims.map fun e => e.2.datacap).sum
  let datacapTotal := (newAllocs.map Allocation.datacap).sum + extensionTotal
  let tokensAsDatacap := tokensToDatacap received.amount
  if datacapTotal ≠ tokensAsDatacap then
    throw (.illegalArgument s!"total allocation size {datacapTotal} must match data cap amount received {tokensAsDatacap}")
  let w ← burn w extensionTotal
  let (ids, registry) := w.registry.insertAllocations client newAllocs
  let registry := registry.putClaims updatedClaims
  pure (⟨.ok newAllocs.length, .ok updatedClaims.length, ids⟩, { w with registry })

/-- The receiving actor's hook: the registry's own, or another actor's as
the environment answers. A failed hook fails the token method with its error. -/
def receiverHook (env : Env) (received : TokensReceived) (w : World) : Except ActorError World :=
  if received.toId = verifiedRegistryActorAddr.id then
    Prod.snd <$> universalReceiverHook env datacapTokenActorAddr received w
  else (fun _ => w) <$> env.receiverHook received

/-! ## The DataCap actor's methods that run a receiver hook -/

namespace World

def mint (env : Env) (w : World) (caller toAddress : Address) (amount : Int)
    (operators : List Address) : Except ActorError World := do
  let (received, datacap) ← w.datacap.mint caller toAddress amount operators
  receiverHook env received { w with datacap }

def transfer (env : Env) (w : World) (caller toAddress : Address) (amount : Int)
    (operatorData : List UInt8) : Except ActorError World := do
  let (received, datacap) ← w.datacap.transfer caller toAddress amount operatorData
  receiverHook env received { w with datacap }

def transferFrom (env : Env) (w : World) (caller fromAddr toAddress : Address) (amount : Int)
    (operatorData : List UInt8) : Except ActorError World := do
  let (received, datacap) ← w.datacap.transferFrom caller fromAddr toAddress amount operatorData
  receiverHook env received { w with datacap }

end World

/-! ## The registry's sends to the DataCap actor -/

/-- The balance of an owner, in whole DataCap. -/
def balance (w : World) (owner : Address) : Int :=
  tokensToDatacap (w.datacap.token.balanceOf owner.id)

def mint (env : Env) (w : World) (toAddr : Address) (amount : Int) (operators : List Address) :
    Except ActorError World :=
  let tokenAmt := datacapToTokens amount
  (w.mint env verifiedRegistryActorAddr toAddr tokenAmt operators).mapError fun e =>
    e.sendAborted.context s!"failed to send mint MintParams \x7b to: {toAddr}, amount: {tokenAmt}, operators: {operators} \x7d to datacap"

def destroy (w : World) (owner : Address) (amount : Int) : Except ActorError World :=
  if amount = 0 then pure w
  else
    let tokenAmt := datacapToTokens amount
    (w.destroy verifiedRegistryActorAddr owner tokenAmt).mapError fun e =>
      e.sendAborted.context s!"failed to send destroy DestroyParams \x7b owner: {owner}, amount: {tokenAmt} \x7d to datacap"

def transfer (env : Env) (w : World) (toId : Nat) (amount : Int) : Except ActorError World :=
  let tokenAmt := datacapToTokens amount
  let toAddr : Address := ⟨toId⟩
  (w.transfer env verifiedRegistryActorAddr toAddr tokenAmt []).mapError fun e =>
    e.sendAborted.context s!"failed to send transfer to datacap TransferParams \x7b to: {toAddr}, amount: {tokenAmt} \x7d"

/-! ## Verifiers and clients -/

def addVerifier (env : Env) (caller : Address) (params : VerifierParams) (w : World) :
    Except ActorError World := do
  if params.allowance < env.policy.minimumVerifiedAllocationSize then
    throw (.illegalArgument s!"Allowance {params.allowance} below minimum deal size for add verifier {params.address}")
  let verifier ← resolveToActorId env.getActorCodeCid params.address true
  let verifierAddr : Address := ⟨verifier⟩
  let st := w.registry
  validateImmediateCallerIs caller [st.rootKey]
  if verifierAddr = st.rootKey then
    throw (.illegalArgument "Rootkey cannot be added as verifier")
  -- an existing client may not become a verifier: its balance is looked at now only
  let tokenBalance := balance w verifierAddr
  if tokenBalance > 0 then
    throw (.illegalArgument s!"verified client {verifierAddr} cannot become a verifier")
  pure { w with registry := st.putVerifier verifierAddr params.allowance }

def removeVerifier (env : Env) (caller verifier : Address) (w : World) :
    Except ActorError World := do
  let verifierId ← resolveToActorId env.getActorCodeCid verifier false
  let verifierAddr : Address := ⟨verifierId⟩
  let st := w.registry
  validateImmediateCallerIs caller [st.rootKey]
  let registry ← (st.removeVerifier verifierAddr).mapError
    (ActorError.context "failed to remove verifier")
  pure { w with registry }

/-- A verifier gives a client DataCap out of its allowance: the registry mints
it to the client, and the market may spend it. -/
def addVerifiedClient (env : Env) (caller : Address) (params : VerifierParams) (w : World) :
    Except ActorError World := do
  if params.allowance < env.policy.minimumVerifiedAllocationSize then
    throw (.illegalArgument s!"allowance {params.allowance} below MinVerifiedDealSize for add verified client {params.address}")
  let clientId ← resolveToActorId env.getActorCodeCid params.address true
  let client : Address := ⟨clientId⟩
  let st := w.registry
  if client = st.rootKey then
    throw (.illegalArgument "root cannot be added as client")
  let verifierAddr := caller
  let some verifierCap := st.getVerifierCap verifierAddr
    | throw (.notFound s!"caller {verifierAddr} is not a verifier")
  if (st.getVerifierCap client).isSome then
    throw (.illegalArgument s!"verifier {client} cannot be added as a verified client")
  if verifierCap < params.allowance then
    throw (.illegalArgument s!"add more DataCap {params.allowance} for client than allocated {verifierCap}")
  let newVerifierCap := verifierCap - params.allowance
  let w := { w with registry := st.putVerifier verifierAddr newVerifierCap }
  (mint env w client params.allowance [storageMarketActorAddr]).mapError
    (ActorError.context s!"failed to mint {params.allowance} data cap to client {client}")

/-- The verifier's next removal proposal ID for the client, which is then
used up. -/
def useProposalId (proposalIds : MapMap Nat) (verifier client : Address) : Nat × MapMap Nat :=
  let currId := (proposalIds.get verifier.id client.id).getD 0
  (currId, proposalIds.put verifier.id client.id (currId + 1))

def removeDataCapRequestIsValid (env : Env) (request : RemoveDataCapRequest) (id : Nat)
    (toRemove : Int) (client : Address) : Except ActorError Unit := do
  let proposal : RemoveDataCapProposal := ⟨client, toRemove, id⟩
  let valid ← (env.authenticateMessage request.verifier request.signature proposal).mapError
    fun e => e.sendAborted.context "proposal authentication failed"
  if !valid then
    throw (.illegalArgument "proposal authentication failed")

/-- The root key removes DataCap from a client on the signed word of two
verifiers; it burns what the client holds, up to the amount asked. -/
def removeVerifiedClientDataCap (env : Env) (caller : Address) (params : RemoveDataCapParams)
    (w : World) : Except ActorError (RemoveDataCapReturn × World) := do
  let client : Address := ⟨← resolveToActorId env.getActorCodeCid params.verifiedClientToRemove false⟩
  let verifier1 : Address :=
    ⟨← resolveToActorId env.getActorCodeCid params.verifierRequest1.verifier true⟩
  let verifier2 : Address :=
    ⟨← resolveToActorId env.getActorCodeCid params.verifierRequest2.verifier true⟩
  if verifier1 = verifier2 then
    throw (.illegalArgument "need two different verifiers to send remove datacap request")
  let st := w.registry
  validateImmediateCallerIs caller [st.rootKey]
  if params.verifiedClientToRemove = verifiedRegistryActorAddr then
    throw (.illegalArgument "cannot remove data cap from verified registry itself")
  if (st.verifiers.get? verifier1).isNone then
    throw (.notFound s!"{verifier1} is not a verifier")
  if (st.verifiers.get? verifier2).isNone then
    throw (.notFound s!"{verifier2} is not a verifier")
  -- the proposal IDs are used up before the signatures are checked
  let (verifier1Id, proposalIds) := useProposalId st.removeDataCapProposalIds verifier1 client
  let (verifier2Id, proposalIds) := useProposalId proposalIds verifier2 client
  let w := { w with registry := { st with removeDataCapProposalIds := proposalIds } }
  removeDataCapRequestIsValid env params.verifierRequest1 verifier1Id
    params.dataCapAmountToRemove client
  removeDataCapRequestIsValid env params.verifierRequest2 verifier2Id
    params.dataCapAmountToRemove client
  let burnt := min (balance w client) params.dataCapAmountToRemove
  let w ← (destroy w client burnt).mapError
    (ActorError.context s!"failed to destroy {burnt} from allowance for {client}")
  pure (⟨client, burnt⟩, w)

/-! ## Expired allocations and claims -/

variable {α : Type} [Expires α]

/-- The IDs an expiry method considers, their outcomes, and those it removes:
every expired record of the owner when no ID is given, else the given IDs
that are expired records of the owner. -/
def selectExpired (collection : MapMap α) (owner : Nat) (ids : List Nat) (currEpoch : Int) :
    List Nat × BatchReturn × List Nat :=
  if ids.isEmpty then
    let considered := findExpired collection owner currEpoch
    (considered, BatchReturn.ok considered.length, considered)
  else
    let batchRet := checkExpired collection ids owner currEpoch
    (ids, batchRet, batchRet.successes ids)

/-- Removes each listed record of the owner and returns them; removing one
that is gone already panics, as the source's `unwrap` does. -/
def removeEach (owner : Nat) : List Nat → MapMap α → Except ActorError (MapMap α × List α)
  | [], m => pure (m, [])
  | id :: ids, m =>
    match m.remove owner id with
    | (some existing, m) => do
      let (m, removed) ← removeEach owner ids m
      pure (m, existing :: removed)
    | (none, _) => throw (.panicked "called unwrap on a None value")

/-- Anyone may remove a client's expired allocations; their DataCap goes back
to the client. -/
def removeExpiredAllocations (env : Env) (params : RemoveExpiredAllocationsParams) (w : World) :
    Except ActorError (RemoveExpiredAllocationsReturn × World) := do
  let st := w.registry
  let (considered, batchRet, toRemove) :=
    selectExpired st.allocations params.client params.allocationIds env.currEpoch
  let (allocs, removed) ← removeEach params.client toRemove st.allocations
  let recoveredDatacap := (removed.map Allocation.datacap).sum
  let w := { w with registry := { st with allocations := allocs } }
  let w ← (transfer env w params.client recoveredDatacap).mapError
    (ActorError.context s!"failed to transfer recovered datacap {recoveredDatacap} back to client {params.client}")
  pure (⟨considered, batchRet, recoveredDatacap⟩, w)

/-- Anyone may remove a provider's claims whose maximum term has passed. -/
def removeExpiredClaims (env : Env) (params : RemoveExpiredClaimsParams) (w : World) :
    Except ActorError (RemoveExpiredClaimsReturn × World) := do
  let st := w.registry
  let (considered, batchRet, toRemove) :=
    selectExpired st.claims params.provider params.claimIds env.currEpoch
  let (claims, _) ← removeEach params.provider toRemove st.claims
  pure (⟨considered, batchRet⟩, { w with registry := { st with claims } })

/-! ## Claims -/

def canClaimAlloc (claimAlloc : AllocationClaim) (provider : Nat) (alloc : Allocation)
    (currEpoch sectorExpiry : Int) : Bool :=
  let sectorLifetime := sectorExpiry - currEpoch
  provider == alloc.provider && claimAlloc.client == alloc.client &&
    claimAlloc.data == alloc.data && claimAlloc.size == alloc.size &&
    decide (currEpoch ≤ alloc.expiration) && decide (sectorLifetime ≥ alloc.termMin) &&
    decide (sectorLifetime ≤ alloc.termMax)

/-- The claims a sector's group would make, or the code of the first of its
allocations that cannot be claimed. -/
def sectorNewClaims (env : Env) (provider : Nat) (allocs : MapMap Allocation)
    (sector : SectorAllocationClaims) : List AllocationClaim → Except ExitCode (List (Nat × Claim))
  | [] => pure []
  | claim :: rest =>
    match allocs.get claim.client claim.allocationId with
    | some alloc => do
      if !canClaimAlloc claim provider alloc env.currEpoch sector.expiry then
        throw .usrForbidden
      let more ← sectorNewClaims env provider allocs sector rest
      pure ((claim.allocationId, ⟨provider, alloc.client, alloc.data, alloc.size, alloc.termMin,
        alloc.termMax, env.currEpoch, sector.sector⟩) :: more)
    | none => throw .usrNotFound

/-- Stores a sector's new claims and removes the allocations they claim,
adding up the space; a claim already stored aborts the method. -/
def commitClaims (provider : Nat) : List (Nat × Claim) → MapMap Claim → MapMap Allocation →
    Int → Except ActorError (MapMap Claim × MapMap Allocation × Int)
  | [], claims, allocs, space => pure (claims, allocs, space)
  | (id, newClaim) :: rest, claims, allocs, space =>
    match claims.putIfAbsent provider id newClaim with
    | (false, _) => throw (.illegalArgument s!"claim {id} already exists")
    | (true, claims) =>
      commitClaims provider rest claims (allocs.remove newClaim.client id).2
        (space + newClaim.datacap)

/-- The locals of the loop over sector groups. -/
structure ClaimLoop where
  claims : MapMap Claim
  allocs : MapMap Allocation
  batchGen : BatchReturnGen
  sectorResults : List Int
  totalClaimedSpace : Int

/-- The loop over sector groups: a group with an allocation it cannot claim
fails alone and changes nothing. -/
def claimSectors (env : Env) (provider : Nat) :
    List SectorAllocationClaims → ClaimLoop → Except ActorError ClaimLoop
  | [], acc => pure acc
  | sector :: rest, acc =>
    match sectorNewClaims env provider acc.allocs sector sector.claims with
    | .error code => claimSectors env provider rest { acc with batchGen := acc.batchGen.addFail code }
    | .ok newClaims => do
      let (claims, allocs, sectorClaimedSpace) ←
        commitClaims provider newClaims acc.claims acc.allocs 0
      claimSectors env provider rest
        { claims, allocs
          batchGen := acc.batchGen.addSuccess
          sectorResults := acc.sectorResults ++ [sectorClaimedSpace]
          totalClaimedSpace := acc.totalClaimedSpace + sectorClaimedSpace }

/-- A miner claims allocations for data it has committed to its sectors; the
DataCap of what it claims is burnt from the registry's balance. -/
def claimAllocations (env : Env) (caller : Address) (params : ClaimAllocationsParams)
    (w : World) : Except ActorError (ClaimAllocationsReturn × World) := do
  validateImmediateCallerType env.getActorCodeCid env.resolveBuiltinActorType caller [.miner]
  let provider := caller.id
  if params.sectors.isEmpty then
    throw (.illegalArgument "claim allocations called with no claims")
  let st := w.registry
  let acc ← (claimSectors env provider params.sectors
    ⟨st.claims, st.allocations, .new params.sectors.length, [], 0⟩).mapError
      (ActorError.context "state transaction failed")
  let w := { w with registry := { st with claims := acc.claims, allocations := acc.allocs } }
  let batchInfo := acc.batchGen.generate
  if params.allOrNothing && !batchInfo.allOk then
    throw (.illegalArgument s!"claim failed with all-or-nothing: {batchInfo}")
  let w ← burn w acc.totalClaimedSpace
  pure (⟨batchInfo, acc.sectorResults⟩, w)

def getClaims (w : World) (params : GetClaimsParams) : GetClaimsReturn :=
  let getOne (acc : BatchReturnGen × List Claim) (id : Nat) : BatchReturnGen × List Claim :=
    match w.registry.claims.get params.provider id with
    | none => (acc.1.addFail .usrNotFound, acc.2)
    | some claim => (acc.1.addSuccess, acc.2 ++ [claim])
  let (batchGen, claims) :=
    params.claimIds.foldl getOne (BatchReturnGen.new params.claimIds.length, [])
  ⟨batchGen.generate, claims⟩

/-- One term of `extend_claim_terms`: a claim's client raises its maximum
term, within the policy's limit. -/
def extendClaimTerm (callerId : Nat) (termLimit : Int) (acc : MapMap Claim × BatchReturnGen)
    (term : ClaimTerm) : MapMap Claim × BatchReturnGen :=
  let (claims, batchGen) := acc
  if term.termMax > termLimit then (claims, batchGen.addFail .usrIllegalArgument)
  else
    match claims.get term.provider term.claimId with
    | some claim =>
      if claim.client ≠ callerId then (claims, batchGen.addFail .usrForbidden)
      else if term.termMax < claim.termMax then (claims, batchGen.addFail .usrIllegalArgument)
      else
        (claims.put term.provider term.claimId { claim with termMax := term.termMax },
          batchGen.addSuccess)
    | none => (claims, batchGen.addFail .usrNotFound)

def extendClaimTerms (env : Env) (caller : Address) (terms : List ClaimTerm) (w : World) :
    BatchReturn × World :=
  let st := w.registry
  let (claims, batchGen) := terms.foldl
    (extendClaimTerm caller.id env.policy.maximumVerifiedAllocationTerm)
    (st.claims, .new terms.length)
  (batchGen.generate, { w with registry := { st with claims } })

/-! ## Messages

A message to either actor, as an account or another actor sends it: the
registry's methods and the DataCap actor's. What the two actors send each
other happens inside these. -/

inductive Call
  | addVerifier (params : VerifierParams)
  | removeVerifier (verifier : Address)
  | addVerifiedClient (params : VerifierParams)
  | removeVerifiedClientDataCap (params : RemoveDataCapParams)
  | removeExpiredAllocations (params : RemoveExpiredAllocationsParams)
  | claimAllocations (params : ClaimAllocationsParams)
  | extendClaimTerms (terms : List ClaimTerm)
  | removeExpiredClaims (params : RemoveExpiredClaimsParams)
  | universalReceiverHook (received : TokensReceived)
  | transfer (toAddress : Address) (amount : Int) (operatorData : List UInt8)
  | transferFrom (fromAddr toAddress : Address) (amount : Int) (operatorData : List UInt8)
  | burn (amount : Int)
  | burnFrom (owner : Address) (amount : Int)
  | mint (toAddress : Address) (amount : Int) (operators : List Address)
  | destroy (owner : Address) (amount : Int)
  | increaseAllowance (operator : Address) (increase : Int)
  | decreaseAllowance (operator : Address) (decrease : Int)
  | revokeAllowance (operator : Address)

/-- The world a message from `caller` leaves, or its error. -/
def step (env : Env) (caller : Address) : Call → World → Except ActorError World
  | .addVerifier params, w => addVerifier env caller params w
  | .removeVerifier verifier, w => removeVerifier env caller verifier w
  | .addVerifiedClient params, w => addVerifiedClient env caller params w
  | .removeVerifiedClientDataCap params, w =>
    Prod.snd <$> removeVerifiedClientDataCap env caller params w
  | .removeExpiredAllocations params, w => Prod.snd <$> removeExpiredAllocations env params w
  | .claimAllocations params, w => Prod.snd <$> claimAllocations env caller params w
  | .extendClaimTerms terms, w => pure (extendClaimTerms env caller terms w).2
  | .removeExpiredClaims params, w => Prod.snd <$> removeExpiredClaims env params w
  | .universalReceiverHook received, w => Prod.snd <$> universalReceiverHook env caller received w
  | .transfer toAddress amount operatorData, w =>
    w.transfer env caller toAddress amount operatorData
  | .transferFrom fromAddr toAddress amount operatorData, w =>
    w.transferFrom env caller fromAddr toAddress amount operatorData
  | .burn amount, w => w.burn caller amount
  | .burnFrom owner amount, w => w.burnFrom caller owner amount
  | .mint toAddress amount operators, w => w.mint env caller toAddress amount operators
  | .destroy owner amount, w => w.destroy caller owner amount
  | .increaseAllowance operator increase, w => do
    let (_, datacap) ← w.datacap.increaseAllowance caller operator increase
    pure { w with datacap }
  | .decreaseAllowance operator decrease, w => do
    let (_, datacap) ← w.datacap.decreaseAllowance caller operator decrease
    pure { w with datacap }
  | .revokeAllowance operator, w =>
    pure { w with datacap := (w.datacap.revokeAllowance caller operator).2 }

/-- A message sent from outside the two actors, with the environment it
runs in. -/
structure Message where
  env : Env
  caller : Address
  call : Call

/-- The messages of a run, each of them successful. -/
def run : List Message → World → Except ActorError World
  | [], w => pure w
  | m :: ms, w => do
    let w ← step m.env m.caller m.call w
    run ms w

end BuiltinActors.Verifreg
