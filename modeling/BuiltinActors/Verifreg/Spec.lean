import BuiltinActors.Lib.Except
import BuiltinActors.Verifreg.Actor

/-! # What each method does

One lemma for each method of the two actors and for each send between them:
what a successful call has checked, and the world it leaves, in terms of the
calls it made. The invariant proofs read the methods through these lemmas
only. -/

namespace BuiltinActors.Verifreg

open Datacap (TokensReceived TokenState)

variable {env : Env} {w w' : World}

/-! ## The DataCap actor's methods in the world -/

theorem World.burn_eq_ok {caller : Address} {amount : Int} (h : w.burn caller amount = .ok w') :
    w'.registry = w.registry ∧ w'.datacap.governor = w.datacap.governor ∧
      w.datacap.token.burn caller.id amount = .ok w'.datacap.token := by
  simp only [World.burn, Except.bind_eq_ok, Except.pure_eq_ok] at h
  obtain ⟨datacap, hdc, rfl⟩ := h
  obtain ⟨token, htoken, rfl⟩ := Datacap.State.burn_eq_ok.mp hdc
  exact ⟨rfl, rfl, htoken⟩

theorem World.burnFrom_eq_ok {caller owner : Address} {amount : Int}
    (h : w.burnFrom caller owner amount = .ok w') :
    w'.registry = w.registry ∧ w'.datacap.governor = w.datacap.governor ∧
      w.datacap.token.burnFrom caller.id owner.id amount = .ok w'.datacap.token := by
  simp only [World.burnFrom, Except.bind_eq_ok, Except.pure_eq_ok] at h
  obtain ⟨datacap, hdc, rfl⟩ := h
  obtain ⟨token, htoken, rfl⟩ := Datacap.State.burnFrom_eq_ok.mp hdc
  exact ⟨rfl, rfl, htoken⟩

theorem World.destroy_eq_ok {caller owner : Address} {amount : Int}
    (h : w.destroy caller owner amount = .ok w') :
    caller = w.datacap.governor ∧ w'.registry = w.registry ∧
      w'.datacap.governor = w.datacap.governor ∧
      w.datacap.token.burn owner.id amount = .ok w'.datacap.token := by
  simp only [World.destroy, Except.bind_eq_ok, Except.pure_eq_ok] at h
  obtain ⟨datacap, hdc, rfl⟩ := h
  obtain ⟨hcaller, token, htoken, rfl⟩ := Datacap.State.destroy_eq_ok.mp hdc
  exact ⟨hcaller, rfl, rfl, htoken⟩

/-- The registry's burn of its own DataCap takes it off the registry's
balance and changes nothing else. -/
theorem burn_eq_ok {amount : Int} (h : burn w amount = .ok w') :
    w'.registry = w.registry ∧ w'.datacap.governor = w.datacap.governor ∧
      ∀ a, w'.datacap.token.balanceOf a = w.datacap.token.balanceOf a -
        (if a = verifiedRegistryActorAddr.id then datacapToTokens amount else 0) := by
  unfold burn at h
  split at h
  · next h0 =>
    cases Except.pure_eq_ok.mp h
    refine ⟨rfl, rfl, fun a => ?_⟩
    simp [h0, datacapToTokens]
  · obtain ⟨hreg, hgov, htoken⟩ := World.burn_eq_ok (Except.mapError_eq_ok.mp h)
    exact ⟨hreg, hgov, TokenState.balanceOf_of_burn htoken⟩

/-- What a successful receiver hook did: the DataCap actor called it for
tokens sent to the registry; the operator data decoded to requests that
passed their checks and add up to the amount received; the DataCap of the
extensions was burnt; and the new allocations and extended claims were
stored. -/
theorem universalReceiverHook_eq_ok {caller : Address} {received : TokensReceived}
    {r : AllocationsResponse} (h : universalReceiverHook env caller received w = .ok (r, w')) :
    caller = datacapTokenActorAddr ∧ received.toId = verifiedRegistryActorAddr.id ∧
    ∃ reqs newAllocs updatedClaims w₁,
      env.deserializeAllocationRequests received.operatorData = some reqs ∧
      newAllocations env received.fromId reqs.allocations = .ok newAllocs ∧
      claimExtensions env w.registry.claims reqs.extensions = .ok updatedClaims ∧
      (newAllocs.map Allocation.datacap).sum + (updatedClaims.map fun e => e.2.datacap).sum =
        tokensToDatacap received.amount ∧
      burn w (updatedClaims.map fun e => e.2.datacap).sum = .ok w₁ ∧
      w' = { w₁ with registry :=
        (w₁.registry.insertAllocations received.fromId newAllocs).2.putClaims updatedClaims } := by
  simp only [universalReceiverHook, Except.bind_eq_ok, validateImmediateCallerIs_eq_ok,
    List.mem_singleton, Except.throw_bind, Except.ite_throw_eq_ok, not_not] at h
  obtain ⟨_, hcaller, hto, h⟩ := h
  split at h
  · next reqs hreqs =>
    simp only [Except.bind_eq_ok, Except.ite_throw_eq_ok, not_not, Except.pure_eq_ok,
      Prod.mk.injEq] at h
    obtain ⟨newAllocs, hnew, updatedClaims, hupd, htotal, w₁, hburn, -, rfl⟩ := h
    exact ⟨hcaller, hto, reqs, newAllocs, updatedClaims, w₁, hreqs, hnew, hupd, htotal, hburn, rfl⟩
  · exact absurd h Except.throw_ne_ok

theorem receiverHook_eq_ok {received : TokensReceived} (h : receiverHook env received w = .ok w') :
    (received.toId = verifiedRegistryActorAddr.id ∧
      ∃ r, universalReceiverHook env datacapTokenActorAddr received w = .ok (r, w')) ∨
    (received.toId ≠ verifiedRegistryActorAddr.id ∧ env.receiverHook received = .ok () ∧
      w' = w) := by
  unfold receiverHook at h
  split at h
  · next hto =>
    obtain ⟨⟨r, w''⟩, hhook, rfl⟩ := Except.map_eq_ok.mp h
    exact .inl ⟨hto, r, hhook⟩
  · next hto =>
    obtain ⟨u, hu, rfl⟩ := Except.map_eq_ok.mp h
    exact .inr ⟨hto, hu, rfl⟩

theorem World.mint_eq_ok {caller toAddress : Address} {amount : Int} {operators : List Address}
    (h : w.mint env caller toAddress amount operators = .ok w') :
    caller = w.datacap.governor ∧
    ∃ token, w.datacap.token.mint toAddress.id amount = .ok token ∧
      receiverHook env ⟨w.datacap.governor.id, datacapTokenActorAddr.id, toAddress.id, amount, []⟩
        { w with datacap := { w.datacap with token := (operators.foldl
          (fun t delegate => t.setAllowance toAddress.id delegate.id
            Datacap.infiniteAllowance) token) } } = .ok w' := by
  simp only [World.mint, Except.bind_eq_ok] at h
  obtain ⟨⟨received, datacap⟩, hdc, hhook⟩ := h
  obtain ⟨hcaller, token, htoken, rfl, rfl⟩ := Datacap.State.mint_eq_ok.mp hdc
  exact ⟨hcaller, token, htoken, hhook⟩

theorem World.transfer_eq_ok {caller toAddress : Address} {amount : Int}
    {operatorData : List UInt8} (h : w.transfer env caller toAddress amount operatorData = .ok w') :
    (toAddress = w.datacap.governor ∨ caller = w.datacap.governor) ∧
    ∃ token, w.datacap.token.transfer caller.id toAddress.id amount = .ok token ∧
      receiverHook env ⟨caller.id, caller.id, toAddress.id, amount, operatorData⟩
        { w with datacap := { w.datacap with token } } = .ok w' := by
  simp only [World.transfer, Except.bind_eq_ok] at h
  obtain ⟨⟨received, datacap⟩, hdc, hhook⟩ := h
  obtain ⟨hallowed, token, htoken, rfl, rfl⟩ := Datacap.State.transfer_eq_ok.mp hdc
  exact ⟨hallowed, token, htoken, hhook⟩

theorem World.transferFrom_eq_ok {caller fromAddr toAddress : Address} {amount : Int}
    {operatorData : List UInt8}
    (h : w.transferFrom env caller fromAddr toAddress amount operatorData = .ok w') :
    toAddress = w.datacap.governor ∧
    ∃ token, w.datacap.token.transferFrom caller.id fromAddr.id toAddress.id amount = .ok token ∧
      receiverHook env ⟨caller.id, fromAddr.id, toAddress.id, amount, operatorData⟩
        { w with datacap := { w.datacap with token } } = .ok w' := by
  simp only [World.transferFrom, Except.bind_eq_ok] at h
  obtain ⟨⟨received, datacap⟩, hdc, hhook⟩ := h
  obtain ⟨hallowed, token, htoken, rfl, rfl⟩ := Datacap.State.transferFrom_eq_ok.mp hdc
  exact ⟨hallowed, token, htoken, hhook⟩

/-! ## The registry's sends -/

theorem destroy_eq_ok {owner : Address} {amount : Int} (h : destroy w owner amount = .ok w') :
    (amount = 0 ∧ w' = w) ∨
      w.destroy verifiedRegistryActorAddr owner (datacapToTokens amount) = .ok w' := by
  unfold destroy at h
  split at h
  · next h0 => exact .inl ⟨h0, (Except.pure_eq_ok.mp h).symm⟩
  · exact .inr (Except.mapError_eq_ok.mp h)

/-! ## Verifiers and clients -/

theorem addVerifier_eq_ok {caller : Address} {params : VerifierParams}
    (h : addVerifier env caller params w = .ok w') :
    env.policy.minimumVerifiedAllocationSize ≤ params.allowance ∧
    (env.getActorCodeCid params.address.id).isSome ∧
    caller = w.registry.rootKey ∧ params.address ≠ w.registry.rootKey ∧
    balance w params.address ≤ 0 ∧
    w' = { w with registry := w.registry.putVerifier params.address params.allowance } := by
  simp only [addVerifier, Except.bind_eq_ok, Except.throw_bind, Except.ite_throw_eq_ok,
    resolveToActorId_eq_ok, validateImmediateCallerIs_eq_ok, List.mem_singleton,
    Except.pure_eq_ok, not_lt] at h
  obtain ⟨hmin, _, ⟨rfl, hcode⟩, _, hroot, hnotroot, hbal, rfl⟩ := h
  exact ⟨hmin, hcode trivial, hroot, hnotroot, hbal, rfl⟩

theorem removeVerifier_eq_ok {caller verifier : Address}
    (h : removeVerifier env caller verifier w = .ok w') :
    caller = w.registry.rootKey ∧ (w.registry.verifiers.get? verifier).isSome ∧
    w' = { w with registry := { w.registry with verifiers := w.registry.verifiers.erase verifier } } := by
  simp only [removeVerifier, Except.bind_eq_ok, resolveToActorId_eq_ok,
    validateImmediateCallerIs_eq_ok, List.mem_singleton, Except.pure_eq_ok,
    Except.mapError_eq_ok] at h
  obtain ⟨_, ⟨rfl, -⟩, _, hroot, registry, hremove, rfl⟩ := h
  obtain ⟨hsome, rfl⟩ := State.removeVerifier_eq_ok.mp hremove
  exact ⟨hroot, hsome, rfl⟩

/-- A verifier gave a client, which is neither the root key nor a verifier,
DataCap out of its allowance: the registry lowered the allowance and minted
the DataCap to the client. -/
theorem addVerifiedClient_eq_ok {caller : Address} {params : VerifierParams}
    (h : addVerifiedClient env caller params w = .ok w') :
    env.policy.minimumVerifiedAllocationSize ≤ params.allowance ∧
    params.address ≠ w.registry.rootKey ∧ w.registry.getVerifierCap params.address = none ∧
    ∃ verifierCap, w.registry.getVerifierCap caller = some verifierCap ∧
      params.allowance ≤ verifierCap ∧
      mint env { w with registry := w.registry.putVerifier caller (verifierCap - params.allowance) }
        params.address params.allowance [storageMarketActorAddr] = .ok w' := by
  simp only [addVerifiedClient, Except.bind_eq_ok, Except.throw_bind, Except.ite_throw_eq_ok,
    resolveToActorId_eq_ok, not_lt] at h
  obtain ⟨hmin, _, ⟨rfl, -⟩, hroot, h⟩ := h
  split at h
  · next verifierCap hcap =>
    simp only [Except.ite_throw_eq_ok, Option.isSome_iff_ne_none, not_not, not_lt,
      Except.mapError_eq_ok] at h
    obtain ⟨hclient, hle, hmint⟩ := h
    exact ⟨hmin, hroot, hclient, verifierCap, hcap, hle, hmint⟩
  · exact absurd h Except.throw_ne_ok

/-- The root key removed DataCap from a client: the proposal IDs moved on and
at most the client's balance was destroyed. -/
theorem removeVerifiedClientDataCap_eq_ok {caller : Address} {params : RemoveDataCapParams}
    {r : RemoveDataCapReturn} (h : removeVerifiedClientDataCap env caller params w = .ok (r, w')) :
    caller = w.registry.rootKey ∧ ∃ proposalIds burnt,
      destroy { w with registry := { w.registry with removeDataCapProposalIds := proposalIds } }
        params.verifiedClientToRemove burnt = .ok w' := by
  simp only [removeVerifiedClientDataCap, Except.bind_eq_ok, Except.throw_bind,
    Except.ite_throw_eq_ok, resolveToActorId_eq_ok, validateImmediateCallerIs_eq_ok,
    List.mem_singleton, Except.pure_eq_ok, Except.mapError_eq_ok, Prod.mk.injEq] at h
  obtain ⟨_, ⟨rfl, -⟩, _, -, _, -, -, _, hroot, -, -, -, _, -, _, -, w₁, hdestroy, -, rfl⟩ := h
  exact ⟨hroot, _, _, hdestroy⟩

/-! ## Expiry and claims -/

/-- Expired allocations were removed from the client and their DataCap sent
back to it. -/
theorem removeExpiredAllocations_eq_ok {params : RemoveExpiredAllocationsParams}
    {r : RemoveExpiredAllocationsReturn} (h : removeExpiredAllocations env params w = .ok (r, w')) :
    ∃ allocs removed,
      removeEach params.client
        (selectExpired w.registry.allocations params.client params.allocationIds env.currEpoch).2.2
        w.registry.allocations = .ok (allocs, removed) ∧
      r.datacapRecovered = (removed.map Allocation.datacap).sum ∧
      transfer env { w with registry := { w.registry with allocations := allocs } } params.client
        (removed.map Allocation.datacap).sum = .ok w' := by
  simp only [removeExpiredAllocations, Except.bind_eq_ok, Except.pure_eq_ok,
    Except.mapError_eq_ok, Prod.mk.injEq] at h
  obtain ⟨⟨allocs, removed⟩, hremove, w₁, htransfer, hr, rfl⟩ := h
  exact ⟨allocs, removed, hremove, by rw [← hr], htransfer⟩

theorem removeExpiredClaims_eq_ok {params : RemoveExpiredClaimsParams}
    {r : RemoveExpiredClaimsReturn} (h : removeExpiredClaims env params w = .ok (r, w')) :
    ∃ claims removed,
      removeEach params.provider
        (selectExpired w.registry.claims params.provider params.claimIds env.currEpoch).2.2
        w.registry.claims = .ok (claims, removed) ∧
      w' = { w with registry := { w.registry with claims } } := by
  simp only [removeExpiredClaims, Except.bind_eq_ok, Except.pure_eq_ok, Prod.mk.injEq] at h
  obtain ⟨⟨claims, removed⟩, hremove, -, rfl⟩ := h
  exact ⟨claims, removed, hremove, rfl⟩

/-- A miner's claims were stored and the allocations they claim removed, and
the DataCap of the space claimed was burnt. -/
theorem claimAllocations_eq_ok {caller : Address} {params : ClaimAllocationsParams}
    {r : ClaimAllocationsReturn} (h : claimAllocations env caller params w = .ok (r, w')) :
    ∃ acc, claimSectors env caller.id params.sectors
        ⟨w.registry.claims, w.registry.allocations, .new params.sectors.length, [], 0⟩ = .ok acc ∧
      burn { w with registry := { w.registry with claims := acc.claims, allocations := acc.allocs } }
        acc.totalClaimedSpace = .ok w' := by
  simp only [claimAllocations, Except.bind_eq_ok, Except.throw_bind, Except.ite_throw_eq_ok,
    Except.pure_eq_ok, Except.mapError_eq_ok, Prod.mk.injEq] at h
  obtain ⟨_, -, -, acc, hloop, -, w₁, hburn, -, rfl⟩ := h
  exact ⟨acc, hloop, hburn⟩

end BuiltinActors.Verifreg
