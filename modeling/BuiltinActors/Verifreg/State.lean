import BuiltinActors.Runtime.Util

/-! # The verified registry's state

Verifiers with the DataCap each may still give out, the allocations clients
have made of their DataCap, and the claims providers have made of those
allocations. One counter names both: an allocation takes the next ID when it
is made and keeps it as a claim. Allocations are kept by client and claims by
provider, each a map of maps; the verifiers are keyed by ID address. -/

namespace BuiltinActors.Verifreg

/-- The verified-allocation values of the network policy. -/
structure Policy where
  minimumVerifiedAllocationSize : Int
  minimumVerifiedAllocationTerm : Int
  maximumVerifiedAllocationTerm : Int
  maximumVerifiedAllocationExpiration : Int

/-- The main network's policy. -/
def Policy.default : Policy where
  minimumVerifiedAllocationSize := 2 ^ 20
  minimumVerifiedAllocationTerm := 180 * epochsInDay
  maximumVerifiedAllocationTerm := 5 * epochsInYear
  maximumVerifiedAllocationExpiration := 60 * epochsInDay

structure Allocation where
  client : Nat
  provider : Nat
  data : Cid
  size : UInt64
  termMin : Int
  termMax : Int
  expiration : Int
deriving DecidableEq, Repr

structure Claim where
  provider : Nat
  client : Nat
  data : Cid
  size : UInt64
  termMin : Int
  termMax : Int
  termStart : Int
  sector : Nat
deriving DecidableEq, Repr

/-- The DataCap an allocation or a claim stands for, in whole units. -/
def Allocation.datacap (a : Allocation) : Int := a.size.toNat

def Claim.datacap (c : Claim) : Int := c.size.toNat

structure State where
  rootKey : Address
  verifiers : OrdMap Address Int
  /-- The next proposal ID of each verifier and client pair, verifier first. -/
  removeDataCapProposalIds : MapMap Nat
  allocations : MapMap Allocation
  nextAllocationId : Nat
  claims : MapMap Claim

namespace State

/-- An empty registry; ID 0 stands for no allocation. -/
def new (rootKey : Address) : State := ⟨rootKey, .empty, .empty, .empty, 1, .empty⟩

/-- Adds a verifier and cap, overwriting any existing cap for that verifier. -/
def putVerifier (st : State) (verifier : Address) (cap : Int) : State :=
  { st with verifiers := st.verifiers.set verifier cap }

def removeVerifier (st : State) (verifier : Address) : Except ActorError State :=
  match st.verifiers.get? verifier with
  | none => throw (.illegalArgument "verifier not found")
  | some _ => pure { st with verifiers := st.verifiers.erase verifier }

def getVerifierCap (st : State) (verifier : Address) : Option Int := st.verifiers.get? verifier

/-- Stores a batch of allocations of one client under consecutive IDs from
the next free one, and returns those IDs. -/
def insertAllocations (st : State) (client : Nat) (newAllocs : List Allocation) :
    List Nat × State :=
  if newAllocs.isEmpty then ([], st)
  else
    let firstId := st.nextAllocationId
    let ids := List.range' firstId newAllocs.length
    (ids, { st with
      allocations := st.allocations.putMany client (ids.zip newAllocs)
      nextAllocationId := firstId + newAllocs.length })

/-- Stores each claim under its provider, over any claim of the same ID there. -/
def putClaims (st : State) (claims : List (Nat × Claim)) : State :=
  { st with claims := claims.foldl (fun m e => m.put e.2.provider e.1 e.2) st.claims }

/-- The DataCap of every allocation not yet claimed or removed. -/
def allocatedDatacap (st : State) : Int := st.allocations.total Allocation.datacap

@[simp] theorem verifiers_putVerifier (st : State) (verifier : Address) (cap : Int) :
    (st.putVerifier verifier cap).verifiers = st.verifiers.set verifier cap := rfl

@[simp] theorem rootKey_putVerifier (st : State) (verifier : Address) (cap : Int) :
    (st.putVerifier verifier cap).rootKey = st.rootKey := rfl

theorem removeVerifier_eq_ok {st st' : State} {verifier : Address} :
    st.removeVerifier verifier = .ok st' ↔ (st.verifiers.get? verifier).isSome ∧
      st' = { st with verifiers := st.verifiers.erase verifier } := by
  unfold removeVerifier
  cases st.verifiers.get? verifier <;>
    simp [throw, throwThe, MonadExceptOf.throw, pure, Except.pure, eq_comm]

end State

/-! ## Expiration -/

/-- Something with an expiration epoch. -/
class Expires (α : Type) where
  expiration : α → Int

instance : Expires Allocation := ⟨Allocation.expiration⟩

/-- A claim expires when its maximum term from its start has passed. -/
instance : Expires Claim := ⟨fun c => c.termStart + c.termMax⟩

variable {α : Type} [Expires α]

/-- The IDs of an owner's records that have expired. -/
def findExpired (collection : MapMap α) (owner : Nat) (currEpoch : Int) : List Nat :=
  (collection.entriesIn owner).filterMap fun e =>
    if currEpoch ≥ Expires.expiration e.2 then some e.1 else none

/-- One candidate's outcome: expired, not expired, or not the owner's. -/
def checkExpiredOne (collection : MapMap α) (owner : Nat) (currEpoch : Int)
    (gen : BatchReturnGen) (id : Nat) : BatchReturnGen :=
  match collection.get owner id with
  | some record =>
    if currEpoch ≥ Expires.expiration record then gen.addSuccess
    else gen.addFail .usrForbidden
  | none => gen.addFail .usrNotFound

/-- The outcome of each candidate: a success for an expired record of the owner. -/
def checkExpired (collection : MapMap α) (candidates : List Nat) (owner : Nat)
    (currEpoch : Int) : BatchReturn :=
  (candidates.foldl (checkExpiredOne collection owner currEpoch)
    (BatchReturnGen.new candidates.length)).generate

end BuiltinActors.Verifreg
