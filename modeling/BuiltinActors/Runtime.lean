import Mathlib.Data.Int.Init
import Mathlib.Algebra.Ring.Int.Defs
import Mathlib.Order.Basic
import Mathlib.Order.Nat

/-! # What the actors use of their runtime

Exit codes and actor errors, the ID addresses of the singleton actors, the
check of a message's immediate caller, and the network clock's constants.

An actor method returns `Except ActorError`; a method that fails aborts the
message and every state change it made. The errors of the state methods are
plain messages (`anyhow` errors in the source); a method turns one into an
actor error with a default exit code and a context line. -/

namespace BuiltinActors

/-- A message's exit code, by its number. -/
structure ExitCode where
  value : Nat
deriving DecidableEq, Repr

namespace ExitCode

def usrIllegalArgument : ExitCode := ⟨16⟩
def usrNotFound : ExitCode := ⟨17⟩
def usrForbidden : ExitCode := ⟨18⟩
def usrInsufficientFunds : ExitCode := ⟨19⟩
def usrIllegalState : ExitCode := ⟨20⟩
def usrSerialization : ExitCode := ⟨21⟩
def usrUnspecified : ExitCode := ⟨23⟩
/-- Also the code of an actor that panicked: the runtime's panic hook aborts
the message with it. -/
def usrAssertionFailed : ExitCode := ⟨24⟩
def usrReadOnly : ExitCode := ⟨25⟩

end ExitCode

structure ActorError where
  exitCode : ExitCode
  msg : String
deriving DecidableEq, Repr

namespace ActorError

def illegalArgument (msg : String) : ActorError := ⟨.usrIllegalArgument, msg⟩
def notFound (msg : String) : ActorError := ⟨.usrNotFound, msg⟩
def forbidden (msg : String) : ActorError := ⟨.usrForbidden, msg⟩
def insufficientFunds (msg : String) : ActorError := ⟨.usrInsufficientFunds, msg⟩
def illegalState (msg : String) : ActorError := ⟨.usrIllegalState, msg⟩
def serialization (msg : String) : ActorError := ⟨.usrSerialization, msg⟩
def unspecified (msg : String) : ActorError := ⟨.usrUnspecified, msg⟩
def readOnly (msg : String) : ActorError := ⟨.usrReadOnly, msg⟩

/-- A panic: the runtime's panic hook aborts the message with
`USR_ASSERTION_FAILED` and the panic's message. -/
def panicked (msg : String) : ActorError := ⟨.usrAssertionFailed, msg⟩

/-- A send that failed, as its sender sees it (`extract_send_result`): the
callee's exit code, its message replaced. -/
def sendAborted (e : ActorError) : ActorError :=
  ⟨e.exitCode, s!"send aborted with code {e.exitCode.value}"⟩

/-- What `downcast_default` makes of an error that carries no exit code: the
default code, and the message behind the context line. -/
def downcastDefault (defaultExitCode : ExitCode) (context : String) (e : String) : ActorError :=
  ⟨defaultExitCode, context ++ ": " ++ e⟩

/-- How an actor error prints: the derived display of the source. -/
instance : ToString ActorError :=
  ⟨fun e => s!"ActorError(exit_code: ExitCode \x7b value: {e.exitCode.value} \x7d, msg: {e.msg})"⟩

/-- The message of an error behind a context line, its exit code kept
(`.context` on an actor error). -/
def context (ctx : String) (e : ActorError) : ActorError :=
  { e with msg := ctx ++ ": " ++ e.msg }

/-- A new exit code and a context line before the whole printed error
(`with_context_code` on an actor error). -/
def withContextCode (code : ExitCode) (ctx : String) (e : ActorError) : ActorError :=
  ⟨code, ctx ++ ": " ++ toString e⟩

end ActorError

/-- An ID address. -/
structure Address where
  id : Nat
deriving DecidableEq, Repr

/-- Addresses print with the main network's prefix. -/
instance : ToString Address := ⟨fun a => "f0" ++ toString a.id⟩

/-- A content identifier: its version, codec and multihash, by number. -/
structure Cid where
  version : Nat
  codec : Nat
  hashCode : Nat
  digest : List UInt8
deriving DecidableEq, Repr

instance : ToString Cid := ⟨fun c => s!"cid({c.codec}, {c.hashCode}, {c.digest.length})"⟩

/-- The builtin actor types, as the runtime resolves them from a code CID. -/
inductive ActorType
  | system | init | cron | account | power | miner | market | paymentChannel
  | multisig | reward | verifiedRegistry | dataCap | placeholder | evm | eam | ethAccount
deriving DecidableEq, Repr

/-- An actor type as the runtime prints it. -/
instance : ToString ActorType := ⟨fun
  | .system => "System" | .init => "Init" | .cron => "Cron" | .account => "Account"
  | .power => "Power" | .miner => "Miner" | .market => "Market"
  | .paymentChannel => "PaymentChannel" | .multisig => "Multisig" | .reward => "Reward"
  | .verifiedRegistry => "VerifiedRegistry" | .dataCap => "DataCap"
  | .placeholder => "Placeholder" | .evm => "EVM" | .eam => "EAM" | .ethAccount => "EthAccount"⟩

/-- Addresses in the order of their IDs, the order in which the maps keyed by
address are modelled. -/
instance : LinearOrder Address :=
  LinearOrder.lift' Address.id fun ⟨_⟩ ⟨_⟩ h => congrArg Address.mk h

def initActorAddr : Address := ⟨1⟩
def rewardActorAddr : Address := ⟨2⟩
def storagePowerActorAddr : Address := ⟨4⟩
def storageMarketActorAddr : Address := ⟨5⟩
def verifiedRegistryActorAddr : Address := ⟨6⟩
def datacapTokenActorAddr : Address := ⟨7⟩
def burntFundsActorAddr : Address := ⟨99⟩

/-- Passes when the message's immediate caller is one of `addresses`. -/
def validateImmediateCallerIs (caller : Address) (addresses : List Address) :
    Except ActorError Unit :=
  if addresses.any (· == caller) then pure ()
  else throw (.forbidden s!"caller {caller} is not one of supported")

theorem validateImmediateCallerIs_eq_ok {caller : Address} {addresses : List Address} {u : Unit} :
    validateImmediateCallerIs caller addresses = .ok u ↔ caller ∈ addresses := by
  unfold validateImmediateCallerIs
  by_cases h : caller ∈ addresses
  · simp [h, pure, Except.pure]
  · simp [h, throw, throwThe, MonadExceptOf.throw]

/-- Passes when the message's immediate caller is a builtin actor of one of
`types`; the caller's code is looked up first, and a caller without code
panics. -/
def validateImmediateCallerType (getActorCodeCid : Nat → Option Cid)
    (resolveBuiltinActorType : Cid → Option ActorType) (caller : Address)
    (types : List ActorType) : Except ActorError Unit :=
  match getActorCodeCid caller.id with
  | none => throw (.panicked "failed to lookup caller code")
  | some callerCid =>
    match resolveBuiltinActorType callerCid with
    | some typ => if typ ∈ types then pure ()
      else throw (.forbidden s!"caller cid type {callerCid} not one of supported")
    | none => throw (.forbidden s!"caller cid type {callerCid} not one of supported")

/-- The actor ID of an address (`resolve_to_actor_id`), once the actor is
known to exist where `checkExistence` asks for it. Parameters carry ID
addresses, which resolve to themselves. -/
def resolveToActorId (getActorCodeCid : Nat → Option Cid) (address : Address)
    (checkExistence : Bool) : Except ActorError Nat :=
  if checkExistence && (getActorCodeCid address.id).isNone then
    throw (.notFound s!"no code for address {address}")
  else pure address.id

theorem resolveToActorId_eq_ok {getActorCodeCid : Nat → Option Cid} {address : Address}
    {checkExistence : Bool} {id : Nat} :
    resolveToActorId getActorCodeCid address checkExistence = .ok id ↔
      id = address.id ∧ (checkExistence = true → (getActorCodeCid address.id).isSome) := by
  unfold resolveToActorId
  by_cases hc : checkExistence <;> cases getActorCodeCid address.id <;>
    simp [hc, throw, throwThe, MonadExceptOf.throw, pure, Except.pure, eq_comm]

/-- A state transaction: the method's writes are kept when it returns and
dropped when it fails. -/
def transaction {σ α : Type} (f : EStateM ActorError σ α) (st : σ) : Except ActorError (α × σ) :=
  match f st with
  | .ok a st' => .ok (a, st')
  | .error e _ => .error e

theorem transaction_eq_ok {σ α : Type} {f : EStateM ActorError σ α} {st st' : σ} {a : α} :
    transaction f st = .ok (a, st') ↔ f st = .ok a st' := by
  unfold transaction
  cases f st <;> simp

/-! ## The network clock -/

def epochDurationSeconds : Int := 30
def secondsInHour : Int := 3600
def secondsInDay : Int := 86400
def secondsInYear : Int := 31556925
def epochsInHour : Int := secondsInHour / epochDurationSeconds
def epochsInDay : Int := secondsInDay / epochDurationSeconds
def epochsInYear : Int := secondsInYear / epochDurationSeconds

/-- A whole number of tokens in atto units (`TokenAmount::from_whole`). -/
def fromWhole (n : Int) : Int := n * 10 ^ 18

end BuiltinActors
