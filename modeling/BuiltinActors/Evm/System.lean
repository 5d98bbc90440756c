import BuiltinActors.Evm.Memory
import BuiltinActors.Lib.OrdMap

/-! # The EVM actor's system

`System` (`interpreter/system.rs`) holds the contract's persistent state while
it runs: its storage and transient slots, nonce, bytecode and tombstone, and
the state root it last saved them under, `None` once any of them changed. A
flush saves them and sets the new root; a send flushes first and, when the
callee succeeded, reloads the state a callee may have changed. A read-only
system, the callee of a STATICCALL or any call the runtime runs read-only,
refuses to flush a changed state and never reloads.

What the actor does through its runtime is recorded in the system: the
messages it sent, the events it emitted and the state roots it set. Every
answer of the runtime (`Env`) may depend on the messages sent before it.

The methods take the system by mutable reference, so a method that fails after
a change keeps it: those return the system beside their result. The slots are
keyed by the value of their `U256` key. -/

namespace BuiltinActors.Evm

/-- `SendFlags`, of which the actors use the read-only bit. -/
structure SendFlags where
  readOnly : Bool
deriving DecidableEq, Repr

namespace SendFlags

/-- `SendFlags::default()`: no flag set. -/
instance : Inhabited SendFlags := ⟨⟨false⟩⟩

/-- `SendFlags::READ_ONLY`. -/
def readOnlyFlags : SendFlags := ⟨true⟩

/-- `SendFlags::from_bits`: the read-only bit is the only one defined. -/
def fromBits (bits : Nat) : Option SendFlags :=
  if bits = 0 then some ⟨false⟩ else if bits = 1 then some ⟨true⟩ else none

end SendFlags

abbrev EthAddress := BitVec 160

/-- A Filecoin address, as the actor builds them. -/
inductive FilAddress
  | id (id : Nat)
  | delegated (ns : Nat) (subaddress : EthAddress)
  /-- Any other address, by its bytes. -/
  | bytes (raw : List UInt8)
deriving DecidableEq, Repr

def eamActorId : Nat := 10

def eamActorAddr : FilAddress := .id eamActorId

namespace EthAddress

/-- `From<U256>`: the low 20 bytes of the word. -/
def ofWord (w : U256) : EthAddress := w.setWidth 160

/-- The first byte is `0xff` and the next eleven are zero. -/
def isId (a : EthAddress) : Bool := a.extractLsb' 152 8 == 0xff && a.extractLsb' 64 88 == 0

def asId (a : EthAddress) : Option Nat := if a.isId then some (a.extractLsb' 0 64).toNat else none

/-- `From<&EthAddress> for Address`: an embedded ID, or an address in the
EAM's namespace. -/
def toAddress (a : EthAddress) : FilAddress :=
  match a.asId with
  | some id => .id id
  | none => .delegated eamActorId a

def isNull (a : EthAddress) : Bool := a == 0

end EthAddress

/-- A syscall error, by its number. -/
structure ErrorNumber where
  code : Nat
deriving DecidableEq, Repr

namespace ErrorNumber

def limitExceeded : ErrorNumber := ⟨3⟩
def insufficientFunds : ErrorNumber := ⟨5⟩
def notFound : ErrorNumber := ⟨6⟩
def readOnly : ErrorNumber := ⟨13⟩

end ErrorNumber

/-- `From<SendError> for ActorError`. -/
def sendErrorToActorError (e : ErrorNumber) : ActorError :=
  if e = .notFound then .unspecified "receiver not found"
  else if e = .insufficientFunds then .insufficientFunds "not enough funds"
  else if e = .limitExceeded then .panicked "recursion limit exceeded"
  else if e = .readOnly then .readOnly "attempted to mutate state while in readonly mode"
  else .panicked s!"unexpected error: {e.code}"

/-- A block of data and the codec it is encoded with. -/
structure IpldBlock where
  codec : Nat
  data : List UInt8

/-- A callee's answer: its exit code and its return block. -/
structure Response where
  exitCode : ExitCode
  returnData : Option IpldBlock

/-- `ExitCode::is_success`. -/
def isSuccess (c : ExitCode) : Bool := c.value == 0

/-- A message the actor sent. -/
structure SentMessage where
  dest : FilAddress
  method : Nat
  value : Int
  gasLimit : Option Nat
  flags : SendFlags

/-- An event entry: its key and value. -/
structure Entry where
  key : String
  value : List UInt8

abbrev ActorEvent := List Entry

structure EvmBytecode where
  cid : Cid
  evmHash : U256

structure Tombstone where
  origin : Nat
  nonce : Nat
deriving DecidableEq

structure TransientDataLifespan where
  origin : Nat
  nonce : Nat
deriving DecidableEq

/-- `State`: what a flush stores. -/
structure SavedState where
  bytecode : Cid
  bytecodeHash : U256
  contractState : OrdMap Nat U256
  transientData : Option (OrdMap Nat U256 × TransientDataLifespan)
  nonce : Nat
  tombstone : Option Tombstone

structure System where
  bytecode : Option EvmBytecode
  slots : OrdMap Nat U256
  transientSlots : OrdMap Nat U256
  currentTransientDataLifespan : TransientDataLifespan
  nonce : Nat
  savedStateRoot : Option Cid
  readonly : Bool
  randomness : Option U256
  tombstone : Option Tombstone
  /-- The messages sent through the runtime, oldest first. -/
  sent : List SentMessage
  events : List ActorEvent
  /-- The state roots set through the runtime, oldest first. -/
  stateRoots : List Cid

/-- The precompiles of the two tables, the native ones first. -/
inductive Precompile
  | resolveAddress
  | lookupDelegatedAddress
  | callActor
  | callActorId
  | getRandomness
  | ecRecover
  | sha256
  | ripemd160
  | identity
  | modexp
  | ecAdd
  | ecMul
  | ecPairing
  | blake2f
  | bls12G1add
  | bls12G1msm
  | bls12G2add
  | bls12G2msm
  | bls12Pairing
  | bls12MapFpToG1
  | bls12MapFp2ToG2
deriving DecidableEq, Repr

inductive PrecompileError
  | ecErr
  | incorrectInputSize
  | invalidInput
  | callForbidden
  | transferFailed
  | vmError (e : ActorError)

inductive CallKind
  | call
  | delegateCall
  | staticCall
deriving DecidableEq, Repr

/-- What a precompile is told of the call that reached it. -/
structure PrecompileContext where
  callType : CallKind
  gas : U256
  value : U256

/-- The parameters of `call_actor`, as its input encodes them. -/
structure CallActorParams where
  method : Nat
  value : U256
  flags : Nat
  codec : Nat
  params : List UInt8
  address : FilAddress

/-- `ContractType`: what lives at an address. -/
inductive ContractType
  | precompile
  | evm (addr : FilAddress)
  | native (cid : Cid)
  | account
  | notFound

/-- What the actor reads of its runtime and its blockstore, and the
computations the model takes as given: hashing, CBOR and ABI coding, and the
precompiles other than `call_actor`. Answers after a send may differ from
those before: each reads the messages sent so far. -/
structure Env where
  receiver : FilAddress
  currentBalance : List SentMessage → Int
  gasAvailable : List SentMessage → Nat
  /-- A callee's answer to a message, or the syscall error of its send. -/
  send : List SentMessage → SentMessage → Except ErrorNumber Response
  emitEvent : List SentMessage → ActorEvent → Except ActorError Unit
  /-- The actor's state root; a callee may have changed it. -/
  getStateRoot : List SentMessage → Cid
  /-- The blockstore's root for a stored state, and the state under a root. -/
  putState : SavedState → Cid
  getState : Cid → Option SavedState
  putBytecode : List UInt8 → Cid
  getBlock : Cid → Option (List UInt8)
  keccak : List UInt8 → U256
  currentTombstone : Tombstone
  beaconRandomness : Except ActorError U256
  /-- What the runtime resolves an address that is not a precompile's to. -/
  resolveContractType : List SentMessage → EthAddress → ContractType
  /-- The EAM's answer to a create, read as the new contract's address word. -/
  decodeCreateReturn : Option IpldBlock → Except ActorError U256
  decodeBytecodeCid : Option IpldBlock → Except ActorError (Option Cid)
  decodeBytecodeHash : Option IpldBlock → Except ActorError U256
  /-- The bytes of a block that is a CBOR byte string. -/
  decodeBytes : IpldBlock → Option (List UInt8)
  /-- The parameters of a `call_actor` input, by ID or by address; `none` is
  an input that does not decode. -/
  decodeCallActor : Bool → List UInt8 → Option CallActorParams
  /-- The precompiles other than `call_actor`, which read the runtime only. -/
  precompile : List SentMessage → Precompile → List UInt8 → Except PrecompileError (List UInt8)

/-- A runtime with no actor but this one: every send finds no receiver. -/
instance : Inhabited Env := ⟨{
  receiver := .id 0
  currentBalance := fun _ => 0
  gasAvailable := fun _ => 0
  send := fun _ _ => .error .notFound
  emitEvent := fun _ _ => .ok ()
  getStateRoot := fun _ => ⟨0, 0, 0, []⟩
  putState := fun _ => ⟨0, 0, 0, []⟩
  getState := fun _ => none
  putBytecode := fun _ => ⟨0, 0, 0, []⟩
  getBlock := fun _ => none
  keccak := fun _ => 0
  currentTombstone := ⟨0, 0⟩
  beaconRandomness := .ok 0
  resolveContractType := fun _ _ => .notFound
  decodeCreateReturn := fun _ => .ok 0
  decodeBytecodeCid := fun _ => .ok none
  decodeBytecodeHash := fun _ => .ok 0
  decodeBytes := fun _ => none
  decodeCallActor := fun _ _ => none
  precompile := fun _ _ _ => .ok [] }⟩

/-- A contract just created: no bytecode, no slots, nothing saved or sent. -/
instance : Inhabited System :=
  ⟨⟨none, OrdMap.empty, OrdMap.empty, ⟨0, 0⟩, 0, none, false, none, none, [], [], []⟩⟩

def maxCodeSize : Nat := 24 * 2 ^ 10

def methodSend : Nat := 0

namespace System

variable (env : Env)

/-- The nonce grows, which marks the state changed. -/
def incrementNonce (sys : System) : Except ActorError System :=
  let sys := { sys with savedStateRoot := none }
  if sys.nonce + 1 < 2 ^ 64 then .ok { sys with nonce := sys.nonce + 1 }
  else .error (.panicked "called Option::unwrap() on a None value")

def setBytecode (sys : System) (bytecode : List UInt8) : System × Except ActorError EvmBytecode :=
  let sys := { sys with savedStateRoot := none }
  if maxCodeSize < bytecode.length then
    (sys, throw (.illegalArgument
      s!"EVM byte code length ({bytecode.length}) is exceeding the maximum allowed of {maxCodeSize}"))
  else if bytecode.head? = some 0xEF then
    (sys, throw (.illegalArgument "EIP-3541: Contract code starting with the 0xEF byte is disallowed."))
  else
    let b : EvmBytecode := ⟨env.putBytecode bytecode, env.keccak bytecode⟩
    ({ sys with bytecode := some b }, pure b)

/-- Saves a changed state and sets its root; a read-only system refuses. -/
def flush (sys : System) : Except ActorError System :=
  if sys.savedStateRoot.isSome then pure sys
  else if sys.readonly then throw (.forbidden "contract invocation is read only")
  else do
    -- no bytecode yet: the empty bytecode, which `set_bytecode` always accepts
    let (sys, b) ← (match sys.bytecode with
      | some b => pure (sys, b)
      | none =>
        let (sys, b) := sys.setBytecode env []
        b.map fun b => (sys, b) : Except ActorError (System × EvmBytecode))
    let transientData :=
      if sys.transientSlots.entries.isEmpty then none
      else some (sys.transientSlots, sys.currentTransientDataLifespan)
    let newRoot := env.putState
      ⟨b.cid, b.evmHash, sys.slots, transientData, sys.nonce, sys.tombstone⟩
    pure { sys with stateRoots := sys.stateRoots ++ [newRoot], savedStateRoot := some newRoot }

/-- Loads the state a callee may have changed; a read-only system keeps its own. -/
def reload (sys : System) : Except ActorError System :=
  if sys.readonly then pure sys
  else
    let root := env.getStateRoot sys.sent
    if sys.savedStateRoot = some root then pure sys
    else
      match env.getState root with
      | none => throw ⟨.usrIllegalState, "state not in blockstore"⟩
      | some state =>
        let transientSlots := match state.transientData with
          | some (slots, lifespan) =>
            if lifespan = sys.currentTransientDataLifespan then slots else OrdMap.empty
          | none => OrdMap.empty
        pure { sys with
          transientSlots
          slots := state.contractState
          nonce := state.nonce
          savedStateRoot := some root
          bytecode := some ⟨state.bytecode, state.bytecodeHash⟩
          tombstone := state.tombstone }

/-- `rt.send`: records the message and takes the runtime's answer to it. -/
def rtSend (sys : System) (m : SentMessage) : System × Except ErrorNumber Response :=
  ({ sys with sent := sys.sent ++ [m] }, env.send sys.sent m)

/-- `send_raw`: flushes, sends, and reloads after a callee that succeeded. The
outer error aborts; the inner one is the syscall's. -/
def sendRaw (sys : System) (m : SentMessage) :
    System × Except ActorError (Except ErrorNumber Response) :=
  match sys.flush env with
  | .error e => (sys, .error e)
  | .ok sys =>
    let (sys, result) := sys.rtSend env m
    match result with
    | .ok r =>
      if isSuccess r.exitCode then
        match sys.reload env with
        | .ok sys => (sys, .ok result)
        | .error e => (sys, .error e)
      else (sys, .ok result)
    | .error _ => (sys, .ok result)

/-- `send`: a send whose failures are actor errors, an aborted callee's with
its return data. -/
def send (sys : System) (m : SentMessage) :
    System × Except (ActorError × Option IpldBlock) (Option IpldBlock) :=
  let (sys, result) := sys.sendRaw env m
  match result with
  | .error e => (sys, .error (e, none))
  | .ok (.error _) => (sys, .error (.unspecified s!"send syscall on method {m.method} failed", none))
  | .ok (.ok r) =>
    if isSuccess r.exitCode then (sys, .ok r.returnData)
    else (sys, .error (⟨r.exitCode, s!"failed to call on method {m.method}"⟩, r.returnData))

/-- `transfer`: a plain send of value, without flushing. -/
def transfer (sys : System) (dest : FilAddress) (value : Int) : System × Except ActorError Unit :=
  let (sys, result) := sys.rtSend env ⟨dest, methodSend, value, none, default⟩
  match result with
  | .ok r =>
    if isSuccess r.exitCode then (sys, pure ())
    else (sys, throw ⟨r.exitCode, s!"send aborted with code {r.exitCode.value}"⟩)
  | .error e => (sys, throw (sendErrorToActorError e))

def getStorage (sys : System) (key : U256) : U256 := (sys.slots.get? key.toNat).getD 0

/-- Writes a slot, a zero deleting it; the state is changed only when the slot is. -/
def setStorage (sys : System) (key value : U256) : System :=
  let changed :=
    if value = 0 then (sys.slots.get? key.toNat).isSome else sys.slots.get? key.toNat != some value
  let sys := { sys with
    slots := if value = 0 then sys.slots.erase key.toNat else sys.slots.set key.toNat value }
  if changed then { sys with savedStateRoot := none } else sys

def getTransientStorage (sys : System) (key : U256) : U256 :=
  (sys.transientSlots.get? key.toNat).getD 0

def setTransientStorage (sys : System) (key value : U256) : System :=
  let changed :=
    if value = 0 then (sys.transientSlots.get? key.toNat).isSome
    else sys.transientSlots.get? key.toNat != some value
  let sys := { sys with
    transientSlots :=
      if value = 0 then sys.transientSlots.erase key.toNat else sys.transientSlots.set key.toNat value }
  if changed then { sys with savedStateRoot := none } else sys

/-- The randomness of the current epoch, fetched once. -/
def getRandomness (sys : System) : Except ActorError (System × U256) :=
  match sys.randomness with
  | some r => pure (sys, r)
  | none => do
    let r ← env.beaconRandomness
    pure ({ sys with randomness := some r }, r)

def markSelfdestructed (sys : System) : System :=
  { sys with savedStateRoot := none, tombstone := some env.currentTombstone }

/-- No more than 63/64 of the gas left. -/
def callGasLimit (sys : System) (gas : U256) : Nat :=
  min (min gas.toNat (2 ^ 64 - 1)) (63 * env.gasAvailable sys.sent / 64)

end System

end BuiltinActors.Evm
