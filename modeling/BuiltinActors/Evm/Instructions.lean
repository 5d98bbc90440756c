import BuiltinActors.Evm.System

/-! # The instructions that use the system

The instructions of `interpreter/instructions` that are given the system
mutably, or that act through the runtime: storage, logs, contract creation and
self-destruction, the calls with the precompiles they reach, the `EXTCODE*`
queries and PREVRANDAO. Every other instruction is given the system at most
immutably, so it reads it but changes only the execution state; the
interpreter's step takes those as `Instruction.other`.

An instruction that fails aborts the contract, so its error carries no
system. -/

namespace BuiltinActors.Evm

def evmContractSelfdestructFailed : ExitCode := ⟨40⟩

/-- The methods of the EVM actor and the EAM that the instructions call;
`InvokeContract` is the FRC-42 hash of `InvokeEVM`. -/
def methodGetBytecode : Nat := 3
def methodGetBytecodeHash : Nat := 4
def methodInvokeContractDelegate : Nat := 6
def methodInvokeContract : Nat := 3844450837
def eamCreateMethodNum : Nat := 2
def eamCreate2MethodNum : Nat := 3

def evmMaxReservedMethod : Nat := 1023

def cborCodec : Nat := 0x51

def transferGasLimit : U256 := 10000000

/-- `BytecodeHash::NATIVE_ACTOR`, the Keccak-256 hash of `[0xfe]`. -/
def bytecodeHashNativeActor : U256 :=
  0xbcc90f2d6dada5b18e155c17a1c0a55920aae94f39857d39d0d8ed07ae8f228b

/-- `BytecodeHash::EMPTY`, the Keccak-256 hash of no bytes. -/
def bytecodeHashEmpty : U256 :=
  0xc5d2460186f7233c927e7db2dcc703c0e500b653ca82273b7bfad8045d85a470

namespace ExecutionState

/-- Replaces the return data; a vector never holds more than a `usize` counts. -/
def setReturnData (state : ExecutionState) (data : List UInt8) : ExecutionState :=
  ⟨state.memory, data.take usizeMax, by simp⟩

def setMemory (state : ExecutionState) (memory : Memory) : ExecutionState :=
  ⟨memory, state.returnData, state.returnData_length_le⟩

end ExecutionState

/-- The bytes of a memory region, none for an empty one. -/
def regionBytes (memory : Memory) (region : Option MemoryRegion) : Except ActorError (List UInt8) :=
  match region with
  | some r => sliceGet memory.bytes r.offset (r.offset + r.size)
  | none => pure []

/-- A return block read as bytes: a CBOR byte string's contents, or the block
as it is. -/
def blockBytes (env : Env) (r : IpldBlock) : List UInt8 := (env.decodeBytes r).getD r.data

variable (env : Env)

/-! ## Storage -/

def sload (sys : System) (location : U256) : U256 := sys.getStorage location

def sstore (sys : System) (key value : U256) : Except ActorError System :=
  if sys.readonly then throw (.readOnly "store called while read-only")
  else pure (sys.setStorage key value)

def tload (sys : System) (location : U256) : U256 := sys.getTransientStorage location

def tstore (sys : System) (key value : U256) : Except ActorError System :=
  if sys.readonly then throw (.readOnly "store called while read-only")
  else pure (sys.setTransientStorage key value)

/-! ## Logs -/

def eventDataKey : String := "d"

def eventTopicKeys : List String := ["t1", "t2", "t3", "t4"]

/-- LOG0 to LOG4: an event of the topics, each under its key, and of the
memory region's data when the region is not empty. -/
def log (sys : System) (state : ExecutionState) (topics : List U256) (memIndex size : U256) :
    Except ActorError (System × ExecutionState) :=
  if sys.readonly then throw (.readOnly "log called while read-only")
  else do
    let (memory, region) ← getMemoryRegion state.memory memIndex.toNat size.toNat
    let state := state.setMemory memory
    let topicEntries :=
      (eventTopicKeys.zip topics).map fun (key, topic) => Entry.mk key topic.toBigEndian
    let dataEntries ← match region with
      | some r => do
        let data ← sliceGet memory.bytes r.offset (r.offset + r.size)
        pure [Entry.mk eventDataKey data]
      | none => pure []
    let event := topicEntries ++ dataEntries
    env.emitEvent sys.sent event
    pure ({ sys with events := sys.events ++ [event] }, state)

/-! ## Contract creation and self-destruction -/

/-- Calls the EAM to create a contract, with the nonce incremented first. An
endowment above the balance creates nothing; a failed creation returns zero,
and the constructor's return data, if any, as the return data. -/
def createCommon (sys : System) (state : ExecutionState) (method : Nat) (endowment : U256) :
    Except ActorError (System × ExecutionState × U256) :=
  let state := state.setReturnData []
  if env.currentBalance sys.sent < endowment.toNat then pure (sys, state, 0)
  else do
    let sys ← sys.incrementNonce
    let gasLimit := 63 * env.gasAvailable sys.sent / 64
    let (sys, ret) := sys.send env ⟨eamActorAddr, method, endowment.toNat, some gasLimit, default⟩
    match ret with
    | .ok eamRet =>
      let addr ← env.decodeCreateReturn eamRet
      pure (sys, state, addr)
    | .error (_, data) =>
      let state := match data with
        | some r => state.setReturnData (blockBytes env r)
        | none => state
      pure (sys, state, 0)

def create (sys : System) (state : ExecutionState) (endowment offset size : U256) :
    Except ActorError (System × ExecutionState × U256) :=
  if sys.readonly then throw (.readOnly "create called while read-only")
  else do
    let state := state.setReturnData []
    let (memory, region) ← getMemoryRegion state.memory offset.toNat size.toNat
    let state := state.setMemory memory
    -- the code is the EAM's parameter, beside the nonce
    let _inputData ← regionBytes memory region
    createCommon env sys state eamCreateMethodNum endowment

def create2 (sys : System) (state : ExecutionState) (endowment offset size _salt : U256) :
    Except ActorError (System × ExecutionState × U256) :=
  if sys.readonly then throw (.readOnly "create2 called while read-only")
  else do
    let (memory, region) ← getMemoryRegion state.memory offset.toNat size.toNat
    let state := state.setMemory memory
    let _inputData ← regionBytes memory region
    createCommon env sys state eamCreate2MethodNum endowment

/-- Sends the whole balance to the beneficiary, then marks the contract
deleted. -/
def selfdestruct (sys : System) (beneficiary : U256) : Except ActorError System :=
  if sys.readonly then throw (.readOnly "selfdestruct called while read-only")
  else
    let beneficiary := (EthAddress.ofWord beneficiary).toAddress
    let balance := env.currentBalance sys.sent
    let (sys, result) := sys.transfer env beneficiary balance
    match result with
    | .error e =>
      throw ⟨evmContractSelfdestructFailed,
        s!"failed to transfer funds to beneficiary on SELFDESTRUCT: {e.msg}"⟩
    | .ok () => pure (sys.markSelfdestructed env)

/-! ## Precompiles -/

/-- `is_reserved_precompile_address`: a prefix of `0x00` or `0xfe`, eighteen
zero bytes and a nonzero index. -/
def isReservedPrecompileAddress (a : EthAddress) : Bool :=
  (a.extractLsb' 152 8 == 0 || a.extractLsb' 152 8 == 0xfe) && a.extractLsb' 8 144 == 0 &&
    a.extractLsb' 0 8 != 0

def nativePrecompiles : List (Option Precompile) :=
  [some .resolveAddress, some .lookupDelegatedAddress, some .callActor, none, some .callActorId,
    some .getRandomness]

def evmPrecompiles : List (Option Precompile) :=
  [some .ecRecover, some .sha256, some .ripemd160, some .identity, some .modexp, some .ecAdd,
    some .ecMul, some .ecPairing, some .blake2f, none, some .bls12G1add, some .bls12G1msm,
    some .bls12G2add, some .bls12G2msm, some .bls12Pairing, some .bls12MapFpToG1,
    some .bls12MapFp2ToG2]

/-- The precompile at an address: its last byte less one indexes the table
of its prefix. -/
def lookupPrecompile (a : EthAddress) : Option Precompile :=
  if isReservedPrecompileAddress a then
    let index := (a.extractLsb' 0 8).toNat - 1
    if a.extractLsb' 152 8 = 0xfe then nativePrecompiles[index]?.join
    else if a.extractLsb' 152 8 = 0 then evmPrecompiles[index]?.join
    else none
  else none

def isPrecompile (a : EthAddress) : Bool := !a.isNull && (lookupPrecompile a).isSome

/-- `get_contract_type`: a precompile's address, or what the runtime resolves. -/
def getContractType (sys : System) (a : EthAddress) : ContractType :=
  if isPrecompile a then .precompile else env.resolveContractType sys.sent a

/-- `call_actor`'s output: the exit code (a syscall error negated), the return
block's codec, the offset of its data, the data's length and the data, padded
to whole words. -/
def callActorOutput (result : Except ErrorNumber Response) : List UInt8 :=
  let (exitCode, data) := match result with
    | .error errno => (U256.i256Neg (BitVec.ofNat 256 errno.code), none)
    | .ok resp => (BitVec.ofNat 256 resp.exitCode.value, resp.returnData)
  let retBlk := data.getD ⟨0, []⟩
  let output := exitCode.toBigEndian ++ U256.toBigEndian (BitVec.ofNat 256 retBlk.codec)
  let output := output ++ U256.toBigEndian (BitVec.ofNat 256 (output.length + evmWordSize))
  let output := output ++ U256.toBigEndian (BitVec.ofNat 256 retBlk.data.length) ++ retBlk.data
  let offset := output.length % evmWordSize
  if 0 < offset then output ++ List.replicate (evmWordSize - offset) 0 else output

/-- `call_actor` and `call_actor_id`: a message of the caller's choosing,
method, value and flags, sent through `send_raw`; only a DELEGATECALL may
reach it. -/
def callActorShared (sys : System) (input : List UInt8) (ctx : PrecompileContext)
    (byId : Bool) : System × Except PrecompileError (List UInt8) :=
  if ctx.callType ≠ .delegateCall then (sys, .error .callForbidden)
  else match env.decodeCallActor byId input with
    | none => (sys, .error .invalidInput)
    | some p =>
      match SendFlags.fromBits p.flags with
      | none => (sys, .error .invalidInput)
      | some flags =>
        if p.method ≤ evmMaxReservedMethod ∧ p.method ≠ methodSend then (sys, .error .invalidInput)
        else if p.codec ≠ cborCodec ∧ ¬(p.codec = 0 ∧ p.params.isEmpty) then
          (sys, .error .invalidInput)
        else
          let (sys, result) := sys.sendRaw env
            ⟨p.address, p.method, p.value.toNat, some (sys.callGasLimit env ctx.gas), flags⟩
          match result with
          | .error e => (sys, .error (.vmError e))
          | .ok result => (sys, .ok (callActorOutput result))

/-- The function of a precompile's table entry. -/
def runPrecompile (sys : System) (p : Precompile) (input : List UInt8) (ctx : PrecompileContext) :
    System × Except PrecompileError (List UInt8) :=
  match p with
  | .callActor => callActorShared env sys input ctx false
  | .callActorId => callActorShared env sys input ctx true
  | p => (sys, env.precompile sys.sent p input)

/-- `call_precompile`: runs the precompile, none answering with nothing, and
then transfers the value sent with the call. -/
def callPrecompile (sys : System) (a : EthAddress) (input : List UInt8)
    (ctx : PrecompileContext) : System × Except PrecompileError (List UInt8) :=
  let (sys, result) := match lookupPrecompile a with
    | some p => runPrecompile env sys p input ctx
    | none => (sys, .ok [])
  match result with
  | .error e => (sys, .error e)
  | .ok output =>
    if ctx.value ≠ 0 then
      let (sys, r) := sys.transfer env a.toAddress ctx.value.toNat
      match r with
      | .ok () => (sys, .ok output)
      | .error _ => (sys, .error .transferFailed)
    else (sys, .ok output)

/-! ## Calls -/

/-- The bytecode CID of an EVM contract, asked of it read-only. -/
def getEvmBytecodeCid (sys : System) (addr : FilAddress) : Except ActorError (System × Option Cid) :=
  let (sys, ret) := sys.send env ⟨addr, methodGetBytecode, 0, none, .readOnlyFlags⟩
  match ret with
  | .error (e, _) => throw e
  | .ok blk => do
    let cid ← env.decodeBytecodeCid blk
    pure (sys, cid)

def getEvmBytecode (sys : System) (addr : FilAddress) : Except ActorError (System × List UInt8) := do
  let (sys, cid) ← getEvmBytecodeCid env sys addr
  match cid with
  | some cid =>
    match env.getBlock cid with
    | some bytecode => pure (sys, bytecode)
    | none => throw ⟨.usrIllegalState, "bytecode block not found"⟩
  | none => pure (sys, [])

/-- The callee's answer to a CALL or a STATICCALL: its return block on
success, and on failure the block it reverted with, if any. A callee that does
not exist, or a read-only refusal to deploy one, counts as a success with
nothing returned. -/
def callOutcome (sys : System) (kind : CallKind) :
    Except ErrorNumber Response → Except (Option IpldBlock) (Option IpldBlock)
  | .ok resp => if isSuccess resp.exitCode then .ok resp.returnData else .error resp.returnData
  | .error e =>
    if e = .notFound then .ok none
    else if e = .readOnly ∧ (sys.readonly ∨ kind = .staticCall) then .ok none
    else .error none

/-- A call to a contract that is not a precompile: CALL and STATICCALL invoke
it, STATICCALL read-only; DELEGATECALL runs its code in this actor. -/
def callContract (sys : System) (kind : CallKind) (gas : U256)
    (dst : EthAddress) (value : U256) :
    Except ActorError (System × Except (Option IpldBlock) (Option IpldBlock)) :=
  match kind with
  | .call | .staticCall => do
    let gas := if (gas = 0 ∧ 0 < value) ∨ (gas = 2300 ∧ value = 0) then transferGasLimit else gas
    let flags := if kind = .staticCall then SendFlags.readOnlyFlags else default
    let (sys, result) := sys.sendRaw env
      ⟨dst.toAddress, methodInvokeContract, value.toNat, some (sys.callGasLimit env gas), flags⟩
    let result ← result
    pure (sys, callOutcome sys kind result)
  | .delegateCall =>
    match getContractType env sys dst with
    | .evm dstAddr => do
      let (sys, code) ← getEvmBytecodeCid env sys dstAddr
      match code with
      | some _ =>
        -- the delegated code runs as this actor, which keeps it read-only if this call is
        let (sys, ret) := sys.send env
          ⟨env.receiver, methodInvokeContractDelegate, value.toNat, some (sys.callGasLimit env gas),
            default⟩
        pure (sys, ret.mapError Prod.snd)
      | none => pure (sys, .ok none)
    | .account | .notFound => pure (sys, .ok none)
    | .native _ | .precompile => pure (sys, .error none)

/-- The block of `call_generic` that calls the destination: the word to push,
1 on success and 0 on failure, and the return data. A failed precompile
returns nothing. -/
def callDestination (sys : System) (kind : CallKind) (gas : U256) (dst : EthAddress)
    (value : U256) (inputData : List UInt8) : Except ActorError (System × U256 × List UInt8) :=
  if isReservedPrecompileAddress dst then
    match callPrecompile env sys dst inputData ⟨kind, gas, value⟩ with
    | (sys, .ok returnData) => pure (sys, 1, returnData)
    | (sys, .error _) => pure (sys, 0, [])
  else do
    let (sys, outcome) ← callContract env sys kind gas dst value
    let (code, data) := match outcome with
      | .ok data => ((1 : U256), data)
      | .error data => (0, data)
    pure (sys, code, match data with
      | none => []
      | some r => blockBytes env r)

/-- CALL, DELEGATECALL and STATICCALL: pushes 1 on success and 0 on failure,
sets the return data and copies it to the output region. -/
def callGeneric (sys : System) (state : ExecutionState) (kind : CallKind)
    (gas dst value inputOffset inputSize outputOffset outputSize : U256) :
    Except ActorError (System × ExecutionState × U256) :=
  if sys.readonly ∧ 0 < value then throw (.readOnly "cannot transfer value when read-only")
  else do
    let (memory, inputRegion) ← getMemoryRegion state.memory inputOffset.toNat inputSize.toNat
    let state := state.setMemory memory
    let inputData ← regionBytes memory inputRegion
    let (sys, callResult, returnData) ←
      callDestination env sys kind gas (EthAddress.ofWord dst) value inputData
    let state := state.setReturnData returnData
    let memory ← copyToMemory state.memory outputOffset outputSize 0 state.returnData false
    pure (sys, state.setMemory memory, callResult)

/-! ## Queries of other contracts -/

def extcodesize (sys : System) (addr : U256) : Except ActorError (System × U256) :=
  match getContractType env sys (EthAddress.ofWord addr) with
  | .evm addr => do
    let (sys, bytecode) ← getEvmBytecode env sys addr
    pure (sys, BitVec.ofNat 256 bytecode.length)
  | .native _ => pure (sys, 1)
  | _ => pure (sys, 0)

def extcodehash (sys : System) (addr : U256) : Except ActorError (System × U256) :=
  match getContractType env sys (EthAddress.ofWord addr) with
  | .evm a =>
    let (sys, ret) := sys.send env ⟨a, methodGetBytecodeHash, 0, none, .readOnlyFlags⟩
    match ret with
    | .error (e, _) => throw e
    | .ok blk => do
      let hash ← env.decodeBytecodeHash blk
      pure (sys, hash)
  | .native _ => pure (sys, bytecodeHashNativeActor)
  | .precompile | .account => pure (sys, bytecodeHashEmpty)
  | .notFound => pure (sys, 0)

def extcodecopy (sys : System) (state : ExecutionState) (addr destOffset dataOffset size : U256) :
    Except ActorError (System × ExecutionState) := do
  let (sys, bytecode) ← (match getContractType env sys (EthAddress.ofWord addr) with
    | .evm addr => getEvmBytecode env sys addr
    | .notFound | .account | .precompile => pure (sys, [])
    | .native _ => pure (sys, [0xFE]) : Except ActorError (System × List UInt8))
  let memory ← copyToMemory state.memory destOffset size dataOffset bytecode true
  pure (sys, state.setMemory memory)

/-! ## The interpreter's step -/

inductive Instruction
  | sload (location : U256)
  | sstore (key value : U256)
  | tload (location : U256)
  | tstore (key value : U256)
  /-- LOG0 to LOG4, with their topics. -/
  | log (topics : List U256) (memIndex size : U256)
  | create (endowment offset size : U256)
  | create2 (endowment offset size salt : U256)
  | selfdestruct (beneficiary : U256)
  | call (gas dst value inputOffset inputSize outputOffset outputSize : U256)
  | delegatecall (gas dst inputOffset inputSize outputOffset outputSize : U256)
  | staticcall (gas dst inputOffset inputSize outputOffset outputSize : U256)
  | extcodesize (addr : U256)
  | extcodehash (addr : U256)
  | extcodecopy (addr destOffset dataOffset size : U256)
  | prevrandao
  /-- Any other instruction: it may read the system, and changes the
  execution state only. -/
  | other (f : System → ExecutionState → Except ActorError ExecutionState)

/-- One instruction, with the word it pushes, if any. -/
def Instruction.exec : System × ExecutionState → Instruction →
    Except ActorError ((System × ExecutionState) × Option U256)
  | (sys, state), .sload location => pure ((sys, state), some (Evm.sload sys location))
  | (sys, state), .sstore key value => do
    let sys ← Evm.sstore sys key value
    pure ((sys, state), none)
  | (sys, state), .tload location => pure ((sys, state), some (Evm.tload sys location))
  | (sys, state), .tstore key value => do
    let sys ← Evm.tstore sys key value
    pure ((sys, state), none)
  | (sys, state), .log topics memIndex size => do
    let (sys, state) ← Evm.log env sys state topics memIndex size
    pure ((sys, state), none)
  | (sys, state), .create endowment offset size => do
    let (sys, state, addr) ← Evm.create env sys state endowment offset size
    pure ((sys, state), some addr)
  | (sys, state), .create2 endowment offset size salt => do
    let (sys, state, addr) ← Evm.create2 env sys state endowment offset size salt
    pure ((sys, state), some addr)
  | (sys, state), .selfdestruct beneficiary => do
    let sys ← Evm.selfdestruct env sys beneficiary
    pure ((sys, state), none)
  | (sys, state), .call gas dst value inputOffset inputSize outputOffset outputSize => do
    let (sys, state, r) ← callGeneric env sys state .call gas dst value inputOffset inputSize
      outputOffset outputSize
    pure ((sys, state), some r)
  | (sys, state), .delegatecall gas dst inputOffset inputSize outputOffset outputSize => do
    let (sys, state, r) ← callGeneric env sys state .delegateCall gas dst 0 inputOffset inputSize
      outputOffset outputSize
    pure ((sys, state), some r)
  | (sys, state), .staticcall gas dst inputOffset inputSize outputOffset outputSize => do
    let (sys, state, r) ← callGeneric env sys state .staticCall gas dst 0 inputOffset inputSize
      outputOffset outputSize
    pure ((sys, state), some r)
  | (sys, state), .extcodesize addr => do
    let (sys, size) ← Evm.extcodesize env sys addr
    pure ((sys, state), some size)
  | (sys, state), .extcodehash addr => do
    let (sys, hash) ← Evm.extcodehash env sys addr
    pure ((sys, state), some hash)
  | (sys, state), .extcodecopy addr destOffset dataOffset size => do
    let (sys, state) ← Evm.extcodecopy env sys state addr destOffset dataOffset size
    pure ((sys, state), none)
  | (sys, state), .prevrandao => do
    let (sys, r) ← sys.getRandomness env
    pure ((sys, state), some r)
  | (sys, state), .other f => do
    let state ← f sys state
    pure ((sys, state), none)

end BuiltinActors.Evm
