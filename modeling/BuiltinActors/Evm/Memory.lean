import BuiltinActors.Runtime
import BuiltinActors.Evm.Uints

/-! # EVM memory

The interpreter's memory and the instructions that read and write it
(`memory.rs`, `instructions/memory.rs`, and `returndatacopy` and `exit` of
`instructions/control.rs`). Memory is a vector of bytes that only grows, by
whole 32-byte words. An instruction first asks `get_memory_region` for the
bytes it touches: the region's offset and size must be `u32` values whose
sum is one too, and memory grows over the region.

The actors are built for `wasm32`, where `usize` is 32 bits, and with
overflow checks: an arithmetic overflow panics, as does a slice index out of
bounds, and a panic aborts the message with `USR_ASSERTION_FAILED`. The model
keeps each such panic as an error. The capacity the vector reserves is not
modelled: growing memory always finds room. -/

namespace BuiltinActors.Evm

def evmContractIllegalMemoryAccess : ExitCode := ⟨38⟩

def evmWordSize : Nat := 32

def u32Max : Nat := 2 ^ 32 - 1

/-- `usize::MAX` on `wasm32`. -/
def usizeMax : Nat := 2 ^ 32 - 1

/-- The error of the `uint` crate's conversion of a too large word to `usize`. -/
def usizeCastError : String := "integer overflow when casting to usize"

/-- `a + b` in `usize`, which panics on overflow. -/
def addUsize (a b : Nat) : Except ActorError Nat :=
  if a + b ≤ usizeMax then .ok (a + b) else .error (.panicked "attempt to add with overflow")

/-- `checked_add` in a type whose largest value is `max`. -/
def checkedAdd (max a b : Nat) : Option Nat := if a + b ≤ max then some (a + b) else none

/-! ## Slices -/

/-- `bytes[start..stop]`, which panics when the range is reversed or runs past
the end. -/
def sliceGet {α : Type} (bytes : List α) (start stop : Nat) : Except ActorError (List α) :=
  if stop < start then .error (.panicked s!"slice index starts at {start} but ends at {stop}")
  else if bytes.length < stop then
    .error (.panicked s!"range end index {stop} out of range for slice of length {bytes.length}")
  else .ok ((bytes.drop start).take (stop - start))

/-- `bytes[start..stop].copy_from_slice(src)`. -/
def sliceSet {α : Type} (bytes : List α) (start stop : Nat) (src : List α) :
    Except ActorError (List α) := do
  let dst ← sliceGet bytes start stop
  if dst.length ≠ src.length then
    throw (.panicked
      s!"source slice length ({src.length}) does not match destination slice length ({dst.length})")
  return bytes.take start ++ src ++ bytes.drop stop

/-- `bytes[index] = value`. -/
def indexSet {α : Type} (bytes : List α) (index : Nat) (value : α) : Except ActorError (List α) :=
  if index < bytes.length then .ok (bytes.set index value)
  else .error (.panicked s!"index out of bounds: the len is {bytes.length} but the index is {index}")

/-- `bytes.copy_within(start..stop, dest)`, a `memmove`: the source is read
before anything is written. -/
def copyWithin {α : Type} (bytes : List α) (start stop dest : Nat) : Except ActorError (List α) := do
  let src ← sliceGet bytes start stop
  if bytes.length - src.length < dest then throw (.panicked "dest is out of bounds")
  return bytes.take dest ++ src ++ bytes.drop (dest + src.length)

/-! ## Memory -/

/-- `Memory`: the bytes of the interpreter's memory. -/
structure Memory where
  bytes : List UInt8
deriving DecidableEq, Repr

namespace Memory

/-- `Memory::default`: empty (the page it reserves is not modelled). -/
instance : Inhabited Memory := ⟨⟨[]⟩⟩

def len (mem : Memory) : Nat := mem.bytes.length

/-- Grows memory to `newSize` rounded up to a whole word, with zeros; does
nothing when `newSize` does not grow it. -/
def grow (mem : Memory) (newSize : Nat) : Except ActorError Memory :=
  if newSize ≤ mem.len then .ok mem
  else do
    -- the source's "guaranteed to not overflow" holds for a 64-bit `usize`
    -- only: on `wasm32` the rounding of the last 31 sizes below `2 ^ 32` panics
    let alignment := newSize % evmWordSize
    let newSize ← if 0 < alignment then addUsize newSize (evmWordSize - alignment) else pure newSize
    return ⟨mem.bytes ++ List.replicate (newSize - mem.len) 0⟩

end Memory

/-- `MemoryRegion`: a nonempty range of memory. -/
structure MemoryRegion where
  offset : Nat
  size : Nat
  size_pos : 0 < size

/-- `get_memory_region`: checks that `offset`, `size` and their sum are `u32`
values and grows memory over the region; a region of size zero is `none` and
touches nothing, whatever its offset. -/
def getMemoryRegion (mem : Memory) (offset size : Nat) :
    Except ActorError (Memory × Option MemoryRegion) :=
  if u32Max < size then throw ⟨evmContractIllegalMemoryAccess, "size must be less than max u32"⟩
  else if hsize : size = 0 then pure (mem, none)
  else if u32Max < offset then
    throw ⟨evmContractIllegalMemoryAccess, "offset must be less than max u32"⟩
  else
    match checkedAdd u32Max offset size with
    | none => throw ⟨evmContractIllegalMemoryAccess, "new memory size exceeds max u32"⟩
    | some newSize => do
      let mem ← mem.grow newSize
      pure (mem, some ⟨offset, size, Nat.pos_of_ne_zero hsize⟩)

/-- `.expect("empty region")`. -/
def expectRegion (region : Option MemoryRegion) : Except ActorError MemoryRegion :=
  match region with
  | some r => .ok r
  | none => .error (.panicked "empty region")

/-- The fields of `ExecutionState` that the memory instructions use. The
return data is a vector, so its length is a `usize`. -/
structure ExecutionState where
  memory : Memory
  returnData : List UInt8
  returnData_length_le : returnData.length ≤ usizeMax

/-! ## Instructions -/

def mload (state : ExecutionState) (index : U256) : Except ActorError (ExecutionState × U256) := do
  let (memory, region) ← getMemoryRegion state.memory index.toNat evmWordSize
  let region ← expectRegion region
  let bytes ← sliceGet memory.bytes region.offset (region.offset + region.size)
  pure ({ state with memory }, U256.fromBigEndian bytes)

def mstore (state : ExecutionState) (index value : U256) : Except ActorError ExecutionState := do
  let (memory, region) ← getMemoryRegion state.memory index.toNat evmWordSize
  let region ← expectRegion region
  let bytes ← sliceSet memory.bytes region.offset (region.offset + evmWordSize) value.toBigEndian
  pure { state with memory := ⟨bytes⟩ }

def mstore8 (state : ExecutionState) (index value : U256) : Except ActorError ExecutionState := do
  let (memory, region) ← getMemoryRegion state.memory index.toNat 1
  let region ← expectRegion region
  -- the low byte, through the low 32 bits
  let value : UInt8 := UInt8.ofNat (value.toNat % 2 ^ 32 &&& 0xff)
  let bytes ← indexSet memory.bytes region.offset value
  pure { state with memory := ⟨bytes⟩ }

/-- The memory's length as a word; the conversion through `u64` cannot fail
for a `usize`. -/
def msize (state : ExecutionState) : Except ActorError U256 :=
  if state.memory.len < 2 ^ 64 then .ok (BitVec.ofNat 256 state.memory.len)
  else .error (.panicked "called Result::unwrap() on an Err value: TryFromIntError(())")

/-- `copy_within_memory`: grows memory over the source, then over the
destination, and moves the bytes. -/
def copyWithinMemory (memory : Memory) (destIndex srcIndex size : U256) :
    Except ActorError Memory := do
  let (memory, srcRegion) ← getMemoryRegion memory srcIndex.toNat size.toNat
  let srcRegion ← expectRegion srcRegion
  let (memory, destinationRegion) ← getMemoryRegion memory destIndex.toNat size.toNat
  let destinationRegion ← expectRegion destinationRegion
  let bytes ← copyWithin memory.bytes srcRegion.offset (srcRegion.offset + srcRegion.size)
    destinationRegion.offset
  pure ⟨bytes⟩

def mcopy (state : ExecutionState) (destIndex srcIndex size : U256) :
    Except ActorError ExecutionState :=
  if 0 < size.toNat then do
    let memory ← copyWithinMemory state.memory destIndex srcIndex size
    pure { state with memory }
  else pure state

/-- `a as usize` on `wasm32`. -/
def asUsize (n : Nat) : Nat := n % (usizeMax + 1)

/-- The `min` of `copy_to_memory`, of a word and a `usize`. -/
def usizeMin (a : U256) (b : Nat) : Nat := if a.toNat < b then asUsize (a.toNat % 2 ^ 64) else b

/-- `copy_to_memory`: copies `data` from `dataOffset` into the region at
`destOffset` of `destSize` bytes, as much of it as there is, and zeroes the
rest of the region when `zeroFill` is set. CALLDATACOPY, CODECOPY and
EXTCODECOPY copy this way with `zeroFill`, and a call copies its output
without. -/
def copyToMemory (memory : Memory) (destOffset destSize dataOffset : U256) (data : List UInt8)
    (zeroFill : Bool) : Except ActorError Memory := do
  let (memory, region) ← getMemoryRegion memory destOffset.toNat destSize.toNat
  match region with
  | none => pure memory
  | some region =>
    let dataLen := data.length
    let dataOffset := usizeMin dataOffset dataLen
    let copySize := usizeMin destSize (dataLen - dataOffset)
    let bytes ← if 0 < copySize then do
        let src ← sliceGet data dataOffset (dataOffset + copySize)
        sliceSet memory.bytes region.offset (region.offset + copySize) src
      else pure memory.bytes
    let bytes ← if zeroFill ∧ copySize < region.size then
        sliceSet bytes (region.offset + copySize) (region.offset + region.size)
          (List.replicate (region.size - copySize) 0)
      else pure bytes
    pure ⟨bytes⟩

def returndatacopy (state : ExecutionState) (memIndex inputIndex size : U256) :
    Except ActorError ExecutionState := do
  let (memory, region) ← getMemoryRegion state.memory memIndex.toNat size.toNat
  if usizeMax < inputIndex.toNat then
    throw ⟨evmContractIllegalMemoryAccess,
      "returndatacopy index exceeds max u32: " ++ usizeCastError⟩
  let src := inputIndex.toNat
  if state.returnData.length < src then
    throw ⟨evmContractIllegalMemoryAccess,
      s!"returndatacopy start {src} exceeds return-data length {state.returnData.length}"⟩
  match checkedAdd usizeMax src ((region.map MemoryRegion.size).getD 0) with
  | none => throw ⟨evmContractIllegalMemoryAccess, "returndatacopy end exceeds max u32"⟩
  | some stop =>
    -- the source's message names the start, not the end
    if state.returnData.length < stop then
      throw ⟨evmContractIllegalMemoryAccess,
        s!"returndatacopy end {src} exceeds return-data length {state.returnData.length}"⟩
    match region with
    | none => pure { state with memory }
    | some region => do
      let data ← sliceGet state.returnData src (src + region.size)
      let bytes ← sliceSet memory.bytes region.offset (region.offset + region.size) data
      pure { state with memory := ⟨bytes⟩ }

/-- The return data of `exit` (RETURN and REVERT): the bytes of the region,
none for an empty one. -/
def exitReturnData (memory : Memory) (offset size : U256) :
    Except ActorError (Memory × List UInt8) := do
  let (memory, region) ← getMemoryRegion memory offset.toNat size.toNat
  match region with
  | none => pure (memory, [])
  | some region => do
    let bytes ← sliceGet memory.bytes region.offset (region.offset + region.size)
    pure (memory, bytes)

/-! ## The instructions as one step -/

/-- An instruction that touches memory. A copy into memory carries the bytes it
copies from; they are a vector or a slice, so their length is a `usize`. -/
inductive MemoryOp
  | mload (index : U256)
  | mstore (index value : U256)
  | mstore8 (index value : U256)
  | msize
  | mcopy (destIndex srcIndex size : U256)
  | copyToMemory (destOffset destSize dataOffset : U256) (data : List UInt8)
      (zeroFill : Bool) (data_length_le : data.length ≤ usizeMax)
  | returndatacopy (memIndex inputIndex size : U256)
  | exit (offset size : U256)

/-- What an instruction gives back: a word for a read of one, bytes for the
return data of an exit. -/
inductive MemoryOut
  | none
  | word (value : U256)
  | bytes (data : List UInt8)

/-- One instruction on the execution state. -/
def MemoryOp.exec (state : ExecutionState) : MemoryOp → Except ActorError (ExecutionState × MemoryOut)
  | .mload index => do
    let (state, value) ← Evm.mload state index
    pure (state, .word value)
  | .mstore index value => do
    let state ← Evm.mstore state index value
    pure (state, .none)
  | .mstore8 index value => do
    let state ← Evm.mstore8 state index value
    pure (state, .none)
  | .msize => do
    let value ← Evm.msize state
    pure (state, .word value)
  | .mcopy destIndex srcIndex size => do
    let state ← Evm.mcopy state destIndex srcIndex size
    pure (state, .none)
  | .copyToMemory destOffset destSize dataOffset data zeroFill _ => do
    let memory ← Evm.copyToMemory state.memory destOffset destSize dataOffset data zeroFill
    pure ({ state with memory }, .none)
  | .returndatacopy memIndex inputIndex size => do
    let state ← Evm.returndatacopy state memIndex inputIndex size
    pure (state, .none)
  | .exit offset size => do
    let (memory, data) ← Evm.exitReturnData state.memory offset size
    pure ({ state with memory }, .bytes data)

end BuiltinActors.Evm
