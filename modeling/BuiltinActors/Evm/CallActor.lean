import BuiltinActors.Evm.Reader
import BuiltinActors.Evm.Instructions

/-! # The ABI of `call_actor`

`call_actor` and `call_actor_id` take their parameters as Solidity's
`abi.encode` lays them out: six head words (method, value, flags, codec, the
offset of the params, and the offset of the address or the actor ID), then each
`bytes` argument as its length word followed by its bytes padded to whole
words. `call_actor_shared` reads them back with a `ValueReader`, and the
contract side reads the precompile's output back with
`handle_filecoin_method_output`.

Lengths and offsets are naturals: a `usize` conversion never fails here, as no
byte string of the wasm32 actors reaches `2 ^ 31` bytes. -/

namespace BuiltinActors.Evm

/-! ## Solidity's encoding -/

/-- A `uint` word: the value big-endian in 32 bytes. -/
def abiWord (n : Nat) : List UInt8 := U256.toBigEndian (BitVec.ofNat 256 n)

/-- The bytes, then zeros up to the next whole word. -/
def abiPad (b : List UInt8) : List UInt8 := b ++ List.replicate ((32 - b.length % 32) % 32) 0

/-- The tail of a `bytes` argument: its length, then its bytes padded. -/
def abiBytes (b : List UInt8) : List UInt8 := abiWord b.length ++ abiPad b

/-- The five head words `call_actor` and `call_actor_id` share; the params'
tail follows the sixth word, at offset `192`. -/
def abiCallActorHead (method : Nat) (value : U256) (flags codec : Nat) : List UInt8 :=
  abiWord method ++ value.toBigEndian ++ abiWord flags ++ abiWord codec ++ abiWord 192

/-- `abi.encode(uint64 method, uint256 value, uint64 flags, uint64 codec,
bytes params, bytes address)`. -/
def abiEncodeCallActor (method : Nat) (value : U256) (flags codec : Nat)
    (params address : List UInt8) : List UInt8 :=
  abiCallActorHead method value flags codec ++ abiWord (192 + (abiBytes params).length) ++
    abiBytes params ++ abiBytes address

/-- `abi.encode(uint64 method, uint256 value, uint64 flags, uint64 codec,
bytes params, uint64 id)`. -/
def abiEncodeCallActorId (method : Nat) (value : U256) (flags codec : Nat)
    (params : List UInt8) (id : Nat) : List UInt8 :=
  abiCallActorHead method value flags codec ++ abiWord id ++ abiBytes params

/-- The bits of `SendFlags`: read-only is bit 0. -/
def SendFlags.bits (f : SendFlags) : Nat := if f.readOnly then 1 else 0

theorem SendFlags.fromBits_bits (f : SendFlags) : SendFlags.fromBits f.bits = some f := by
  cases f with
  | mk readOnly => cases readOnly <;> rfl

@[simp] theorem length_abiWord (n : Nat) : (abiWord n).length = 32 := U256.length_toBigEndian _

theorem length_abiBytes (b : List UInt8) :
    (abiBytes b).length = 32 + b.length + (32 - b.length % 32) % 32 := by
  simp only [abiBytes, abiPad, List.length_append, length_abiWord, List.length_replicate]
  omega

theorem fromBytesBe_abiWord {n : Nat} (hn : n < 2 ^ 256) : fromBytesBe (abiWord n) = n := by
  rw [abiWord, fromBytesBe_toBigEndian, BitVec.toNat_ofNat, Nat.mod_eq_of_lt hn]

/-! ## `call_actor_shared` and `handle_filecoin_method_output` -/

/-- `read_value()?` in a precompile: a value that does not fit is an invalid
input (`From<OverflowError> for PrecompileError`). -/
def readInput (r : ValueReader) (α : Type) [Value α] : Except PrecompileError (ValueReader × α) :=
  match r.readValue α with
  | (r, .ok v) => .ok (r, v)
  | (_, .error _) => .error .invalidInput

/-- The parameters `call_actor_shared` reads from its input, before it checks
the method and the codec. `Address::from_bytes` is a parameter. -/
def callActorParams (addressFromBytes : List UInt8 → Option FilAddress) (byId : Bool)
    (input : List UInt8) : Except PrecompileError CallActorParams := do
  let inputParams := ValueReader.new input
  let (inputParams, method) ← readInput inputParams UInt64
  let (inputParams, value) ← readInput inputParams U256
  let (inputParams, flags) ← readInput inputParams UInt64
  let some _ := SendFlags.fromBits flags.toNat | throw .invalidInput
  let (inputParams, codec) ← readInput inputParams UInt64
  let (inputParams, paramsOff) ← readInput inputParams UInt32
  let (inputParams, idOrAddrOff) ← readInput inputParams UInt64
  let (inputParams, paramsLen) ← readInput (inputParams.seek paramsOff.toNat) UInt32
  let (inputParams, params) := inputParams.readPadded paramsLen.toNat
  let address ← if byId then pure (FilAddress.id idOrAddrOff.toNat) else do
    let (inputParams, addrLen) ← readInput (inputParams.seek idOrAddrOff.toNat) UInt32
    let addrBytes := (inputParams.readPadded addrLen.toNat).2
    let some address := addressFromBytes addrBytes | throw .invalidInput
    pure address
  return ⟨method.toNat, value, flags.toNat, codec.toNat, params, address⟩

/-- `context_code(ExitCode::USR_SERIALIZATION, context)` on a read: the
context, then the overflow's text. -/
def readOutput {α : Type} (read : ValueReader × Except OverflowError α) (context : String) :
    Except (ActorError × Option IpldBlock) (ValueReader × α) :=
  match read with
  | (r, .ok v) => .ok (r, v)
  | (_, .error _) => .error (.serialization (context ++ ": value overflowed"), none)

/-- `handle_filecoin_method_output`: the exit code, codec and return data of
an output laid out as `call_actor`'s. An error's data block stands beside it. -/
def handleFilecoinMethodOutput (output : List UInt8) :
    Except (ActorError × Option IpldBlock) (Option IpldBlock) := do
  -- short-circuit if empty
  if output.isEmpty then return none
  let output := ValueReader.new output
  let (output, exitCode) ← readOutput (output.readValue ExitCode) "exit code not a u32"
  let (output, codec) ← readOutput (output.readValue UInt64) "returned codec not a u64"
  let (output, lenOffset) ← readOutput (output.readValue UInt32) "invalid return value offset"
  let (output, length) ← readOutput ((output.seek lenOffset.toNat).readValue UInt32)
    "return length is too large"
  let returnData := (output.readPadded length.toNat).2
  let returnBlock ← if codec.toNat = 0 then
      -- empty return values
      if length.toNat = 0 then pure none
      else throw (.serialization
        ("codec 0 is only valid for empty returns, got a return value of length " ++
          toString length), none)
    else if codec.toNat = cborCodec then pure (some ⟨codec.toNat, returnData⟩)
    else throw (.serialization ("unsupported codec: " ++ toString codec), none)
  if isSuccess exitCode then return returnBlock
  else throw (⟨exitCode, "EVM contract explicitly exited with a non-zero exit code"⟩, returnBlock)

/-! ## Reading a laid-out input -/

namespace Stream

/-- What is left of the input from the position on. -/
def rest (s : Stream) : List UInt8 := s.input.drop s.pos

variable {s : Stream} {mid post : List UInt8}

theorem bytes_of_rest (h : s.rest = mid ++ post) : s.bytes mid.length = mid := by
  cases mid with
  | nil => exact List.eq_nil_of_length_eq_zero (length_bytes s 0)
  | cons b mid =>
    -- a byte left means the position is inside the input
    have hlen : s.pos + (b :: mid).length ≤ s.input.length := by
      have hl := congrArg List.length h
      simp only [rest, List.length_drop, List.length_append, List.length_cons] at hl ⊢
      omega
    rw [bytes_of_le s hlen]
    show s.rest.take (b :: mid).length = b :: mid
    rw [h, List.take_left' rfl]

theorem rest_skip (h : s.rest = mid ++ post) : (s.skip mid.length).rest = post := by
  show s.input.drop (s.pos + mid.length) = post
  rw [← List.drop_drop]
  show s.rest.drop mid.length = post
  rw [h, List.drop_left' rfl]

end Stream

namespace ValueReader

variable {r : ValueReader} {s : Stream} {post : List UInt8}

/-- A word holding `n` reads as `n` when it fits `k` bytes, and the position
moves past it. -/
theorem Refines.readInt_word (h : r.Refines s) (k : Nat) (hk : k ≤ 32) {n : Nat}
    (hn : n < 2 ^ (8 * k)) (hs : s.rest = abiWord n ++ post) :
    (Evm.readInt k r).2 = .ok (BitVec.ofNat (8 * k) n) ∧ (Evm.readInt k r).1.Refines (s.skip 32) ∧
      (s.skip 32).rest = post := by
  have hbytes : s.bytes 32 = abiWord n := by
    have hb := Stream.bytes_of_rest hs
    rwa [length_abiWord] at hb
  have hval : fromBytesBe (abiWord n) = n :=
    fromBytesBe_abiWord (lt_of_lt_of_le hn (Nat.pow_le_pow_right (by norm_num) (by omega)))
  obtain ⟨hv, hr⟩ := (h.readInt k hk).1 (by rw [hbytes, hval]; exact hn)
  have hpost := Stream.rest_skip hs
  rw [length_abiWord] at hpost
  exact ⟨by rw [hv, hbytes, hval], hr, hpost⟩

theorem Refines.readWord_uint64 (h : r.Refines s) {n : Nat} (hn : n < 2 ^ 64)
    (hs : s.rest = abiWord n ++ post) :
    ∃ r' v, r.readValue UInt64 = (r', .ok v) ∧ v.toNat = n ∧ r'.Refines (s.skip 32) ∧
      (s.skip 32).rest = post := by
  obtain ⟨hv, hr, hpost⟩ := h.readInt_word 8 (by norm_num) hn hs
  refine ⟨_, _, by rw [readValue_uint64, hv]; rfl, ?_, hr, hpost⟩
  rw [UInt64.toNat_ofBitVec, BitVec.toNat_ofNat, Nat.mod_eq_of_lt hn]

theorem Refines.readWord_uint32 (h : r.Refines s) {n : Nat} (hn : n < 2 ^ 32)
    (hs : s.rest = abiWord n ++ post) :
    ∃ r' v, r.readValue UInt32 = (r', .ok v) ∧ v.toNat = n ∧ r'.Refines (s.skip 32) ∧
      (s.skip 32).rest = post := by
  obtain ⟨hv, hr, hpost⟩ := h.readInt_word 4 (by norm_num) hn hs
  refine ⟨_, _, by rw [readValue_uint32, hv]; rfl, ?_, hr, hpost⟩
  rw [UInt32.toNat_ofBitVec, BitVec.toNat_ofNat, Nat.mod_eq_of_lt hn]

theorem Refines.readWord_exitCode (h : r.Refines s) {n : Nat} (hn : n < 2 ^ 32)
    (hs : s.rest = abiWord n ++ post) :
    ∃ r', r.readValue ExitCode = (r', .ok ⟨n⟩) ∧ r'.Refines (s.skip 32) ∧
      (s.skip 32).rest = post := by
  obtain ⟨hv, hr, hpost⟩ := h.readInt_word 4 (by norm_num) hn hs
  refine ⟨_, ?_, hr, hpost⟩
  rw [readValue_exitCode, hv]
  simp only [Except.map, UInt32.toNat_ofBitVec, BitVec.toNat_ofNat]
  rw [Nat.mod_eq_of_lt hn]

theorem Refines.readWord_u256 (h : r.Refines s) {x : U256} (hs : s.rest = x.toBigEndian ++ post) :
    ∃ r', r.readValue U256 = (r', .ok x) ∧ r'.Refines (s.skip 32) ∧ (s.skip 32).rest = post := by
  obtain ⟨hfixed, hr⟩ := h.readFixed 32
  have hbytes : s.bytes 32 = x.toBigEndian := by
    have hb := Stream.bytes_of_rest hs
    rwa [U256.length_toBigEndian] at hb
  have hpost := Stream.rest_skip hs
  rw [U256.length_toBigEndian] at hpost
  refine ⟨_, ?_, hr, hpost⟩
  rw [readValue_u256, hfixed, hbytes, U256.fromBigEndian_toBigEndian]

/-- Bytes present in full are read as they are. -/
theorem Refines.readPadded_of_rest (h : r.Refines s) {mid : List UInt8} (hs : s.rest = mid ++ post) :
    (r.readPadded mid.length).2 = mid ∧ (r.readPadded mid.length).1.Refines (s.skip mid.length) ∧
      (s.skip mid.length).rest = post := by
  obtain ⟨hpad, hr⟩ := h.readPadded mid.length
  exact ⟨by rw [hpad, Stream.bytes_of_rest hs], hr, Stream.rest_skip hs⟩

end ValueReader

theorem readInput_of_readValue {α : Type} [Value α] {r r' : ValueReader} {v : α}
    (h : r.readValue α = (r', .ok v)) : readInput r α = .ok (r', v) := by
  unfold readInput
  rw [h]

theorem readOutput_of_ok {α : Type} {read : ValueReader × Except OverflowError α}
    {r' : ValueReader} {v : α} (h : read = (r', .ok v)) (context : String) :
    readOutput read context = .ok (r', v) := by
  rw [h]
  rfl

theorem SendFlags.bits_lt (f : SendFlags) : f.bits < 2 ^ 64 := by
  unfold SendFlags.bits
  split <;> norm_num

/-! ## The parameters, read back -/

/-- The head words and the params' tail read back from any input laid out as
both entry points lay it out; the sixth word is the ID or the address's
offset, and by address the decoder finds the address's tail there. -/
theorem callActorParams_of_layout (addressFromBytes : List UInt8 → Option FilAddress)
    (byId : Bool) {input params address tail post : List UInt8} {method codec w : Nat}
    {value : U256} {flags : SendFlags}
    (hinput : input = abiCallActorHead method value flags.bits codec ++ abiWord w ++
      abiBytes params ++ tail)
    (hm : method < 2 ^ 64) (hc : codec < 2 ^ 64) (hw : w < 2 ^ 64) (hp : params.length < 2 ^ 32)
    (haddr : byId = false →
      (⟨input, w⟩ : Stream).rest = abiBytes address ++ post ∧ address.length < 2 ^ 32) :
    callActorParams addressFromBytes byId input =
      if byId then .ok ⟨method, value, flags.bits, codec, params, .id w⟩
      else (addressFromBytes address).elim (.error .invalidInput)
        fun a => .ok ⟨method, value, flags.bits, codec, params, a⟩ := by
  -- the six head words, one after another from offset 0
  have hs₀ : (⟨input, 0⟩ : Stream).rest = abiWord method ++ (value.toBigEndian ++
      (abiWord flags.bits ++ (abiWord codec ++ (abiWord 192 ++ (abiWord w ++
        (abiBytes params ++ tail)))))) := by
    rw [Stream.rest, List.drop_zero, hinput]
    simp only [abiCallActorHead, List.append_assoc]
  obtain ⟨r₁, v₁, hr₁, hv₁, h₁, hs₁⟩ := (ValueReader.refines_new input).readWord_uint64 hm hs₀
  obtain ⟨r₂, hr₂, h₂, hs₂⟩ := h₁.readWord_u256 hs₁
  obtain ⟨r₃, v₃, hr₃, hv₃, h₃, hs₃⟩ := h₂.readWord_uint64 flags.bits_lt hs₂
  obtain ⟨r₄, v₄, hr₄, hv₄, h₄, hs₄⟩ := h₃.readWord_uint64 hc hs₃
  obtain ⟨r₅, v₅, hr₅, hv₅, h₅, hs₅⟩ := h₄.readWord_uint32 (by norm_num) hs₄
  obtain ⟨r₆, v₆, hr₆, hv₆, h₆, hs₆⟩ := h₅.readWord_uint64 hw hs₅
  -- the params' tail starts at offset 192, where the head ends
  have hs₆' : (⟨input, 192⟩ : Stream).rest = abiWord params.length ++ (abiPad params ++ tail) := by
    have hat : (⟨input, 192⟩ : Stream).rest = abiBytes params ++ tail := hs₆
    rw [hat, abiBytes, List.append_assoc]
  have h₆' : (r₆.seek 192).Refines ⟨input, 192⟩ := h₆.seek 192
  obtain ⟨r₇, v₇, hr₇, hv₇, h₇, hs₇⟩ := h₆'.readWord_uint32 hp hs₆'
  have hs₇' : ((⟨input, 192⟩ : Stream).skip 32).rest = params ++
      (List.replicate ((32 - params.length % 32) % 32) 0 ++ tail) := by
    rw [hs₇, abiPad, List.append_assoc]
  obtain ⟨hparams, h₈, -⟩ := h₇.readPadded_of_rest hs₇'
  simp only [callActorParams, readInput_of_readValue hr₁, readInput_of_readValue hr₂,
    readInput_of_readValue hr₃, readInput_of_readValue hr₄, readInput_of_readValue hr₅,
    readInput_of_readValue hr₆, hv₃, SendFlags.fromBits_bits, hv₅, readInput_of_readValue hr₇, hv₇,
    bind, Except.bind]
  generalize r₇.readPadded params.length = read at hparams h₈
  obtain ⟨r₈, params'⟩ := read
  subst hparams
  cases byId with
  | true =>
    simp only [if_true, pure, Except.pure, hv₁, hv₄, hv₆]
  | false =>
    -- by address: the address's tail, at the offset of the sixth word
    obtain ⟨hat, ha⟩ := haddr rfl
    have hat' : (⟨input, w⟩ : Stream).rest = abiWord address.length ++ (abiPad address ++ post) := by
      rw [hat, abiBytes, List.append_assoc]
    have h₈' : (r₈.seek w).Refines ⟨input, w⟩ := h₈.seek w
    obtain ⟨r₉, v₉, hr₉, hv₉, h₉, hs₉⟩ := h₈'.readWord_uint32 ha hat'
    have hs₉' : ((⟨input, w⟩ : Stream).skip 32).rest = address ++
        (List.replicate ((32 - address.length % 32) % 32) 0 ++ post) := by
      rw [hs₉, abiPad, List.append_assoc]
    obtain ⟨haddress, -, -⟩ := h₉.readPadded_of_rest hs₉'
    simp only [Bool.false_eq_true, if_false, hv₆, readInput_of_readValue hr₉, hv₉, haddress]
    cases addressFromBytes address with
    | none => rfl
    | some a => simp only [Option.elim, pure, Except.pure, hv₁, hv₄]

/-- `call_actor` by address: Solidity's encoding decodes to its fields, the
decoder handing `Address::from_bytes` exactly the address's bytes. -/
theorem callActorParams_abiEncodeCallActor (addressFromBytes : List UInt8 → Option FilAddress)
    {method codec : Nat} (value : U256) (flags : SendFlags) {params address : List UInt8}
    (hm : method < 2 ^ 64) (hc : codec < 2 ^ 64) (hp : params.length < 2 ^ 32)
    (ha : address.length < 2 ^ 32) :
    callActorParams addressFromBytes false
        (abiEncodeCallActor method value flags.bits codec params address) =
      (addressFromBytes address).elim (.error .invalidInput)
        fun a => .ok ⟨method, value, flags.bits, codec, params, a⟩ := by
  -- the address's tail follows the head and the params' tail
  have hhead : (abiCallActorHead method value flags.bits codec ++
      abiWord (192 + (abiBytes params).length) ++ abiBytes params).length =
        192 + (abiBytes params).length := by
    simp only [abiCallActorHead, List.length_append, length_abiWord, U256.length_toBigEndian]
  have hat : (⟨abiEncodeCallActor method value flags.bits codec params address,
      192 + (abiBytes params).length⟩ : Stream).rest = abiBytes address ++ [] := by
    rw [Stream.rest, List.append_nil]
    exact List.drop_left' hhead
  have hw : 192 + (abiBytes params).length < 2 ^ 64 := by
    rw [length_abiBytes]
    omega
  exact callActorParams_of_layout addressFromBytes false rfl hm hc hw hp fun _ => ⟨hat, ha⟩

/-- `call_actor_id`: Solidity's encoding decodes to its fields and the ID's
address. -/
theorem callActorParams_abiEncodeCallActorId (addressFromBytes : List UInt8 → Option FilAddress)
    {method codec id : Nat} (value : U256) (flags : SendFlags) {params : List UInt8}
    (hm : method < 2 ^ 64) (hc : codec < 2 ^ 64) (hp : params.length < 2 ^ 32) (hid : id < 2 ^ 64) :
    callActorParams addressFromBytes true (abiEncodeCallActorId method value flags.bits codec params id) =
      .ok ⟨method, value, flags.bits, codec, params, .id id⟩ := by
  have hinput : abiEncodeCallActorId method value flags.bits codec params id =
      abiCallActorHead method value flags.bits codec ++ abiWord id ++ abiBytes params ++ [] :=
    (List.append_nil _).symm
  -- no address is read by ID, so its tail is left empty
  rw [@callActorParams_of_layout addressFromBytes true _ _ [] _ [] _ _ _ _ _ hinput hm hc hid hp
    (fun h => absurd h (by decide)), if_pos rfl]

/-! ## The output, read back -/

/-- Zeros to a whole word, as `call_actor` pads its output. -/
theorem exists_pad (l : List UInt8) (n : Nat) :
    ∃ pad, (if 0 < l.length % n then l ++ List.replicate (n - l.length % n) 0 else l) = l ++ pad := by
  split_ifs
  · exact ⟨_, rfl⟩
  · exact ⟨[], (List.append_nil l).symm⟩

/-- `call_actor`'s output for a response: the exit code, the return block's
codec, the offset `96` of its data, the data's length and the data, then
zeros to a whole word. -/
theorem callActorOutput_ok (resp : Response) :
    ∃ pad, callActorOutput (.ok resp) = abiWord resp.exitCode.value ++
      (abiWord (resp.returnData.getD ⟨0, []⟩).codec ++ (abiWord 96 ++
        (abiWord (resp.returnData.getD ⟨0, []⟩).data.length ++
          ((resp.returnData.getD ⟨0, []⟩).data ++ pad)))) := by
  -- the data's offset counts the two words before it and the offset's own word
  have hoffset : (abiWord resp.exitCode.value ++
      abiWord (resp.returnData.getD ⟨0, []⟩).codec).length + evmWordSize = 96 := by
    simp [evmWordSize]
  obtain ⟨pad, hpad⟩ := exists_pad (abiWord resp.exitCode.value ++
    abiWord (resp.returnData.getD ⟨0, []⟩).codec ++ abiWord 96 ++
    abiWord (resp.returnData.getD ⟨0, []⟩).data.length ++ (resp.returnData.getD ⟨0, []⟩).data)
    evmWordSize
  refine ⟨pad, ?_⟩
  unfold callActorOutput abiWord at *
  simp only [hoffset]
  rw [hpad]
  simp only [List.append_assoc]

/-- A response's output read back: its block, as the result when the exit
code is zero and beside the error otherwise. -/
theorem handleFilecoinMethodOutput_callActorOutput (resp : Response)
    (hx : resp.exitCode.value < 2 ^ 32)
    (hblk : ∀ blk ∈ resp.returnData, blk.codec = cborCodec ∧ blk.data.length < 2 ^ 32) :
    handleFilecoinMethodOutput (callActorOutput (.ok resp)) =
      if resp.exitCode.value = 0 then .ok resp.returnData
      else .error (⟨resp.exitCode, "EVM contract explicitly exited with a non-zero exit code"⟩,
        resp.returnData) := by
  obtain ⟨pad, hout⟩ := callActorOutput_ok resp
  obtain ⟨⟨x⟩, returnData⟩ := resp
  dsimp only at hx hblk hout ⊢
  -- the block written: the response's, or an empty one of codec 0
  have hwritten : (returnData.getD ⟨0, []⟩).codec < 2 ^ 64 ∧
      (returnData.getD ⟨0, []⟩).data.length < 2 ^ 32 := by
    cases returnData with
    | none => simp
    | some b =>
      obtain ⟨hc, hl⟩ := hblk b rfl
      refine ⟨?_, hl⟩
      simp only [Option.getD_some, hc, cborCodec]
      norm_num
  generalize hb : returnData.getD ⟨0, []⟩ = blk at hout hwritten
  generalize callActorOutput (.ok ⟨⟨x⟩, returnData⟩) = out at hout ⊢
  -- the exit code, the codec and the data's offset, one after another from offset 0
  have hs₀ : (⟨out, 0⟩ : Stream).rest = abiWord x ++ (abiWord blk.codec ++
      (abiWord 96 ++ (abiWord blk.data.length ++ (blk.data ++ pad)))) := by
    rw [Stream.rest, List.drop_zero, hout]
  obtain ⟨r₁, hr₁, h₁, hs₁⟩ := (ValueReader.refines_new out).readWord_exitCode hx hs₀
  obtain ⟨r₂, v₂, hr₂, hv₂, h₂, hs₂⟩ := h₁.readWord_uint64 hwritten.1 hs₁
  obtain ⟨r₃, v₃, hr₃, hv₃, h₃, hs₃⟩ := h₂.readWord_uint32 (by norm_num) hs₂
  -- the data's length word sits at that offset
  have h₃' : (r₃.seek 96).Refines ⟨out, 96⟩ := h₃.seek 96
  have hat : (⟨out, 96⟩ : Stream).rest = abiWord blk.data.length ++ (blk.data ++ pad) := hs₃
  obtain ⟨r₄, v₄, hr₄, hv₄, h₄, hs₄⟩ := h₃'.readWord_uint32 hwritten.2 hat
  obtain ⟨hdata, -, -⟩ := h₄.readPadded_of_rest hs₄
  have hne : out.isEmpty = false := by
    rw [hout]
    rfl
  simp only [handleFilecoinMethodOutput, hne, Bool.false_eq_true, if_false, hr₁, hr₂, hr₃, hv₃,
    hr₄, readOutput, bind, Except.bind, hv₂, hv₄, hdata]
  cases returnData with
  | none =>
    -- no block: codec 0 and no data
    subst hb
    simp [isSuccess, pure, Except.pure, throw, throwThe, MonadExceptOf.throw]
  | some b =>
    -- a CBOR block: read back whole
    subst hb
    obtain ⟨codec, data⟩ := b
    obtain ⟨hc, -⟩ := hblk _ rfl
    dsimp only at hc
    subst hc
    simp [cborCodec, isSuccess, pure, Except.pure, throw, throwThe, MonadExceptOf.throw]

/-! ## The round trip -/

/-- `call_actor`'s ABI round trip: the parameters a contract encodes with
`abi.encode`, by address or by ID, are the ones `call_actor_shared` decodes,
the address's bytes handed whole to `Address::from_bytes`; and a response's
output, as `call_actor_shared` builds it, is read back by
`handle_filecoin_method_output` to the response's block, as the result for
exit code zero and beside an error carrying the exit code otherwise. -/
theorem call_actor_abi_round_trip :
    (∀ (addressFromBytes : List UInt8 → Option FilAddress) (method : Nat) (value : U256)
        (flags : SendFlags) (codec : Nat) (params address : List UInt8),
      method < 2 ^ 64 → codec < 2 ^ 64 → params.length < 2 ^ 32 → address.length < 2 ^ 32 →
      callActorParams addressFromBytes false
          (abiEncodeCallActor method value flags.bits codec params address) =
        (addressFromBytes address).elim (.error .invalidInput)
          fun a => .ok ⟨method, value, flags.bits, codec, params, a⟩) ∧
    (∀ (addressFromBytes : List UInt8 → Option FilAddress) (method : Nat) (value : U256)
        (flags : SendFlags) (codec : Nat) (params : List UInt8) (id : Nat),
      method < 2 ^ 64 → codec < 2 ^ 64 → params.length < 2 ^ 32 → id < 2 ^ 64 →
      callActorParams addressFromBytes true
          (abiEncodeCallActorId method value flags.bits codec params id) =
        .ok ⟨method, value, flags.bits, codec, params, .id id⟩) ∧
    ∀ resp : Response, resp.exitCode.value < 2 ^ 32 →
      (∀ blk ∈ resp.returnData, blk.codec = cborCodec ∧ blk.data.length < 2 ^ 32) →
      handleFilecoinMethodOutput (callActorOutput (.ok resp)) =
        if resp.exitCode.value = 0 then .ok resp.returnData
        else .error (⟨resp.exitCode, "EVM contract explicitly exited with a non-zero exit code"⟩,
          resp.returnData) :=
  ⟨fun addressFromBytes _ value flags _ _ _ hm hc hp ha =>
      callActorParams_abiEncodeCallActor addressFromBytes value flags hm hc hp ha,
    fun addressFromBytes _ value flags _ _ _ hm hc hp hid =>
      callActorParams_abiEncodeCallActorId addressFromBytes value flags hm hc hp hid,
    handleFilecoinMethodOutput_callActorOutput⟩

/-- Method 1024 with value 5, no flags and CBOR params `[1, 2, 3]` sent to the
address of bytes `[4, 5]`, and a CBOR answer `[6]` of exit code 16. -/
theorem call_actor_abi_round_trip_example :
    callActorParams (fun b => some (.bytes b)) false
        (abiEncodeCallActor 1024 5 (SendFlags.bits ⟨false⟩) cborCodec [1, 2, 3] [4, 5]) =
      .ok ⟨1024, 5, 0, cborCodec, [1, 2, 3], .bytes [4, 5]⟩ ∧
    handleFilecoinMethodOutput (callActorOutput (.ok ⟨⟨16⟩, some ⟨cborCodec, [6]⟩⟩)) =
      .error (⟨⟨16⟩, "EVM contract explicitly exited with a non-zero exit code"⟩,
        some ⟨cborCodec, [6]⟩) := by
  refine ⟨call_actor_abi_round_trip.1 _ 1024 5 ⟨false⟩ cborCodec [1, 2, 3] [4, 5] (by norm_num)
    (by norm_num [cborCodec]) (by norm_num) (by norm_num), ?_⟩
  rw [call_actor_abi_round_trip.2.2 ⟨⟨16⟩, some ⟨cborCodec, [6]⟩⟩ (by norm_num)
    (fun blk hblk => by cases hblk; exact ⟨rfl, by norm_num⟩), if_neg (by decide)]

/-! ## `call_actor` with its decoder -/

/-- The runtime whose `call_actor` decoding is `call_actor_shared`'s own. -/
def Env.withCallActorDecoder (env : Env) (addressFromBytes : List UInt8 → Option FilAddress) : Env :=
  { env with
    decodeCallActor := fun byId input => (callActorParams addressFromBytes byId input).toOption }

@[simp] theorem Env.decodeCallActor_withCallActorDecoder (env : Env)
    (addressFromBytes : List UInt8 → Option FilAddress) (byId : Bool) (input : List UInt8) :
    (env.withCallActorDecoder addressFromBytes).decodeCallActor byId input =
      (callActorParams addressFromBytes byId input).toOption := rfl

end BuiltinActors.Evm
