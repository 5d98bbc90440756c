import BuiltinActors.Lib.PaddedList
import BuiltinActors.Evm.Uints
import BuiltinActors.Runtime

/-! # Reading solidity values from precompile input

`ValueReader` reads an input as if infinitely many zero bytes followed it. It
keeps the input and the part of it not read yet, always a suffix of it;
reading past the end leaves nothing, and every later read is zeros.

The abstract reader is a position in the zero-extended input (`Stream`): a
read of `n` bytes returns the `window` of `n` bytes there and moves the
position on by `n`. A reader stands for every position whose suffix of the
input is what it has left (`Refines`); past the end, that is every position.
One lemma per call carries `Refines` over it, and `run_refines` over a whole
sequence of calls.

`read_biguint` multiplies the number of bytes missing past the end by eight as
a `u32`, which the actors' build checks for overflow: from `2 ^ 29` missing
bytes on, the read panics (`readBiguint_panics`). -/

namespace BuiltinActors.Evm

/-- A value read does not fit its type. -/
structure OverflowError where
deriving DecidableEq, Repr

/-- The integer of a byte string, most significant byte first
(`BigUint::from_bytes_be`). -/
def fromBytesBe (bytes : List UInt8) : Nat :=
  bytes.foldl (fun acc b => acc * 256 + b.toNat) 0

/-- The input, and what is left of it to read. -/
structure ValueReader where
  full : List UInt8
  slice : List UInt8
  slice_suffix : slice <:+ full

namespace ValueReader

def new (slice : List UInt8) : ValueReader := ⟨slice, slice, List.suffix_refl slice⟩

/-- Seek to an offset from the beginning of the input. -/
def seek (r : ValueReader) (offset : Nat) : ValueReader :=
  if offset > r.full.length then ⟨r.full, [], List.nil_suffix⟩
  else ⟨r.full, r.full.drop offset, List.drop_suffix _ _⟩

/-- `self.slice.split_at(mid)`, keeping the second part as what is left. -/
def splitAt (r : ValueReader) (mid : Nat) : List UInt8 × ValueReader :=
  (r.slice.take mid, ⟨r.full, r.slice.drop mid, (List.drop_suffix _ _).trans r.slice_suffix⟩)

/-- Drop a fixed number of bytes, and fail if they are not zeros. -/
def dropZeros (r : ValueReader) (s : Nat) : ValueReader × Except OverflowError Unit :=
  let split := min s r.slice.length
  let (a, r) := r.splitAt split
  (r, if a.all (· == 0) then .ok () else .error ⟨⟩)

/-- Read a single byte, or zero if there's no remaining input. -/
def readByte (r : ValueReader) : ValueReader × UInt8 :=
  match h : r.slice with
  | first :: rest => (⟨r.full, rest, (List.suffix_cons first rest).trans (h ▸ r.slice_suffix)⟩, first)
  | [] => (r, 0)

/-- Read a fixed number of bytes from the input, zero-padding as necessary. -/
def readFixed (r : ValueReader) (s : Nat) : ValueReader × List UInt8 :=
  let split := min s r.slice.length
  let (a, r) := r.splitAt split
  (r, a ++ List.replicate (s - split) 0)

/-- Read input and pad up to `len`. -/
def readPadded (r : ValueReader) (len : Nat) : ValueReader × List UInt8 :=
  if len ≤ r.slice.length then
    let (a, r) := r.splitAt len
    (r, a)
  else (⟨r.full, [], List.nil_suffix⟩, r.slice ++ List.replicate (len - r.slice.length) 0)

/-- Read a bigint from the input, and pad up to `len`: the bytes present,
then a shift by the bits of the bytes missing. -/
def readBiguint (r : ValueReader) (len : Nat) : Except ActorError (ValueReader × Nat) :=
  let split := min len r.slice.length
  let (a, r) := r.splitAt split
  let int := fromBytesBe a
  if split < len then
    -- `((len - split) as u32) * u8::BITS`, a `u32` product checked for overflow
    let shift := (len - split) % 2 ^ 32 * 8
    if 2 ^ 32 ≤ shift then .error (.panicked "attempt to multiply with overflow")
    else .ok (r, int <<< shift)
  else .ok (r, int)

end ValueReader

/-- A type that can be read from a `ValueReader`; `Error` says when the input
does not hold one. -/
class Value (α : Type) where
  Error : Type
  read : ValueReader → ValueReader × Except Error α

/-- Read a single value; its type decides how much input it needs. -/
def ValueReader.readValue (r : ValueReader) (α : Type) [Value α] :
    ValueReader × Except (Value.Error α) α :=
  Value.read r

/-- The integer types of `impl_value_int!`: `32 - bytes` zero bytes, then the
value's `bytes` bytes, most significant first. -/
def readInt (bytes : Nat) (r : ValueReader) :
    ValueReader × Except OverflowError (BitVec (8 * bytes)) :=
  let (r, zeros) := r.dropZeros (32 - bytes)
  match zeros with
  | .error e => (r, .error e)
  | .ok () =>
    let (r, b) := r.readFixed bytes
    (r, .ok (BitVec.ofNat (8 * bytes) (fromBytesBe b)))

instance : Value UInt8 where
  Error := OverflowError
  read r :=
    let (r, zeros) := r.dropZeros 31
    match zeros with
    | .error e => (r, .error e)
    | .ok () =>
      let (r, b) := r.readByte
      (r, .ok b)

instance : Value UInt16 := ⟨OverflowError, fun r => ((readInt 2 r).1, (readInt 2 r).2.map UInt16.ofBitVec)⟩
instance : Value Int16 := ⟨OverflowError, fun r => ((readInt 2 r).1, (readInt 2 r).2.map Int16.ofBitVec)⟩
instance : Value UInt32 := ⟨OverflowError, fun r => ((readInt 4 r).1, (readInt 4 r).2.map UInt32.ofBitVec)⟩
instance : Value Int32 := ⟨OverflowError, fun r => ((readInt 4 r).1, (readInt 4 r).2.map Int32.ofBitVec)⟩
instance : Value UInt64 := ⟨OverflowError, fun r => ((readInt 8 r).1, (readInt 8 r).2.map UInt64.ofBitVec)⟩
instance : Value Int64 := ⟨OverflowError, fun r => ((readInt 8 r).1, (readInt 8 r).2.map Int64.ofBitVec)⟩

/-- A 256-bit word never fails to read. -/
instance : Value U256 where
  Error := Empty
  read r := ((r.readFixed 32).1, .ok (U256.fromBigEndian (r.readFixed 32).2))

instance : Value ExitCode where
  Error := OverflowError
  read r := ((r.readValue UInt32).1, (r.readValue UInt32).2.map fun v => ⟨v.toNat⟩)

theorem readValue_uint32 (r : ValueReader) :
    r.readValue UInt32 = ((readInt 4 r).1, (readInt 4 r).2.map UInt32.ofBitVec) := rfl

theorem readValue_uint64 (r : ValueReader) :
    r.readValue UInt64 = ((readInt 8 r).1, (readInt 8 r).2.map UInt64.ofBitVec) := rfl

theorem readValue_u256 (r : ValueReader) :
    r.readValue U256 = ((r.readFixed 32).1, .ok (U256.fromBigEndian (r.readFixed 32).2)) := rfl

theorem readValue_exitCode (r : ValueReader) :
    r.readValue ExitCode =
      ((readInt 4 r).1, (readInt 4 r).2.map fun v => ⟨(UInt32.ofBitVec v).toNat⟩) := by
  show (_, Except.map _ (Except.map _ _)) = _
  cases (readInt 4 r).2 <;> rfl

/-- `readInt` by the outcome of its zero check. -/
theorem readInt_eq (k : Nat) (r : ValueReader) :
    readInt k r = if (r.dropZeros (32 - k)).2 = .ok () then
      (((r.dropZeros (32 - k)).1.readFixed k).1,
        .ok (BitVec.ofNat (8 * k) (fromBytesBe ((r.dropZeros (32 - k)).1.readFixed k).2)))
    else ((r.dropZeros (32 - k)).1, .error ⟨⟩) := by
  unfold readInt
  generalize r.dropZeros (32 - k) = p
  obtain ⟨r₁, z⟩ := p
  cases z with
  | error e => simp
  | ok u => simp

/-! ## Big-endian integers -/

theorem fromBytesBe_eq_ofDigits (l : List UInt8) :
    fromBytesBe l = Nat.ofDigits 256 (l.map UInt8.toNat).reverse := by
  rw [fromBytesBe, ← List.foldl_map, U256.foldl_shift_add, zero_mul, zero_add]

theorem fromBytesBe_append (a b : List UInt8) :
    fromBytesBe (a ++ b) = fromBytesBe a * 256 ^ b.length + fromBytesBe b := by
  rw [fromBytesBe_eq_ofDigits, fromBytesBe_eq_ofDigits, fromBytesBe_eq_ofDigits, List.map_append,
    List.reverse_append, Nat.ofDigits_append, List.length_reverse, List.length_map]
  ring

@[simp] theorem fromBytesBe_replicate_zero (k : Nat) : fromBytesBe (List.replicate k 0) = 0 := by
  induction k with
  | zero => rfl
  | succ k ih =>
    rw [List.replicate_succ', fromBytesBe_append, ih]
    rfl

theorem fromBytesBe_lt (l : List UInt8) : fromBytesBe l < 256 ^ l.length := by
  rw [fromBytesBe_eq_ofDigits]
  have h := @Nat.ofDigits_lt_base_pow_length 256 (l.map UInt8.toNat).reverse (by norm_num)
    (by simpa using fun a _ => a.toNat_lt)
  simpa using h

theorem fromBytesBe_eq_zero_iff {l : List UInt8} : fromBytesBe l = 0 ↔ l.all (· == 0) := by
  induction l with
  | nil => simp [fromBytesBe]
  | cons b l ih =>
    rw [show b :: l = [b] ++ l from rfl, fromBytesBe_append, List.all_append, Bool.and_eq_true, ← ih]
    have hpow : 0 < 256 ^ l.length := by positivity
    have hb : fromBytesBe [b] = b.toNat := by simp [fromBytesBe]
    -- a sum of two naturals is zero iff both are, and the high byte is scaled by a positive power
    rw [hb, Nat.add_eq_zero_iff, Nat.mul_eq_zero, or_iff_left hpow.ne']
    simp [← UInt8.toNat_inj]

/-- A word written out and read back. -/
theorem fromBytesBe_toBigEndian (x : U256) : fromBytesBe (U256.toBigEndian x) = x.toNat := by
  have h := congrArg BitVec.toNat (U256.fromBigEndian_toBigEndian x)
  rw [U256.fromBigEndian, BitVec.toNat_ofNat] at h
  have hlt := fromBytesBe_lt (U256.toBigEndian x)
  rw [U256.length_toBigEndian] at hlt
  rw [← h]
  exact (Nat.mod_eq_of_lt (by simpa using hlt)).symm

/-! ## The abstract reader: a position in a zero-extended input -/

/-- A position in an input followed by infinitely many zero bytes. -/
structure Stream where
  input : List UInt8
  pos : Nat

namespace Stream

/-- The `n` bytes from the position on. -/
def bytes (s : Stream) (n : Nat) : List UInt8 :=
  PaddedList.window (PaddedList.view 0 s.input) s.pos n

def skip (s : Stream) (n : Nat) : Stream := ⟨s.input, s.pos + n⟩

/-- How many of the `n` bytes from the position lie past the end of the input. -/
def missing (s : Stream) (n : Nat) : Nat := n - min n (s.input.length - s.pos)

@[simp] theorem length_bytes (s : Stream) (n : Nat) : (s.bytes n).length = n := by
  simp [bytes]

@[simp] theorem skip_input (s : Stream) (n : Nat) : (s.skip n).input = s.input := rfl

theorem skip_skip (s : Stream) (m n : Nat) : (s.skip m).skip n = s.skip (m + n) := by
  simp [skip, Nat.add_assoc]

theorem bytes_add (s : Stream) (m n : Nat) : s.bytes (m + n) = s.bytes m ++ (s.skip m).bytes n :=
  PaddedList.window_add _ _ _ _

/-- Within the input, the bytes are a slice of it. -/
theorem bytes_of_le (s : Stream) {n : Nat} (h : s.pos + n ≤ s.input.length) :
    s.bytes n = (s.input.drop s.pos).take n :=
  (PaddedList.take_drop_eq_window _ h).symm

end Stream

namespace ValueReader

/-- The reader has left exactly the input from the position on. -/
def Refines (r : ValueReader) (s : Stream) : Prop :=
  r.full = s.input ∧ r.slice = s.input.drop s.pos

section Refinement

variable {r : ValueReader} {s : Stream}

theorem refines_new (x : List UInt8) : (new x).Refines ⟨x, 0⟩ := ⟨rfl, rfl⟩

theorem Refines.length_slice (h : r.Refines s) : r.slice.length = s.input.length - s.pos := by
  rw [h.2, List.length_drop]

theorem Refines.seek (h : r.Refines s) (offset : Nat) : (r.seek offset).Refines ⟨s.input, offset⟩ := by
  unfold ValueReader.seek
  split_ifs with ho
  · -- past the end nothing is left, as the input has nothing past its end
    rw [h.1] at ho
    exact ⟨h.1, (List.drop_of_length_le (by simp only; omega)).symm⟩
  · refine ⟨h.1, ?_⟩
    show r.full.drop offset = s.input.drop offset
    rw [h.1]

/-- Splitting at the bytes present of `n` reads them and moves the position on by `n`. -/
theorem Refines.splitAt (h : r.Refines s) (n : Nat) :
    (r.splitAt (min n r.slice.length)).1 = (s.input.drop s.pos).take n ∧
      (r.splitAt (min n r.slice.length)).2.Refines (s.skip n) := by
  have hslice := h.2
  refine ⟨?_, h.1, ?_⟩
  · show r.slice.take _ = _
    rw [hslice]
    by_cases hn : n ≤ (s.input.drop s.pos).length
    · rw [min_eq_left hn]
    · rw [min_eq_right (by omega), List.take_length, List.take_of_length_le (by omega)]
  · show r.slice.drop _ = s.input.drop (s.pos + n)
    rw [← List.drop_drop, ← hslice]
    by_cases hn : n ≤ r.slice.length
    · rw [min_eq_left hn]
    · rw [min_eq_right (by omega), List.drop_length, List.drop_of_length_le (by omega)]

/-- What `read_fixed` and `read_padded` return: the bytes present and zeros. -/
theorem Refines.take_append_replicate (h : r.Refines s) (n : Nat) :
    (s.input.drop s.pos).take n ++ List.replicate (n - r.slice.length) 0 = s.bytes n := by
  rw [h.length_slice]
  exact PaddedList.take_drop_append_replicate _ _ _

theorem Refines.readFixed (h : r.Refines s) (n : Nat) :
    (r.readFixed n).2 = s.bytes n ∧ (r.readFixed n).1.Refines (s.skip n) := by
  obtain ⟨htake, hrest⟩ := h.splitAt n
  refine ⟨?_, hrest⟩
  show (r.splitAt (min n r.slice.length)).1 ++ List.replicate (n - min n r.slice.length) 0 = _
  rw [htake, ← h.take_append_replicate n]
  congr 2
  omega

theorem Refines.readPadded (h : r.Refines s) (n : Nat) :
    (r.readPadded n).2 = s.bytes n ∧ (r.readPadded n).1.Refines (s.skip n) := by
  unfold ValueReader.readPadded
  split_ifs with hn
  · -- enough input: a plain split
    obtain ⟨htake, hrest⟩ := h.splitAt n
    rw [min_eq_left hn] at htake hrest
    refine ⟨?_, hrest⟩
    show (r.splitAt n).1 = _
    rw [htake, ← h.take_append_replicate n, Nat.sub_eq_zero_of_le hn, List.replicate_zero,
      List.append_nil]
  · -- the input runs out: all of it, then zeros, and nothing left
    refine ⟨?_, h.1, ?_⟩
    · rw [← h.take_append_replicate n, ← h.2, List.take_of_length_le (by omega)]
    · show [] = s.input.drop (s.pos + n)
      rw [← List.drop_drop, ← h.2, List.drop_of_length_le (by omega)]

theorem Refines.readByte (h : r.Refines s) :
    [r.readByte.2] = s.bytes 1 ∧ r.readByte.1.Refines (s.skip 1) := by
  have hfixed := h.readFixed 1
  unfold ValueReader.readByte
  split
  · -- a byte present: the same as reading one fixed byte
    rename_i first rest hslice
    simp only [ValueReader.readFixed, ValueReader.splitAt, hslice] at hfixed
    simpa using hfixed
  · -- nothing left: a zero, and the reader stays as it is
    rename_i hslice
    simp only [ValueReader.readFixed, ValueReader.splitAt, hslice] at hfixed
    refine ⟨by simpa using hfixed.1, hfixed.2.1, ?_⟩
    rw [hslice]
    exact hfixed.2.2

theorem Refines.dropZeros (h : r.Refines s) (n : Nat) :
    (r.dropZeros n).2 = (if (s.bytes n).all (· == 0) then .ok () else .error ⟨⟩) ∧
      (r.dropZeros n).1.Refines (s.skip n) := by
  obtain ⟨htake, hrest⟩ := h.splitAt n
  refine ⟨?_, hrest⟩
  -- the padding is zeros, so only the bytes present decide
  have hall : (s.bytes n).all (· == 0) = ((s.input.drop s.pos).take n).all (· == 0) := by
    rw [← h.take_append_replicate n, List.all_append]
    simp
  show (if (r.splitAt (min n r.slice.length)).1.all (· == 0) then _ else _) = _
  rw [htake, hall]

/-- `read_biguint` panics once `2 ^ 29` bytes or more are missing, counted as a `u32`. -/
theorem Refines.readBiguint_panics (h : r.Refines s) {n : Nat} (hp : 2 ^ 29 ≤ s.missing n % 2 ^ 32) :
    r.readBiguint n = .error (.panicked "attempt to multiply with overflow") := by
  have hmissing : s.missing n = n - min n r.slice.length := by
    rw [Stream.missing, h.length_slice]
  rw [hmissing] at hp
  have hlt : min n r.slice.length < n := by
    by_contra hge
    rw [Nat.sub_eq_zero_of_le (by omega)] at hp
    simp at hp
  simp only [ValueReader.readBiguint, if_pos hlt]
  rw [if_pos (by omega)]

/-- With fewer missing bytes, it reads the big-endian integer of the next `n` bytes. -/
theorem Refines.readBiguint (h : r.Refines s) {n : Nat} (hp : s.missing n < 2 ^ 29) :
    ∃ r', r.readBiguint n = .ok (r', fromBytesBe (s.bytes n)) ∧ r'.Refines (s.skip n) := by
  obtain ⟨htake, hrest⟩ := h.splitAt n
  have hmissing : s.missing n = n - min n r.slice.length := by
    rw [Stream.missing, h.length_slice]
  -- the value read is the bytes present followed by the missing zeros
  have hvalue : fromBytesBe (s.bytes n) =
      fromBytesBe (r.splitAt (min n r.slice.length)).1 * 2 ^ (8 * s.missing n) := by
    have hexp : n - r.slice.length = n - min n r.slice.length := by omega
    rw [← h.take_append_replicate n, fromBytesBe_append, fromBytesBe_replicate_zero, add_zero,
      List.length_replicate, htake, hmissing, pow_mul, hexp]
    norm_num
  refine ⟨_, ?_, hrest⟩
  unfold ValueReader.readBiguint
  dsimp only
  split_ifs with hlt hover
  · omega
  · rw [hvalue, Nat.shiftLeft_eq, hmissing, Nat.mod_eq_of_lt (by omega), Nat.mul_comm 8]
  · rw [hvalue, hmissing, Nat.sub_eq_zero_of_le (by omega)]
    simp

/-- An integer of `k` bytes: the next word if it fits, and then the position is
past the word; else an overflow, with the position past the zero bytes. -/
theorem Refines.readInt (h : r.Refines s) (k : Nat) (hk : k ≤ 32) :
    let w := fromBytesBe (s.bytes 32)
    (w < 2 ^ (8 * k) → (readInt k r).2 = .ok (BitVec.ofNat (8 * k) w) ∧
        (readInt k r).1.Refines (s.skip 32)) ∧
      (2 ^ (8 * k) ≤ w → (readInt k r).2 = .error ⟨⟩ ∧ (readInt k r).1.Refines (s.skip (32 - k))) := by
  intro w
  obtain ⟨hzeros, hr₁⟩ := h.dropZeros (32 - k)
  obtain ⟨hfixed, hr₂⟩ := hr₁.readFixed k
  -- the word is its zero prefix followed by the value's bytes
  have hsplit : s.bytes 32 = s.bytes (32 - k) ++ (s.skip (32 - k)).bytes k := by
    rw [← Stream.bytes_add, Nat.sub_add_cancel hk]
  have hw : w = fromBytesBe (s.bytes (32 - k)) * 2 ^ (8 * k) + fromBytesBe ((s.skip (32 - k)).bytes k) := by
    show fromBytesBe (s.bytes 32) = _
    rw [hsplit, fromBytesBe_append, Stream.length_bytes, pow_mul]
    rfl
  have hlow : fromBytesBe ((s.skip (32 - k)).bytes k) < 2 ^ (8 * k) := by
    have := fromBytesBe_lt ((s.skip (32 - k)).bytes k)
    rwa [Stream.length_bytes, show (256 : Nat) = 2 ^ 8 from rfl, ← pow_mul] at this
  have hskip : (s.skip (32 - k)).skip k = s.skip 32 := by
    rw [Stream.skip_skip, Nat.sub_add_cancel hk]
  constructor
  · intro hfit
    -- a word that fits has a zero prefix
    have hzero : fromBytesBe (s.bytes (32 - k)) = 0 := by
      by_contra hne
      have : 2 ^ (8 * k) ≤ w := by
        rw [hw]
        nlinarith [Nat.pos_of_ne_zero hne]
      omega
    have hz : (r.dropZeros (32 - k)).2 = .ok () := by
      rw [hzeros, if_pos (fromBytesBe_eq_zero_iff.mp hzero)]
    rw [readInt_eq, if_pos hz]
    refine ⟨?_, hskip ▸ hr₂⟩
    rw [hfixed, hw, hzero, zero_mul, zero_add]
  · intro hbig
    have hnz : ¬(s.bytes (32 - k)).all (· == 0) = true := by
      rw [← fromBytesBe_eq_zero_iff]
      intro h0
      rw [hw, h0, zero_mul, zero_add] at hbig
      omega
    have hz : (r.dropZeros (32 - k)).2 = .error ⟨⟩ := by
      rw [hzeros, if_neg hnz]
    rw [readInt_eq, if_neg (by rw [hz]; simp)]
    exact ⟨rfl, hr₁⟩

end Refinement

end ValueReader

/-! ## Sequences of calls -/

/-- A call on a reader; `readUint k` is `read_value` of an unsigned integer of
`k` bytes (`u16`, `u32`, `u64`). -/
inductive ReaderOp
  | seek (offset : Nat)
  | readFixed (n : Nat)
  | readPadded (n : Nat)
  | readBiguint (n : Nat)
  | readUint (k : Nat)

/-- What a call returns. -/
inductive ReadOut
  | none
  | bytes (b : List UInt8)
  | nat (n : Nat)
  | overflow
deriving DecidableEq

/-- An integer read, as a number. -/
def ReadOut.ofInt {k : Nat} : Except OverflowError (BitVec k) → ReadOut
  | .ok w => .nat w.toNat
  | .error _ => .overflow

/-- Lengths are `usize` values of the actors' 32-bit target, and an integer
type fits in a word. -/
def ReaderOp.WellSized : ReaderOp → Prop
  | .readBiguint n => n < 2 ^ 32
  | .readUint k => k ≤ 32
  | _ => True

namespace ValueReader

def exec (r : ValueReader) : ReaderOp → Except ActorError (ValueReader × ReadOut)
  | .seek offset => .ok (r.seek offset, .none)
  | .readFixed n => .ok ((r.readFixed n).1, .bytes (r.readFixed n).2)
  | .readPadded n => .ok ((r.readPadded n).1, .bytes (r.readPadded n).2)
  | .readBiguint n => (r.readBiguint n).map fun p => (p.1, .nat p.2)
  | .readUint k => .ok ((readInt k r).1, .ofInt (readInt k r).2)

/-- The calls one after the other, stopping at a panic. -/
def run (r : ValueReader) : List ReaderOp → Except ActorError (ValueReader × List ReadOut)
  | [] => .ok (r, [])
  | op :: ops => do
    let step ← r.exec op
    let rest ← step.1.run ops
    return (rest.1, step.2 :: rest.2)

end ValueReader

namespace Stream

/-- A call on the zero-extended input: every read returns the bytes at the
position and moves past them; an integer fits or overflows. -/
def exec (s : Stream) : ReaderOp → Stream × ReadOut
  | .seek offset => (⟨s.input, offset⟩, .none)
  | .readFixed n => (s.skip n, .bytes (s.bytes n))
  | .readPadded n => (s.skip n, .bytes (s.bytes n))
  | .readBiguint n => (s.skip n, .nat (fromBytesBe (s.bytes n)))
  | .readUint k =>
    if fromBytesBe (s.bytes 32) < 2 ^ (8 * k) then (s.skip 32, .nat (fromBytesBe (s.bytes 32)))
    else (s.skip (32 - k), .overflow)

/-- Whether the reader panics on a call. -/
def panics (s : Stream) : ReaderOp → Bool
  | .readBiguint n => decide (2 ^ 29 ≤ s.missing n % 2 ^ 32)
  | _ => false

def run (s : Stream) : List ReaderOp → Stream × List ReadOut
  | [] => (s, [])
  | op :: ops => (((s.exec op).1.run ops).1, (s.exec op).2 :: ((s.exec op).1.run ops).2)

/-- Whether some call of the sequence panics. -/
def runPanics (s : Stream) : List ReaderOp → Bool
  | [] => false
  | op :: ops => s.panics op || (s.exec op).1.runPanics ops

end Stream

namespace ValueReader

variable {r : ValueReader} {s : Stream}

/-- One call keeps the reader refining the stream and returns what the stream
returns, or panics where the stream says it does. -/
theorem Refines.exec (h : r.Refines s) (op : ReaderOp) (hop : op.WellSized) :
    (s.panics op = true → r.exec op = .error (.panicked "attempt to multiply with overflow")) ∧
      (s.panics op = false → ∃ r', r.exec op = .ok (r', (s.exec op).2) ∧ r'.Refines (s.exec op).1) := by
  cases op with
  | seek offset =>
    exact ⟨fun hp => by simp [Stream.panics] at hp, fun _ => ⟨_, rfl, h.seek offset⟩⟩
  | readFixed n =>
    obtain ⟨hv, hr⟩ := h.readFixed n
    exact ⟨fun hp => by simp [Stream.panics] at hp, fun _ => ⟨_, by rw [ValueReader.exec, hv]; rfl, hr⟩⟩
  | readPadded n =>
    obtain ⟨hv, hr⟩ := h.readPadded n
    exact ⟨fun hp => by simp [Stream.panics] at hp, fun _ => ⟨_, by rw [ValueReader.exec, hv]; rfl, hr⟩⟩
  | readBiguint n =>
    -- a length below `2 ^ 32` counts its missing bytes exactly
    have hmod : s.missing n % 2 ^ 32 = s.missing n :=
      Nat.mod_eq_of_lt (lt_of_le_of_lt (Nat.sub_le _ _) hop)
    constructor
    · intro hp
      simp only [Stream.panics, decide_eq_true_eq] at hp
      rw [ValueReader.exec, h.readBiguint_panics hp]
      rfl
    · intro hp
      simp only [Stream.panics, decide_eq_false_iff_not, not_le, hmod] at hp
      obtain ⟨r', hv, hr⟩ := h.readBiguint hp
      exact ⟨r', by rw [ValueReader.exec, hv]; rfl, hr⟩
  | readUint k =>
    obtain ⟨hfit, hbig⟩ := h.readInt k hop
    refine ⟨fun hp => by simp [Stream.panics] at hp, fun _ => ?_⟩
    by_cases hw : fromBytesBe (s.bytes 32) < 2 ^ (8 * k)
    · obtain ⟨hv, hr⟩ := hfit hw
      refine ⟨_, ?_, by simpa [Stream.exec, hw] using hr⟩
      rw [ValueReader.exec, hv]
      simp [Stream.exec, hw, ReadOut.ofInt, Nat.mod_eq_of_lt hw]
    · obtain ⟨hv, hr⟩ := hbig (not_lt.mp hw)
      refine ⟨_, ?_, by simpa [Stream.exec, hw] using hr⟩
      rw [ValueReader.exec, hv]
      simp [Stream.exec, hw, ReadOut.ofInt]

end ValueReader

/-- Over any sequence of calls, a reader keeps refining the zero-extended
input: each read returns the bytes at the position, followed by zeros past the
end, and moves the position on by the bytes asked for, until a call panics. -/
theorem value_reader_run_refines :
    ∀ (ops : List ReaderOp) (r : ValueReader) (s : Stream), r.Refines s →
      (∀ op ∈ ops, op.WellSized) →
      (s.runPanics ops = false →
        ∃ r', r.run ops = .ok (r', (s.run ops).2) ∧ r'.Refines (s.run ops).1) ∧
      (s.runPanics ops = true → r.run ops = .error (.panicked "attempt to multiply with overflow"))
  | [], r, s, h, _ => ⟨fun _ => ⟨r, rfl, h⟩, fun hp => by cases hp⟩
  | op :: ops, r, s, h, hsized => by
    have hop := hsized op List.mem_cons_self
    have hrest : ∀ op ∈ ops, op.WellSized := fun op' hop' => hsized op' (List.mem_cons_of_mem _ hop')
    obtain ⟨hpanic, hstep⟩ := h.exec op hop
    constructor
    · intro hp
      simp only [Stream.runPanics, Bool.or_eq_false_iff] at hp
      obtain ⟨r₁, h₁, hr₁⟩ := hstep hp.1
      obtain ⟨r', h', hr'⟩ := (value_reader_run_refines ops r₁ _ hr₁ hrest).1 hp.2
      refine ⟨r', ?_, hr'⟩
      simp only [ValueReader.run, h₁, bind, Except.bind, h', Stream.run]
      rfl
    · intro hp
      simp only [Stream.runPanics, Bool.or_eq_true] at hp
      by_cases hnow : s.panics op = true
      · simp only [ValueReader.run, hpanic hnow, bind, Except.bind]
      · -- the call goes through, and a later one panics
        obtain ⟨r₁, h₁, hr₁⟩ := hstep (by simpa using hnow)
        have hlater := (value_reader_run_refines ops r₁ _ hr₁ hrest).2 (hp.resolve_left hnow)
        simp only [ValueReader.run, h₁, bind, Except.bind, hlater]

theorem value_reader_run_refines_example :
    ∃ r', (ValueReader.new [1, 2, 3]).run [.readFixed 2, .readPadded 2, .seek 1, .readUint 2] =
      .ok (r', [.bytes [1, 2], .bytes [3, 0], .none, .overflow]) := by
  have hsized : ∀ op ∈ [ReaderOp.readFixed 2, .readPadded 2, .seek 1, .readUint 2], op.WellSized := by
    simp [ReaderOp.WellSized]
  obtain ⟨r', hrun, -⟩ := (value_reader_run_refines _ _ _ (ValueReader.refines_new [1, 2, 3])
    hsized).1 (by decide)
  have hout : (Stream.run ⟨[1, 2, 3], 0⟩
      [.readFixed 2, .readPadded 2, .seek 1, .readUint 2]).2 =
      [.bytes [1, 2], .bytes [3, 0], .none, .overflow] := by decide
  exact ⟨r', hout ▸ hrun⟩

/-- `read_biguint` panics on lengths the target allows once `2 ^ 29` of the
bytes asked for lie past the end of the input. -/
theorem read_biguint_overflows_past_input (x : List UInt8) (pos n : Nat) (hn : n < 2 ^ 32)
    (hmissing : 2 ^ 29 ≤ n - min n (x.length - pos)) :
    ((ValueReader.new x).seek pos).readBiguint n =
      .error (.panicked "attempt to multiply with overflow") := by
  have h := (ValueReader.refines_new x).seek pos
  refine h.readBiguint_panics ?_
  have hlt : n - min n (x.length - pos) < 2 ^ 32 := lt_of_le_of_lt (Nat.sub_le _ _) hn
  show 2 ^ 29 ≤ (n - min n (x.length - pos)) % 2 ^ 32
  rw [Nat.mod_eq_of_lt hlt]
  exact hmissing

theorem read_biguint_overflows_past_input_empty :
    (2 ^ 29 : Nat) < 2 ^ 32 ∧ 2 ^ 29 ≤ 2 ^ 29 - min (2 ^ 29) (([] : List UInt8).length - 0) ∧
      ((ValueReader.new []).seek 0).readBiguint (2 ^ 29) =
        .error (.panicked "attempt to multiply with overflow") :=
  ⟨by norm_num, by norm_num, read_biguint_overflows_past_input [] 0 (2 ^ 29) (by norm_num) (by norm_num)⟩

end BuiltinActors.Evm
