import BuiltinActors.Evm.Reader
import BuiltinActors.Evm.System

/-! # The MODEXP precompile

`modexp` (EIP-198) reads three 32-byte lengths, each required to fit a `u32`,
then the base, exponent and modulus as big-endian integers of those lengths
from the zero-extended input, and answers `base ^ exponent % modulus` in
`mod_len` bytes.

A precompile answers `Except PrecompileError`; a panic aborts the whole
message instead, so it is the outer `Except ActorError`. The integers are read
with `read_biguint`, which panics once `2 ^ 29` of the bytes asked for lie
past the end of the input (`modexp_panics_on_long_base`); below that, the
answer is EIP-198's (`modexp_follows_eip198`). -/

namespace BuiltinActors.Evm

/-- `BigUint::to_bytes_be`: most significant byte first, with no leading zero
byte; zero is a single zero byte. -/
def toBytesBe (n : Nat) : List UInt8 :=
  if n = 0 then [0] else ((Nat.digits 256 n).map UInt8.ofNat).reverse

/-- `modexp` from the operands' lengths on: the three integers, then the
power, padded on the left to `mod_len` bytes. -/
def modexpOf (reader : ValueReader) (baseLen exponentLen modLen : Nat) :
    Except ActorError (Except PrecompileError (List UInt8)) := do
  let (reader, base) ← reader.readBiguint baseLen
  let (reader, exponent) ← reader.readBiguint exponentLen
  let (_, modulus) ← reader.readBiguint modLen
  -- mod 0 is undefined: 0, base mod 1 is always 0
  if modulus = 0 ∨ modulus = 1 then return .ok (List.replicate modLen 0)
  let output := toBytesBe (base ^ exponent % modulus)
  if output.length < modLen then
    -- left padding
    return .ok (List.replicate (modLen - output.length) 0 ++ output)
  return .ok output

/-- Modulus exponent a number. -/
def modexp (input : List UInt8) : Except ActorError (Except PrecompileError (List UInt8)) := do
  let reader := ValueReader.new input
  -- lengths above `u32` are an invalid input; the user would run out of gas anyways
  let read := reader.readValue UInt32
  let .ok baseLen := read.2 | return .error .invalidInput
  let read := read.1.readValue UInt32
  let .ok exponentLen := read.2 | return .error .invalidInput
  let read := read.1.readValue UInt32
  let .ok modLen := read.2 | return .error .invalidInput
  if baseLen = 0 ∧ modLen = 0 then return .ok []
  modexpOf read.1 baseLen.toNat exponentLen.toNat modLen.toNat

/-! ## Big-endian output -/

theorem fromBytesBe_toBytesBe (n : Nat) : fromBytesBe (toBytesBe n) = n := by
  unfold toBytesBe
  split_ifs with hn
  · subst hn
    rfl
  · -- every digit is below the base, so it survives the round trip through a byte
    have hdigits : ((Nat.digits 256 n).map UInt8.ofNat).map UInt8.toNat = Nat.digits 256 n := by
      rw [List.map_map]
      refine (List.map_congr_left fun d hd => ?_).trans (List.map_id _)
      have hlt : d < 256 := Nat.digits_lt_base (by norm_num) hd
      simp [UInt8.toNat_ofNat', Nat.mod_eq_of_lt hlt]
    rw [fromBytesBe_eq_ofDigits, List.map_reverse, List.reverse_reverse, hdigits,
      Nat.ofDigits_digits]

theorem length_toBytesBe_le {n k : Nat} (hk : 0 < k) (hn : n < 256 ^ k) :
    (toBytesBe n).length ≤ k := by
  unfold toBytesBe
  split_ifs
  · simp only [List.length_singleton]
    omega
  · simpa using (Nat.digits_length_le_iff (by norm_num) n).mpr hn

/-- The answer padded on the left is `modLen` bytes spelling the value. -/
theorem padded_toBytesBe {n modLen : Nat} (hk : 0 < modLen) (hn : n < 256 ^ modLen) :
    let output := toBytesBe n
    let out := if output.length < modLen then
      List.replicate (modLen - output.length) 0 ++ output else output
    out.length = modLen ∧ fromBytesBe out = n := by
  intro output out
  have hle : output.length ≤ modLen := length_toBytesBe_le hk hn
  by_cases hlt : output.length < modLen
  · simp only [out, if_pos hlt, List.length_append, List.length_replicate, fromBytesBe_append,
      fromBytesBe_replicate_zero, zero_mul, zero_add]
    exact ⟨by omega, fromBytesBe_toBytesBe n⟩
  · simp only [out, if_neg hlt]
    exact ⟨by omega, fromBytesBe_toBytesBe n⟩

/-! ## The lengths -/

section Lengths

variable (input : List UInt8)

/-- The three lengths at the head of the input. -/
def modexpLengths : Nat × Nat × Nat :=
  (fromBytesBe ((⟨input, 0⟩ : Stream).bytes 32), fromBytesBe ((⟨input, 32⟩ : Stream).bytes 32),
    fromBytesBe ((⟨input, 64⟩ : Stream).bytes 32))

/-- A length that does not fit a `u32` is an invalid input. -/
theorem modexp_of_length_overflow (h : 2 ^ 32 ≤ (modexpLengths input).1 ∨
    2 ^ 32 ≤ (modexpLengths input).2.1 ∨ 2 ^ 32 ≤ (modexpLengths input).2.2) :
    modexp input = .ok (.error .invalidInput) := by
  have h₀ := ValueReader.refines_new input
  obtain ⟨hfit₁, hbig₁⟩ := h₀.readInt 4 (by norm_num)
  by_cases hb : (modexpLengths input).1 < 2 ^ 32
  · obtain ⟨hv₁, h₁⟩ := hfit₁ hb
    obtain ⟨hfit₂, hbig₂⟩ := h₁.readInt 4 (by norm_num)
    by_cases he : (modexpLengths input).2.1 < 2 ^ 32
    · obtain ⟨hv₂, h₂⟩ := hfit₂ he
      obtain ⟨-, hbig₃⟩ := h₂.readInt 4 (by norm_num)
      have hm : 2 ^ 32 ≤ (modexpLengths input).2.2 := by omega
      obtain ⟨hv₃, -⟩ := hbig₃ hm
      simp only [modexp, readValue_uint32, hv₁, hv₂, hv₃, Except.map]
      rfl
    · obtain ⟨hv₂, -⟩ := hbig₂ (not_lt.mp he)
      simp only [modexp, readValue_uint32, hv₁, hv₂, Except.map]
      rfl
  · obtain ⟨hv₁, -⟩ := hbig₁ (not_lt.mp hb)
    simp only [modexp, readValue_uint32, hv₁, Except.map]
    rfl

/-- Lengths that fit a `u32` are read, and the reader is then past them. -/
theorem modexp_of_lengths (hb : (modexpLengths input).1 < 2 ^ 32)
    (he : (modexpLengths input).2.1 < 2 ^ 32) (hm : (modexpLengths input).2.2 < 2 ^ 32) :
    ∃ r : ValueReader, r.Refines ⟨input, 96⟩ ∧
      modexp input = if (modexpLengths input).1 = 0 ∧ (modexpLengths input).2.2 = 0 then .ok (.ok [])
        else modexpOf r (modexpLengths input).1 (modexpLengths input).2.1 (modexpLengths input).2.2 := by
  have h₀ := ValueReader.refines_new input
  obtain ⟨hv₁, h₁⟩ := (h₀.readInt 4 (by norm_num)).1 hb
  obtain ⟨hv₂, h₂⟩ := (h₁.readInt 4 (by norm_num)).1 he
  obtain ⟨hv₃, h₃⟩ := (h₂.readInt 4 (by norm_num)).1 hm
  refine ⟨_, h₃, ?_⟩
  -- the three words the reader meets are the lengths
  have hw₁ : fromBytesBe ((⟨input, 0⟩ : Stream).bytes 32) = (modexpLengths input).1 := rfl
  have hw₂ : fromBytesBe (((⟨input, 0⟩ : Stream).skip 32).bytes 32) = (modexpLengths input).2.1 := rfl
  have hw₃ : fromBytesBe ((((⟨input, 0⟩ : Stream).skip 32).skip 32).bytes 32) =
      (modexpLengths input).2.2 := rfl
  simp only [modexp, readValue_uint32, hv₁, hv₂, hv₃, Except.map, hw₁, hw₂, hw₃]
  -- a length read back from its `u32` is the length
  have hnat : ∀ w : Nat, w < 2 ^ 32 → (UInt32.ofBitVec (BitVec.ofNat (8 * 4) w)).toNat = w :=
    fun w hw => by rw [UInt32.toNat_ofBitVec, BitVec.toNat_ofNat, Nat.mod_eq_of_lt hw]
  have hzero : ∀ w : Nat, w < 2 ^ 32 → (UInt32.ofBitVec (BitVec.ofNat (8 * 4) w) = 0 ↔ w = 0) :=
    fun w hw => by rw [← UInt32.toNat_inj, hnat w hw]; rfl
  simp only [hzero _ hb, hzero _ hm, hnat _ hb, hnat _ he, hnat _ hm]
  rfl

end Lengths

/-! ## The operands -/

section Operands

variable {r : ValueReader} {s : Stream}

/-- `modexp` panics where reading the base does. -/
theorem modexpOf_of_base_panics (h : r.Refines s) {baseLen exponentLen modLen : Nat}
    (hp : 2 ^ 29 ≤ s.missing baseLen % 2 ^ 32) :
    modexpOf r baseLen exponentLen modLen =
      .error (.panicked "attempt to multiply with overflow") := by
  simp only [modexpOf, h.readBiguint_panics hp]
  rfl

/-- With fewer than `2 ^ 29` bytes in each operand, `modexp` answers EIP-198's
power in `modLen` bytes. -/
theorem modexpOf_spec (h : r.Refines s) {baseLen exponentLen modLen : Nat}
    (hb : baseLen < 2 ^ 29) (he : exponentLen < 2 ^ 29) (hm : modLen < 2 ^ 29) :
    let base := fromBytesBe (s.bytes baseLen)
    let exponent := fromBytesBe ((s.skip baseLen).bytes exponentLen)
    let modulus := fromBytesBe ((s.skip (baseLen + exponentLen)).bytes modLen)
    ∃ out, modexpOf r baseLen exponentLen modLen = .ok (.ok out) ∧ out.length = modLen ∧
      fromBytesBe out = if modulus ≤ 1 then 0 else base ^ exponent % modulus := by
  intro base exponent modulus
  -- no read misses as many bytes as it asks for
  have hmissing : ∀ (t : Stream) (n : Nat), n < 2 ^ 29 → t.missing n < 2 ^ 29 :=
    fun t n hn => lt_of_le_of_lt (Nat.sub_le _ _) hn
  obtain ⟨r₁, hv₁, h₁⟩ := h.readBiguint (hmissing s _ hb)
  obtain ⟨r₂, hv₂, h₂⟩ := h₁.readBiguint (hmissing _ _ he)
  obtain ⟨r₃, hv₃, -⟩ := h₂.readBiguint (hmissing _ _ hm)
  rw [Stream.skip_skip] at hv₃
  simp only [modexpOf, hv₁, hv₂, hv₃, bind, Except.bind]
  have hmod : modulus < 256 ^ modLen := by
    simpa using fromBytesBe_lt ((s.skip (baseLen + exponentLen)).bytes modLen)
  by_cases hsmall : modulus = 0 ∨ modulus = 1
  · -- a modulus of zero or one answers zeros
    refine ⟨List.replicate modLen 0, ?_, by simp, ?_⟩
    · rw [if_pos hsmall]
      rfl
    · rw [fromBytesBe_replicate_zero, if_pos (by omega)]
  · have hpos : 0 < modLen := by
      by_contra h0
      rw [show modLen = 0 by omega, pow_zero] at hmod
      omega
    have hlt : base ^ exponent % modulus < 256 ^ modLen :=
      lt_trans (Nat.mod_lt _ (by omega)) hmod
    obtain ⟨hlen, hval⟩ := padded_toBytesBe hpos hlt
    refine ⟨_, ?_, hlen, by rw [hval, if_neg (by omega)]⟩
    rw [if_neg hsmall]
    split_ifs <;> rfl

end Operands

/-! ## MODEXP -/

/-- MODEXP follows EIP-198 while no operand reaches `2 ^ 29` bytes: a length
that does not fit a `u32` is an invalid input, and otherwise the answer is
`mod_len` bytes spelling `B ^ E % M` (zeros for `M ≤ 1`), where `B`, `E` and
`M` are read from the input followed by zeros. -/
theorem modexp_follows_eip198 (input : List UInt8) :
    ((2 ^ 32 ≤ (modexpLengths input).1 ∨ 2 ^ 32 ≤ (modexpLengths input).2.1 ∨
        2 ^ 32 ≤ (modexpLengths input).2.2) → modexp input = .ok (.error .invalidInput)) ∧
      ∀ bl el ml, modexpLengths input = (bl, el, ml) → bl < 2 ^ 29 → el < 2 ^ 29 → ml < 2 ^ 29 →
        ∃ out, modexp input = .ok (.ok out) ∧ out.length = ml ∧
          fromBytesBe out =
            if fromBytesBe (((⟨input, 96⟩ : Stream).skip (bl + el)).bytes ml) ≤ 1 then 0
            else fromBytesBe ((⟨input, 96⟩ : Stream).bytes bl) ^
                fromBytesBe (((⟨input, 96⟩ : Stream).skip bl).bytes el) %
              fromBytesBe (((⟨input, 96⟩ : Stream).skip (bl + el)).bytes ml) := by
  refine ⟨modexp_of_length_overflow input, fun bl el ml hl hb he hm => ?_⟩
  have hfit : ∀ x : Nat, x < 2 ^ 29 → x < 2 ^ 32 := fun x hx => by omega
  obtain ⟨r, hr, hrun⟩ := modexp_of_lengths input (by rw [hl]; exact hfit _ hb)
    (by rw [hl]; exact hfit _ he) (by rw [hl]; exact hfit _ hm)
  rw [hrun, hl]
  dsimp only
  by_cases hzero : bl = 0 ∧ ml = 0
  · -- no base and no modulus: the empty answer, as the modulus reads as zero
    rw [if_pos hzero]
    refine ⟨[], rfl, hzero.2.symm, ?_⟩
    simp [hzero.2, Stream.bytes, PaddedList.window, fromBytesBe]
  · rw [if_neg hzero]
    exact modexpOf_spec hr hb he hm

/-- Lengths one, one and one with operands 3, 5 and 7: the answer is the byte
`3 ^ 5 % 7 = 5`. -/
theorem modexp_follows_eip198_three_five_seven :
    ∃ out, modexp (U256.toBigEndian (BitVec.ofNat 256 1) ++ U256.toBigEndian (BitVec.ofNat 256 1) ++
      U256.toBigEndian (BitVec.ofNat 256 1) ++ [3, 5, 7]) = .ok (.ok out) ∧ out.length = 1 ∧
      fromBytesBe out = 5 := by
  have hl : modexpLengths (U256.toBigEndian (BitVec.ofNat 256 1) ++ U256.toBigEndian (BitVec.ofNat 256 1) ++
      U256.toBigEndian (BitVec.ofNat 256 1) ++ [3, 5, 7]) = (1, 1, 1) := by decide
  obtain ⟨out, hrun, hlen, hval⟩ := (modexp_follows_eip198 _).2 1 1 1 hl (by decide) (by decide)
    (by decide)
  refine ⟨out, hrun, hlen, ?_⟩
  rw [hval]
  decide

/-- Words of the input head, as a caller lays out the three lengths. -/
theorem modexpLengths_words (bl el ml : Nat) (rest : List UInt8) (hb : bl < 2 ^ 32)
    (he : el < 2 ^ 32) (hm : ml < 2 ^ 32) :
    modexpLengths (U256.toBigEndian (BitVec.ofNat 256 bl) ++ U256.toBigEndian (BitVec.ofNat 256 el) ++
      U256.toBigEndian (BitVec.ofNat 256 ml) ++ rest) = (bl, el, ml) := by
  -- each length is a whole word of the head, read back
  have hword : ∀ x : Nat, x < 2 ^ 32 → fromBytesBe (U256.toBigEndian (BitVec.ofNat 256 x)) = x :=
    fun x hx => by rw [fromBytesBe_toBigEndian, BitVec.toNat_ofNat, Nat.mod_eq_of_lt (by omega)]
  generalize hA : U256.toBigEndian (BitVec.ofNat 256 bl) = A
  generalize hB : U256.toBigEndian (BitVec.ofNat 256 el) = B
  generalize hC : U256.toBigEndian (BitVec.ofNat 256 ml) = C
  have hlA : A.length = 32 := hA ▸ U256.length_toBigEndian _
  have hlB : B.length = 32 := hB ▸ U256.length_toBigEndian _
  have hlC : C.length = 32 := hC ▸ U256.length_toBigEndian _
  have hlen : (A ++ (B ++ (C ++ rest))).length = 96 + rest.length := by
    simp only [List.length_append, hlA, hlB, hlC]
    omega
  -- the three words sit at offsets 0, 32 and 64
  have h₀ : (⟨A ++ (B ++ (C ++ rest)), 0⟩ : Stream).bytes 32 = A := by
    rw [Stream.bytes_of_le _ (by simp only [hlen]; omega), List.drop_zero, List.take_left' hlA]
  have h₁ : (⟨A ++ (B ++ (C ++ rest)), 32⟩ : Stream).bytes 32 = B := by
    rw [Stream.bytes_of_le _ (by simp only [hlen]; omega), List.drop_left' hlA, List.take_left' hlB]
  have h₂ : (⟨A ++ (B ++ (C ++ rest)), 64⟩ : Stream).bytes 32 = C := by
    rw [Stream.bytes_of_le _ (by simp only [hlen]; omega), show (64 : Nat) = 32 + 32 from rfl,
      ← List.drop_drop, List.drop_left' hlA, List.drop_left' hlB, List.take_left' hlC]
  simp only [modexpLengths, List.append_assoc, h₀, h₁, h₂]
  subst hA hB hC
  rw [hword bl hb, hword el he, hword ml hm]

/-- With a base length of `2 ^ 29` bytes or more past the end of the input,
MODEXP panics instead of answering. -/
theorem modexp_panics_on_long_base (bl el ml : Nat) (rest : List UInt8) (hb : bl < 2 ^ 32)
    (he : el < 2 ^ 32) (hm : ml < 2 ^ 32) (hlong : 2 ^ 29 + rest.length ≤ bl) :
    modexp (U256.toBigEndian (BitVec.ofNat 256 bl) ++ U256.toBigEndian (BitVec.ofNat 256 el) ++
      U256.toBigEndian (BitVec.ofNat 256 ml) ++ rest) =
      .error (.panicked "attempt to multiply with overflow") := by
  have hlengths := modexpLengths_words bl el ml rest hb he hm
  obtain ⟨r, hr, hrun⟩ := modexp_of_lengths _ (by rw [hlengths]; exact hb)
    (by rw [hlengths]; exact he) (by rw [hlengths]; exact hm)
  rw [hrun, hlengths]
  dsimp only
  rw [if_neg (by omega)]
  refine modexpOf_of_base_panics hr ?_
  -- the base starts where the input ends after the lengths
  have hlen : (U256.toBigEndian (BitVec.ofNat 256 bl) ++ U256.toBigEndian (BitVec.ofNat 256 el) ++
      U256.toBigEndian (BitVec.ofNat 256 ml) ++ rest).length = 96 + rest.length := by
    simp
    omega
  simp only [Stream.missing, hlen]
  rw [Nat.mod_eq_of_lt (by omega)]
  omega

/-- A base length of `2 ^ 29` after the three words: the whole base is missing. -/
theorem modexp_panics_on_long_base_empty :
    modexp (U256.toBigEndian (BitVec.ofNat 256 (2 ^ 29)) ++ U256.toBigEndian (BitVec.ofNat 256 0) ++
      U256.toBigEndian (BitVec.ofNat 256 0) ++ []) =
      .error (.panicked "attempt to multiply with overflow") :=
  modexp_panics_on_long_base (2 ^ 29) 0 0 [] (by norm_num) (by norm_num) (by norm_num) (by norm_num)

end BuiltinActors.Evm
