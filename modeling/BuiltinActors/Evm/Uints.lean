import Mathlib

/-! # 256-bit words

`U256` and `U512` are the `uint` crate's unsigned integers of four and eight
64-bit limbs. The model takes them as `BitVec 256` and `BitVec 512`, so their
arithmetic wraps modulo `2 ^ 256` and `2 ^ 512`, which is what the crate's
primitives provide. A `U256`'s limbs are read with `word`, least significant
first, as the field `.0` holds them.

The signed helpers of `uints.rs` read a word as a two's-complement integer by
the sign bit of its top limb. Each is shown to be the library operation of the
same meaning: `i256_neg` is negation, `i256_div` is `BitVec.sdiv`, `i256_mod`
is `BitVec.srem` away from a zero divisor, and `i256_cmp` compares the signed
readings. -/

namespace BuiltinActors.Evm

abbrev U256 := BitVec 256
abbrev U512 := BitVec 512

namespace U256

/-- Limb `i` of the word, least significant first: `self.0[i]`. -/
def word (x : U256) (i : Nat) : BitVec 64 := x.extractLsb' (64 * i) 64

/-- The limbs, `self.0`. -/
def words (x : U256) : List (BitVec 64) := [x.word 0, x.word 1, x.word 2, x.word 3]

/-- Byte `index` of the word, counted from the least significant: the crate
shifts limb `index / 8` right by `index % 8` bytes and keeps the low byte. -/
def byte (x : U256) (index : Nat) : BitVec 8 := (x.word (index / 8) >>> (index % 8 * 8)).setWidth 8

/-- The word the bytes spell, most significant first (`from_big_endian`). -/
def fromBigEndian (bytes : List UInt8) : U256 :=
  BitVec.ofNat 256 (bytes.foldl (fun acc b => acc * 256 + b.toNat) 0)

/-- The word's 32 bytes, most significant first (`write_as_big_endian`). -/
def toBigEndian (x : U256) : List UInt8 := ((List.range 32).map fun i => ⟨x.byte i⟩).reverse

/-- The number of zero bits above the highest set bit. -/
def leadingZeros (x : U256) : Nat := 256 - x.toNat.size

def i256IsNegative (x : U256) : Bool := decide ((x.word 3).toInt < 0)

/-- Two's-complement negation. -/
def i256Neg (x : U256) : U256 := if x = 0 then 0 else ~~~x + 1

/-- Signed comparison: by sign first (a negative word is smaller), then as
unsigned words. -/
def i256Cmp (a b : U256) : Ordering :=
  match compare (i256IsNegative b) (i256IsNegative a) with
  | .eq => compare a.toNat b.toNat
  | signCmp => signCmp

def i256Div (a b : U256) : U256 :=
  -- the EVM defines X/0 to be 0
  if a = 0 ∨ b = 0 then 0
  else
    -- record and strip the signs, and put them back at the end
    let firstNeg := i256IsNegative a
    let secondNeg := i256IsNegative b
    let first := if firstNeg then i256Neg a else a
    let second := if secondNeg then i256Neg b else b
    let d := first / second
    if d = 0 ∨ firstNeg = secondNeg then d else i256Neg d

def i256Mod (a b : U256) : U256 :=
  -- X % 0 and 0 % X are 0
  if a = 0 ∨ b = 0 then 0
  else
    let negative := i256IsNegative a
    let first := if negative then i256Neg a else a
    let second := if i256IsNegative b then i256Neg b else b
    let r := first % second
    if negative ∧ r ≠ 0 then i256Neg r else r

/-! ## Limbs -/

theorem toNat_word (x : U256) (i : Nat) : (x.word i).toNat = x.toNat / 2 ^ (64 * i) % 2 ^ 64 := by
  rw [word, BitVec.extractLsb'_toNat, Nat.shiftRight_eq_div_pow]

/-- The limbs spell the word in base `2 ^ 64`. -/
theorem ofDigits_words (x : U256) :
    Nat.ofDigits (2 ^ 64) ((x.words).map BitVec.toNat) = x.toNat := by
  have hx := x.isLt
  simp only [words, List.map_cons, List.map_nil, Nat.ofDigits_cons, Nat.ofDigits_nil, toNat_word]
  omega

/-- Reading a byte within a 64-bit limb: the limb's cut at 64 bits does not
reach the byte. -/
theorem mod_two_pow_64_div_byte (n : Nat) {r : Nat} (hr : r < 8) :
    n % 2 ^ 64 / 2 ^ (8 * r) % 2 ^ 8 = n / 2 ^ (8 * r) % 2 ^ 8 := by
  have hsplit : (2 : Nat) ^ 64 = 2 ^ (8 * r) * 2 ^ (64 - 8 * r) := by
    rw [← pow_add]
    congr 1
    omega
  rw [hsplit, Nat.mod_mul_right_div_self, Nat.mod_mod_of_dvd _ (pow_dvd_pow 2 (by omega))]

theorem toNat_byte (x : U256) (index : Nat) :
    (x.byte index).toNat = x.toNat / 2 ^ (8 * index) % 2 ^ 8 := by
  rw [byte, BitVec.toNat_setWidth, BitVec.toNat_ushiftRight, Nat.shiftRight_eq_div_pow,
    toNat_word, Nat.mul_comm (index % 8) 8, mod_two_pow_64_div_byte _ (Nat.mod_lt _ (by omega)),
    Nat.div_div_eq_div_mul, ← pow_add]
  -- the limb's offset and the byte's offset within it add up to the byte's offset
  congr 3
  omega

/-- Reading digits most significant first: each step shifts the number read so far. -/
theorem foldl_shift_add (B : Nat) (l : List Nat) (a : Nat) :
    l.foldl (fun acc b => acc * B + b) a = a * B ^ l.length + Nat.ofDigits B l.reverse := by
  induction l generalizing a with
  | nil => simp
  | cons x l ih =>
    rw [List.foldl_cons, ih, List.reverse_cons, Nat.ofDigits_append, List.length_reverse,
      List.length_cons, Nat.ofDigits_singleton, pow_succ]
    ring

/-- The low `k` digits of `n` in base `b` spell `n` modulo `b ^ k`. -/
theorem ofDigits_range_map_div_mod (b n k : Nat) :
    Nat.ofDigits b ((List.range k).map fun i => n / b ^ i % b) = n % b ^ k := by
  induction k with
  | zero => simp [Nat.mod_one]
  | succ k ih =>
    rw [List.range_succ, List.map_append, Nat.ofDigits_append, ih, List.length_map,
      List.length_range, List.map_singleton, Nat.ofDigits_singleton, Nat.mod_pow_succ]

/-- Writing a word as bytes and reading them back gives the word. -/
theorem fromBigEndian_toBigEndian (x : U256) : fromBigEndian (toBigEndian x) = x := by
  have hbytes : ((toBigEndian x).map UInt8.toNat).reverse =
      (List.range 32).map fun i => x.toNat / 256 ^ i % 256 := by
    rw [toBigEndian, List.map_reverse, List.reverse_reverse, List.map_map]
    apply List.map_congr_left
    intro i _
    show (x.byte i).toNat = _
    rw [toNat_byte, pow_mul]
    rfl
  have hfold := foldl_shift_add 256 ((toBigEndian x).map UInt8.toNat) 0
  rw [List.foldl_map, hbytes, ofDigits_range_map_div_mod] at hfold
  apply BitVec.eq_of_toNat_eq
  rw [fromBigEndian, BitVec.toNat_ofNat, hfold, zero_mul, zero_add, Nat.mod_mod_of_dvd _ (by norm_num),
    Nat.mod_eq_of_lt x.isLt]

@[simp] theorem length_toBigEndian (x : U256) : (toBigEndian x).length = 32 := by
  simp [toBigEndian]

theorem sub_leadingZeros (x : U256) : 256 - x.leadingZeros = x.toNat.size := by
  have : x.toNat.size ≤ 256 := Nat.size_le.mpr x.isLt
  rw [leadingZeros]
  omega

/-! ## The signed reading -/

theorem i256IsNegative_eq_msb (x : U256) : x.i256IsNegative = x.msb := by
  rw [i256IsNegative, ← BitVec.msb_eq_toInt, word, BitVec.msb_extractLsb']
  rfl

theorem i256Neg_eq_neg (x : U256) : x.i256Neg = -x := by
  rw [i256Neg]
  split
  · next h => simp [h]
  · rw [BitVec.neg_eq_not_add]
    rfl

theorem i256Div_eq_sdiv (a b : U256) : a.i256Div b = a.sdiv b := by
  simp only [i256Div, i256IsNegative_eq_msb, i256Neg_eq_neg]
  by_cases ha : a = 0
  · simp [ha, BitVec.zero_sdiv]
  by_cases hb : b = 0
  · simp [hb, BitVec.sdiv_zero]
  rw [if_neg (not_or.mpr ⟨ha, hb⟩), BitVec.sdiv_eq]
  -- one case per pair of signs; a zero quotient has no sign to put back
  cases a.msb <;> cases b.msb <;> simp [BitVec.udiv_eq] <;> intro h <;> simp [h]

theorem i256Mod_eq_srem (a b : U256) : a.i256Mod b = if b = 0 then 0 else a.srem b := by
  simp only [i256Mod, i256IsNegative_eq_msb, i256Neg_eq_neg]
  by_cases hb : b = 0
  · simp [hb]
  by_cases ha : a = 0
  · simp [ha, BitVec.zero_srem]
  rw [if_neg (not_or.mpr ⟨ha, hb⟩), if_neg hb, BitVec.srem_eq]
  cases a.msb <;> cases b.msb <;> simp <;> intro h <;> simp [h]

/-- Two comparisons agree when their orders and equalities do. -/
theorem compare_eq_compare {α β : Type} [LinearOrder α] [LinearOrder β] {a b : α} {c d : β}
    (hlt : a < b ↔ c < d) (hgt : b < a ↔ d < c) : compare a b = compare c d := by
  rcases lt_trichotomy a b with h | h | h
  · rw [compare_lt_iff_lt.mpr h, compare_lt_iff_lt.mpr (hlt.mp h)]
  · have hcd : c = d := le_antisymm (not_lt.mp fun h' => (lt_irrefl b) (h ▸ hgt.mpr h'))
      (not_lt.mp fun h' => (lt_irrefl a) (h ▸ hlt.mpr h') |>.elim)
    rw [compare_eq_iff_eq.mpr h, compare_eq_iff_eq.mpr hcd]
  · rw [compare_gt_iff_gt.mpr h, compare_gt_iff_gt.mpr (hgt.mp h)]

theorem i256Cmp_eq_compare (a b : U256) : a.i256Cmp b = compare a.toInt b.toInt := by
  rw [i256Cmp, i256IsNegative_eq_msb, i256IsNegative_eq_msb]
  have ha := BitVec.toInt_eq_msb_cond a
  have hb := BitVec.toInt_eq_msb_cond b
  have hma := BitVec.msb_eq_decide a
  have hmb := BitVec.msb_eq_decide b
  -- within one sign the unsigned order is the signed one; across signs the negative is smaller
  cases hna : a.msb <;> cases hnb : b.msb <;>
    simp only [hna, hnb, Bool.false_eq_true, if_false, if_true] at ha hb <;>
    simp [hna, hnb] at hma hmb
  · exact compare_eq_compare (by omega) (by omega)
  · show Ordering.gt = _
    exact (compare_gt_iff_gt.mpr (by omega)).symm
  · show Ordering.lt = _
    exact (compare_lt_iff_lt.mpr (by omega)).symm
  · exact compare_eq_compare (by omega) (by omega)

end U256

end BuiltinActors.Evm
