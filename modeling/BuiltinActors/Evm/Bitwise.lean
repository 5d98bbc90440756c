import BuiltinActors.Evm.Arithmetic

/-! # Bitwise instructions

`BYTE` picks a byte counting from the most significant end; the shifts give
zero (or all ones, for a negative `SAR`) once the count reaches the width.
`SAR` of a negative value negates it, shifts `value - 1` and negates back one
more, which rounds the quotient down rather than towards zero. -/

namespace BuiltinActors.Evm

open U256

def byte (i x : U256) : U256 :=
  if 32 ≤ i.toNat then 0 else (x.byte (31 - i.toNat % 2 ^ 64)).setWidth 256

def shl (shift value : U256) : U256 :=
  if value = 0 ∨ 256 ≤ shift.toNat then 0 else value <<< shift.toNat

def shr (shift value : U256) : U256 :=
  if value = 0 ∨ 256 ≤ shift.toNat then 0 else value >>> shift.toNat

def sar (shift value : U256) : U256 :=
  let negative := value.i256IsNegative
  let value := if negative then value.i256Neg else value
  if value = 0 ∨ 256 ≤ shift.toNat then
    -- a negative value pushes `U256::MAX`, that is `-1`, and any other `0`
    if negative then BitVec.allOnes 256 else 0
  else
    -- `shift.low_u32()`
    let shift := shift.toNat % 2 ^ 32
    if negative then
      let shifted := ((value - 1) >>> shift) + 1
      i256Neg shifted
    else value >>> shift

theorem toNat_byte_instr (i x : U256) :
    (byte i x).toNat = if i.toNat < 32 then x.toNat / 2 ^ (8 * (31 - i.toNat)) % 2 ^ 8 else 0 := by
  unfold byte
  by_cases hi : i.toNat < 32
  · have hbyte : (x.byte (31 - i.toNat % 2 ^ 64)).toNat < 2 ^ 256 :=
      lt_trans (x.byte _).isLt (by norm_num)
    rw [if_neg (not_le.mpr hi), if_pos hi, BitVec.toNat_setWidth, Nat.mod_eq_of_lt hbyte,
      U256.toNat_byte, Nat.mod_eq_of_lt (by omega : i.toNat < 2 ^ 64)]
  · rw [if_pos (not_lt.mp hi), if_neg hi]
    rfl

theorem toNat_shl (s v : U256) :
    (shl s v).toNat = if s.toNat < 256 then v.toNat * 2 ^ s.toNat % 2 ^ 256 else 0 := by
  unfold shl
  by_cases hs : s.toNat < 256
  · rw [if_pos hs]
    by_cases hv : v = 0
    · simp [hv]
    · rw [if_neg (not_or.mpr ⟨hv, not_le.mpr hs⟩), BitVec.toNat_shiftLeft, Nat.shiftLeft_eq]
  · rw [if_pos (.inr (not_lt.mp hs)), if_neg hs]
    rfl

theorem toNat_shr (s v : U256) :
    (shr s v).toNat = if s.toNat < 256 then v.toNat / 2 ^ s.toNat else 0 := by
  unfold shr
  by_cases hs : s.toNat < 256
  · rw [if_pos hs]
    by_cases hv : v = 0
    · simp [hv]
    · rw [if_neg (not_or.mpr ⟨hv, not_le.mpr hs⟩), BitVec.toNat_ushiftRight,
        Nat.shiftRight_eq_div_pow]
  · rw [if_pos (.inr (not_lt.mp hs)), if_neg hs]
    rfl

/-! ## Arithmetic shift -/

/-- Flooring a negative quotient: `-m / d` is one below `-((m - 1) / d)`. -/
theorem neg_natCast_ediv {m d : Nat} (hm : 0 < m) (hd : 0 < d) :
    (-(m : Int)) / d = -(((m - 1) / d : Nat) : Int) - 1 := by
  have hneg : -(m : Int) = Int.negSucc (m - 1) := by
    rw [Int.negSucc_eq]
    omega
  rw [hneg, Int.negSucc_ediv _ (by exact_mod_cast hd)]
  change -((((m - 1 : Nat) : Int) / (d : Int)) + 1) = _
  rw [← Int.natCast_ediv]
  ring

/-- The signed reading of a word, by its unsigned value. -/
theorem toInt_eq_of_lt {x : U256} (h : x.toNat < 2 ^ 255) : x.toInt = x.toNat :=
  BitVec.toInt_eq_toNat_of_msb (by rw [BitVec.msb_eq_decide]; simpa using h)

theorem toInt_eq_of_ge {x : U256} (h : 2 ^ 255 ≤ x.toNat) : x.toInt = x.toNat - 2 ^ 256 := by
  rw [BitVec.toInt_eq_msb_cond, if_pos (by rw [BitVec.msb_eq_decide]; simpa using h)]
  rfl

/-- `SAR` divides the signed value by `2 ^ shift`, rounding down: a negative
value shifted by the width or more gives `-1`, a non-negative one `0`. -/
theorem toInt_sar (s x : U256) : (sar s x).toInt = x.toInt / 2 ^ s.toNat := by
  have hx := x.isLt
  unfold sar
  simp only [i256IsNegative_eq_msb, i256Neg_eq_neg]
  cases hneg : x.msb
  · -- a non-negative value is shifted as it is
    have hlt : x.toNat < 2 ^ 255 := by
      rw [BitVec.msb_eq_decide] at hneg
      simpa using hneg
    rw [toInt_eq_of_lt hlt]
    simp only [Bool.false_eq_true, if_false]
    by_cases hzero : x = 0 ∨ 256 ≤ s.toNat
    · rw [if_pos hzero]
      rcases hzero with h0 | hs
      · simp [h0]
      · -- the value is below `2 ^ 255`, so shifting by the width or more leaves nothing
        have hbig : (x.toNat : Int) < 2 ^ s.toNat := by
          have : x.toNat < 2 ^ s.toNat :=
            lt_of_lt_of_le hlt (Nat.pow_le_pow_right (by norm_num) (by omega))
          exact_mod_cast this
        rw [Int.ediv_eq_zero_of_lt (by positivity) hbig]
        rfl
    · rw [if_neg hzero]
      have hs : s.toNat < 256 := by omega
      have hshift : (x >>> (s.toNat % 2 ^ 32)).toNat = x.toNat / 2 ^ s.toNat := by
        rw [Nat.mod_eq_of_lt (by omega), BitVec.toNat_ushiftRight, Nat.shiftRight_eq_div_pow]
      rw [toInt_eq_of_lt (by rw [hshift]; exact lt_of_le_of_lt (Nat.div_le_self _ _) hlt), hshift]
      push_cast
      rfl
  · -- a negative value `-m` is shifted as `m`, rounding the other way
    have hge : 2 ^ 255 ≤ x.toNat := by
      rw [BitVec.msb_eq_decide] at hneg
      simpa using hneg
    have hx0 : x ≠ 0 := fun h => by rw [h] at hge; simp at hge
    obtain ⟨m, hm⟩ : ∃ m, m = 2 ^ 256 - x.toNat := ⟨_, rfl⟩
    have hmag : (-x).toNat = m := by
      rw [BitVec.toNat_neg, Nat.mod_eq_of_lt (by omega), hm]
    have hm0 : 0 < m := by omega
    have hmx : x.toInt = -(m : Int) := by
      rw [toInt_eq_of_ge hge]
      omega
    have hpow : (2 : Int) ^ s.toNat = ((2 ^ s.toNat : Nat) : Int) := by push_cast; rfl
    rw [hmx, hpow, neg_natCast_ediv hm0 (Nat.two_pow_pos _)]
    have hnz : (-x) ≠ 0 := fun h => by rw [h] at hmag; simp at hmag; omega
    simp only [if_true]
    by_cases hs : 256 ≤ s.toNat
    · rw [if_pos (.inr hs)]
      -- the magnitude is at most `2 ^ 255`, so the quotient rounds down to `-1`
      have hq : (m - 1) / 2 ^ s.toNat = 0 :=
        Nat.div_eq_of_lt (lt_of_lt_of_le (by omega) (Nat.pow_le_pow_right (by norm_num) hs))
      rw [hq]
      rfl
    · rw [if_neg (not_or.mpr ⟨hnz, hs⟩), Nat.mod_eq_of_lt (by omega)]
      obtain ⟨q, hq⟩ : ∃ q, q = (m - 1) / 2 ^ s.toNat := ⟨_, rfl⟩
      have hqle : q ≤ m - 1 := hq ▸ Nat.div_le_self _ _
      have hsub : (-x - 1).toNat = m - 1 := by
        rw [BitVec.toNat_sub, hmag]
        show (2 ^ 256 - 1 + m) % 2 ^ 256 = m - 1
        omega
      have hshifted : ((-x - 1) >>> s.toNat + 1).toNat = q + 1 := by
        rw [BitVec.toNat_add, BitVec.toNat_ushiftRight, hsub, Nat.shiftRight_eq_div_pow, ← hq]
        show (q + 1) % 2 ^ 256 = q + 1
        omega
      have hneg' : (-((-x - 1) >>> s.toNat + 1)).toNat = 2 ^ 256 - (q + 1) := by
        rw [BitVec.toNat_neg, hshifted, Nat.mod_eq_of_lt (by omega)]
      rw [toInt_eq_of_ge (by rw [hneg']; omega), hneg', ← hq]
      omega

/-! ## The instructions against their definitions -/

/-- **The arithmetic and bitwise instructions compute what the EVM defines.**
Words are read as integers modulo `2 ^ 256`, or as two's-complement integers
in `[-2 ^ 255, 2 ^ 255)` for the signed instructions; `Int.tdiv` and
`Int.tmod` truncate towards zero, and `/` on `Int` by a power of two rounds
down. This holds for all words, given that the crate's primitives are
arithmetic modulo `2 ^ 256` and `2 ^ 512`. -/
theorem evm_arithmetic_matches_definitions (a b c : U256) :
    (add a b).toNat = (a.toNat + b.toNat) % 2 ^ 256 ∧
    (mul a b).toNat = a.toNat * b.toNat % 2 ^ 256 ∧
    ((sub a b).toNat : Int) = ((a.toNat : Int) - b.toNat) % 2 ^ 256 ∧
    (div a b).toNat = (if b = 0 then 0 else a.toNat / b.toNat) ∧
    (modulo a b).toNat = (if b = 0 then 0 else a.toNat % b.toNat) ∧
    (sdiv a b).toInt = (if b.toInt = 0 then 0
      else if a.toInt = -2 ^ 255 ∧ b.toInt = -1 then -2 ^ 255 else a.toInt.tdiv b.toInt) ∧
    (smod a b).toInt = (if b.toInt = 0 then 0 else a.toInt.tmod b.toInt) ∧
    (addmod a b c).toNat = (if c = 0 then 0 else (a.toNat + b.toNat) % c.toNat) ∧
    (mulmod a b c).toNat = (if c = 0 then 0 else a.toNat * b.toNat % c.toNat) ∧
    (exp a b).toNat = a.toNat ^ b.toNat % 2 ^ 256 ∧
    signextend a b = (if a.toNat < 32 then (b.setWidth (8 * a.toNat + 8)).signExtend 256 else b) ∧
    (signextend a b).toInt =
      (if a.toNat < 32 then (b.toNat : Int).bmod (2 ^ (8 * a.toNat + 8)) else b.toInt) ∧
    (byte a b).toNat = (if a.toNat < 32 then b.toNat / 2 ^ (8 * (31 - a.toNat)) % 2 ^ 8 else 0) ∧
    (shl a b).toNat = (if a.toNat < 256 then b.toNat * 2 ^ a.toNat % 2 ^ 256 else 0) ∧
    (shr a b).toNat = (if a.toNat < 256 then b.toNat / 2 ^ a.toNat else 0) ∧
    (sar a b).toInt = b.toInt / 2 ^ a.toNat ∧
    a.i256Cmp b = compare a.toInt b.toInt :=
  ⟨toNat_add a b, toNat_mul a b, toNat_sub a b, toNat_div a b, toNat_modulo a b, toInt_sdiv a b,
    toInt_smod a b, toNat_addmod a b c, toNat_mulmod a b c, toNat_exp a b, signextend_eq a b,
    toInt_signextend a b, toNat_byte_instr a b, toNat_shl a b, toNat_shr a b, toInt_sar a b,
    i256Cmp_eq_compare a b⟩

end BuiltinActors.Evm
