import BuiltinActors.Lib.BinaryPow
import BuiltinActors.Evm.Uints

/-! # Arithmetic instructions

The arithmetic instructions of the EVM interpreter, on the stack's words. The
unsigned ones are the crate's wrapping operations, with a zero divisor giving
zero. `ADDMOD` and `MULMOD` widen to 512 bits, where neither the sum nor the
product of two words can wrap. `SIGNEXTEND` builds a mask of the bits below
the sign bit and either sets or clears everything above it. `EXP` reads the
exponent limb by limb, least significant first, for as many bits as the
exponent has (`BinaryPow`).

Each instruction is stated against the reading of words as integers modulo
`2 ^ 256`, or as two's-complement integers for the signed ones. -/

namespace BuiltinActors.Evm

open U256

/-- `a.overflowing_add(b).0`. -/
def add (a b : U256) : U256 := a + b

/-- `a.overflowing_mul(b).0`. -/
def mul (a b : U256) : U256 := a * b

/-- `a.overflowing_sub(b).0`. -/
def sub (a b : U256) : U256 := a - b

def div (a b : U256) : U256 := if b ≠ 0 then a / b else b

def sdiv (a b : U256) : U256 := a.i256Div b

def modulo (a b : U256) : U256 := if b ≠ 0 then a % b else b

def smod (a b : U256) : U256 := a.i256Mod b

/-- `U512::from`: the word, zero-extended. -/
def toU512 (a : U256) : U512 := a.setWidth 512

/-- `U512::low_u256`: the low four limbs. -/
def lowU256 (x : U512) : U256 := x.setWidth 256

def addmod (a b c : U256) : U256 :=
  if c ≠ 0 then lowU256 ((toU512 a + toU512 b) % toU512 c) else c

def mulmod (a b c : U256) : U256 :=
  if c ≠ 0 then lowU256 ((toU512 a * toU512 b) % toU512 c) else c

def signextend (a b : U256) : U256 :=
  if a.toNat < 32 then
    -- `8 * a.low_u32() + 7`
    let bitIndex := 8 * (a.toNat % 2 ^ 32) + 7
    -- `U256::MAX >> (U256::BITS - bit_index)`: the bits below the sign bit
    let mask := BitVec.allOnes 256 >>> (256 - bitIndex)
    if b.getLsbD bitIndex then b ||| ~~~mask else b &&& mask
  else b

/-- The inner loop of `exp`, over `n` bits of one limb. -/
def expBits (n : Nat) (v base : U256) (word : BitVec 64) : U256 × U256 × BitVec 64 :=
  (List.range n).foldl (fun (v, base, word) _ =>
    (if word &&& 1 ≠ 0 then v * base else v, base * base, word >>> 1)) (v, base, word)

def exp (base power : U256) : U256 :=
  -- the number of significant bits of the exponent
  let remainingBits := 256 - power.leadingZeros
  let (v, _, _) := power.words.foldl (fun (v, base, remainingBits) word =>
      let (v, base, _) := expBits (min 64 remainingBits) v base word
      (v, base, remainingBits - 64)) (1, base, remainingBits)
  v

/-! ## Unsigned arithmetic -/

theorem toNat_add (a b : U256) : (add a b).toNat = (a.toNat + b.toNat) % 2 ^ 256 :=
  BitVec.toNat_add a b

theorem toNat_mul (a b : U256) : (mul a b).toNat = a.toNat * b.toNat % 2 ^ 256 :=
  BitVec.toNat_mul a b

theorem toNat_sub (a b : U256) : ((sub a b).toNat : Int) = ((a.toNat : Int) - b.toNat) % 2 ^ 256 := by
  have ha := a.isLt
  have hb := b.isLt
  rw [sub, BitVec.toNat_sub]
  omega

theorem toNat_div (a b : U256) : (div a b).toNat = if b = 0 then 0 else a.toNat / b.toNat := by
  unfold div
  by_cases hb : b = 0
  · simp [hb]
  · rw [if_pos hb, if_neg hb]
    exact BitVec.toNat_udiv

theorem toNat_modulo (a b : U256) :
    (modulo a b).toNat = if b = 0 then 0 else a.toNat % b.toNat := by
  unfold modulo
  by_cases hb : b = 0
  · simp [hb]
  · rw [if_pos hb, if_neg hb]
    exact BitVec.toNat_umod

theorem two_pow_256_lt : (2 : Nat) ^ 256 < 2 ^ 512 := Nat.pow_lt_pow_right (by norm_num) (by norm_num)

/-- What the widened operations compute: an operation on the words' values
that stays below `2 ^ 512`, reduced modulo a non-zero word. -/
theorem toNat_lowU256_umod {x : U512} {c : U256} (hc : c ≠ 0) :
    (lowU256 (x % toU512 c)).toNat = x.toNat % c.toNat := by
  have hc' : 0 < c.toNat := Nat.pos_of_ne_zero fun h => hc (BitVec.eq_of_toNat_eq h)
  have hlt : x.toNat % c.toNat < 2 ^ 256 := lt_trans (Nat.mod_lt _ hc') c.isLt
  rw [lowU256, BitVec.toNat_setWidth, BitVec.toNat_umod, toU512, BitVec.toNat_setWidth,
    Nat.mod_eq_of_lt (lt_trans c.isLt two_pow_256_lt), Nat.mod_eq_of_lt hlt]

theorem toNat_toU512 (a : U256) : (toU512 a).toNat = a.toNat := by
  rw [toU512, BitVec.toNat_setWidth, Nat.mod_eq_of_lt (lt_trans a.isLt two_pow_256_lt)]

theorem toNat_addmod (a b c : U256) :
    (addmod a b c).toNat = if c = 0 then 0 else (a.toNat + b.toNat) % c.toNat := by
  unfold addmod
  by_cases hc : c = 0
  · simp [hc]
  · have hsum : a.toNat + b.toNat < 2 ^ 512 :=
      calc a.toNat + b.toNat < 2 ^ 256 + 2 ^ 256 := Nat.add_lt_add a.isLt b.isLt
        _ ≤ 2 ^ 512 := by rw [← two_mul, ← pow_succ']; exact Nat.pow_le_pow_right (by norm_num) (by norm_num)
    rw [if_pos hc, if_neg hc, toNat_lowU256_umod hc, BitVec.toNat_add, toNat_toU512, toNat_toU512,
      Nat.mod_eq_of_lt hsum]

theorem toNat_mulmod (a b c : U256) :
    (mulmod a b c).toNat = if c = 0 then 0 else a.toNat * b.toNat % c.toNat := by
  unfold mulmod
  by_cases hc : c = 0
  · simp [hc]
  · have hprod : a.toNat * b.toNat < 2 ^ 512 := by
      have := Nat.mul_lt_mul'' a.isLt b.isLt
      rwa [← pow_add] at this
    rw [if_pos hc, if_neg hc, toNat_lowU256_umod hc, BitVec.toNat_mul, toNat_toU512, toNat_toU512,
      Nat.mod_eq_of_lt hprod]

/-! ## Signed arithmetic -/

theorem toInt_eq_zero_iff {x : U256} : x.toInt = 0 ↔ x = 0 := by
  rw [← BitVec.toInt_inj, show (0 : U256).toInt = 0 from rfl]

theorem toInt_sdiv (a b : U256) :
    (sdiv a b).toInt =
      if b.toInt = 0 then 0
      else if a.toInt = -2 ^ 255 ∧ b.toInt = -1 then -2 ^ 255
      else a.toInt.tdiv b.toInt := by
  rw [sdiv, i256Div_eq_sdiv]
  by_cases hb : b.toInt = 0
  · simp [toInt_eq_zero_iff.mp hb]
  rw [if_neg hb]
  by_cases hmin : a.toInt = -2 ^ 255 ∧ b.toInt = -1
  · -- the one quotient that does not fit wraps back to the minimum
    rw [if_pos hmin, BitVec.toInt_sdiv, hmin.1, hmin.2]
    decide
  · rw [if_neg hmin]
    apply BitVec.toInt_sdiv_of_ne_or_ne
    by_contra hboth
    simp only [not_or, not_not] at hboth
    apply hmin
    rw [hboth.1, hboth.2]
    decide

theorem toInt_smod (a b : U256) :
    (smod a b).toInt = if b.toInt = 0 then 0 else a.toInt.tmod b.toInt := by
  rw [smod, i256Mod_eq_srem]
  by_cases hb : b.toInt = 0
  · rw [if_pos (toInt_eq_zero_iff.mp hb), if_pos hb]
    rfl
  · rw [if_neg fun h => hb (by rw [h]; rfl), if_neg hb, BitVec.toInt_srem]

/-! ## Sign extension -/

theorem signextend_eq (k x : U256) :
    signextend k x =
      if k.toNat < 32 then (x.setWidth (8 * k.toNat + 8)).signExtend 256 else x := by
  unfold signextend
  by_cases hk : k.toNat < 32
  · rw [if_pos hk, if_pos hk, Nat.mod_eq_of_lt (by omega : k.toNat < 2 ^ 32)]
    dsimp only
    apply BitVec.eq_of_getLsbD_eq
    intro j hj
    -- below the sign bit the mask keeps `x`; from it upward every bit is the sign bit
    have hsign : ((x.setWidth (8 * k.toNat + 8)).signExtend 256).getLsbD j =
        x.getLsbD (min j (8 * k.toNat + 7)) := by
      rw [BitVec.getLsbD_signExtend]
      by_cases h : j < 8 * k.toNat + 8
      · simp [hj, h, Nat.min_eq_left (show j ≤ 8 * k.toNat + 7 by omega)]
      · simp [hj, h, BitVec.msb_setWidth, Nat.min_eq_right (show 8 * k.toNat + 7 ≤ j by omega)]
    rw [hsign]
    cases hbit : x.getLsbD (8 * k.toNat + 7)
    · simp only [Bool.false_eq_true, if_false, BitVec.getLsbD_and, BitVec.getLsbD_ushiftRight,
        BitVec.getLsbD_allOnes]
      by_cases h : j < 8 * k.toNat + 7
      · simp [Nat.min_eq_left h.le]
        omega
      · simp [Nat.min_eq_right (not_lt.mp h), hbit]
        intro _
        omega
    · simp only [if_true, BitVec.getLsbD_or, BitVec.getLsbD_not, BitVec.getLsbD_ushiftRight,
        BitVec.getLsbD_allOnes]
      by_cases h : j < 8 * k.toNat + 7
      · simp [Nat.min_eq_left h.le, hj]
        omega
      · simp [Nat.min_eq_right (not_lt.mp h), hbit, hj]
        omega
  · rw [if_neg hk, if_neg hk]

theorem toInt_signextend (k x : U256) :
    (signextend k x).toInt =
      if k.toNat < 32 then (x.toNat : Int).bmod (2 ^ (8 * k.toNat + 8)) else x.toInt := by
  rw [signextend_eq]
  split_ifs with hk
  · rw [BitVec.toInt_signExtend_of_le (by omega), BitVec.toInt_setWidth]
  · rfl

/-! ## Exponentiation -/

/-- The limb loop reads the limb's bits as the binary exponentiation does its
number's. -/
theorem expBits_eq (n : Nat) (v base : U256) (word : BitVec 64) :
    let r := expBits n v base word
    (r.1, r.2.1, r.2.2.toNat) = BinaryPow.bitStep^[n] (v, base, word.toNat) := by
  -- one iteration of the limb loop is one bit step on the limb's value
  have hstep : Function.Semiconj (fun s : U256 × U256 × BitVec 64 => (s.1, s.2.1, s.2.2.toNat))
      (fun (s : U256 × U256 × BitVec 64) =>
        (if s.2.2 &&& 1 ≠ 0 then s.1 * s.2.1 else s.1, s.2.1 * s.2.1, s.2.2 >>> 1))
      BinaryPow.bitStep := by
    intro s
    obtain ⟨v, b, w⟩ := s
    have hbit : (w &&& 1 ≠ 0) ↔ w.toNat % 2 = 1 := by
      rw [ne_eq, ← BitVec.toNat_inj, BitVec.toNat_and, show (1 : BitVec 64).toNat = 1 from rfl,
        show (0 : BitVec 64).toNat = 0 from rfl, Nat.and_one_is_mod]
      omega
    simp only [BinaryPow.bitStep, BitVec.toNat_ushiftRight, Nat.shiftRight_eq_div_pow, pow_one]
    by_cases h : w.toNat % 2 = 1
    · rw [if_pos (hbit.mpr h), if_pos h]
    · rw [if_neg (fun h' => h (hbit.mp h')), if_neg h]
  have := (hstep.iterate_right n) (v, base, word)
  simp only [expBits, List.foldl_const, List.length_range]
  exact this

/-- `exp` is the power of the base by the exponent's value. -/
theorem exp_eq_pow (base power : U256) : exp base power = base ^ power.toNat := by
  have hdigits : ∀ x ∈ power.words.map BitVec.toNat, x < 2 ^ 64 := by
    intro x hx
    obtain ⟨w, -, rfl⟩ := List.mem_map.mp hx
    exact w.isLt
  -- one limb of the loop is one digit of the binary exponentiation
  have hlimb : ∀ (s : U256 × U256 × Nat) (word : BitVec 64),
      (let (v, base, remainingBits) := s
       let (v, base, _) := expBits (min 64 remainingBits) v base word
       (v, base, remainingBits - 64)) = BinaryPow.digitStep 64 s word.toNat := by
    intro s word
    obtain ⟨v, b, r⟩ := s
    have h := expBits_eq (min 64 r) v b word
    simp only [BinaryPow.digitStep, ← h]
  have hexp : exp base power = ((power.words.map BitVec.toNat).foldl (BinaryPow.digitStep 64)
      (1, base, 256 - power.leadingZeros)).1 := by
    simp only [exp, List.foldl_map, hlimb]
  rw [hexp, BinaryPow.foldl_digitStep 64 _ hdigits, ofDigits_words, sub_leadingZeros,
    Nat.mod_eq_of_lt (Nat.lt_size_self _), one_mul]

theorem toNat_exp (base power : U256) :
    (exp base power).toNat = base.toNat ^ power.toNat % 2 ^ 256 := by
  rw [exp_eq_pow, BitVec.toNat_pow]

end BuiltinActors.Evm
