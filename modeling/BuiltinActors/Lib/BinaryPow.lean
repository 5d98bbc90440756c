import Mathlib

/-! # Right-to-left binary exponentiation

The loop that reads an exponent's bits from the least significant one: it
multiplies the accumulator by the running base when the bit is set, and
squares the base after every bit. After `k` bits of `n` the accumulator has
gained `b ^ (n % 2 ^ k)` and the base is `b ^ 2 ^ k`.

The exponent may come as digits of `d` bits, least significant first, with a
budget of bits to read: each digit is read for `min d budget` bits and the
budget drops by `d`. The accumulator then gains `b ^ (n % 2 ^ budget)`, where
`n` is the number the digits spell. -/

namespace BinaryPow

variable {M : Type*} [Monoid M]

/-- One bit: multiply in the base when the low bit is set, square the base,
drop the bit. -/
def bitStep : M × M × Nat → M × M × Nat
  | (v, b, n) => (if n % 2 = 1 then v * b else v, b * b, n / 2)

theorem bitStep_iterate (k : Nat) (v b : M) (n : Nat) :
    bitStep^[k] (v, b, n) = (v * b ^ (n % 2 ^ k), b ^ 2 ^ k, n / 2 ^ k) := by
  induction k with
  | zero => simp [Nat.mod_one]
  | succ k ih =>
    rw [Function.iterate_succ_apply', ih, bitStep]
    -- bit `k` of `n` is the low bit of what is left of it
    have hexp : n % 2 ^ (k + 1) = n % 2 ^ k + 2 ^ k * (n / 2 ^ k % 2) := Nat.mod_pow_succ
    have hdiv : n / 2 ^ k / 2 = n / 2 ^ (k + 1) := by rw [Nat.div_div_eq_div_mul, pow_succ]
    have hsq : b ^ 2 ^ k * b ^ 2 ^ k = b ^ 2 ^ (k + 1) := by rw [← pow_add, pow_succ, mul_two]
    rw [hdiv, hsq, hexp]
    rcases Nat.mod_two_eq_zero_or_one (n / 2 ^ k) with h | h
    · simp [h]
    · simp [h, pow_add, mul_assoc]

/-- One digit of `d` bits, read for as much of the budget as is left. -/
def digitStep (d : Nat) : M × M × Nat → Nat → M × M × Nat
  | (v, b, budget), digit =>
    let r := bitStep^[min d budget] (v, b, digit)
    (r.1, r.2.1, budget - d)

/-- A number of `d + e` bits whose low `d` bits are `x`: reading it modulo
`2 ^ (d + e)` keeps `x` and the high part modulo `2 ^ e`. -/
theorem add_mul_mod_two_pow {x d : Nat} (hx : x < 2 ^ d) (r e : Nat) :
    (x + 2 ^ d * r) % 2 ^ (d + e) = x + 2 ^ d * (r % 2 ^ e) := by
  rw [pow_add, Nat.mod_mul, Nat.add_mul_mod_self_left, Nat.mod_eq_of_lt hx,
    Nat.add_mul_div_left _ _ (Nat.two_pow_pos d), Nat.div_eq_of_lt hx, zero_add]

theorem foldl_digitStep (d : Nat) :
    ∀ (digits : List Nat), (∀ x ∈ digits, x < 2 ^ d) → ∀ (v b : M) (budget : Nat),
      (digits.foldl (digitStep d) (v, b, budget)).1 =
        v * b ^ (Nat.ofDigits (2 ^ d) digits % 2 ^ budget)
  | [], _, v, b, budget => by simp
  | x :: rest, hdigits, v, b, budget => by
    have hx := hdigits x List.mem_cons_self
    have ih := foldl_digitStep d rest (fun y hy => hdigits y (List.mem_cons_of_mem _ hy))
    simp only [List.foldl_cons, digitStep, bitStep_iterate, ih, Nat.ofDigits_cons]
    by_cases hd : d ≤ budget
    · -- the whole digit is read, and the rest of the budget goes on
      obtain ⟨e, rfl⟩ := Nat.exists_eq_add_of_le hd
      rw [min_eq_left hd, Nat.mod_eq_of_lt hx, Nat.add_sub_cancel_left,
        add_mul_mod_two_pow hx, mul_assoc, ← pow_mul, ← pow_add]
    · -- the budget ends inside this digit; what the later digits spell is cut off
      have hlt : budget < d := lt_of_not_ge hd
      obtain ⟨e, rfl⟩ := Nat.exists_eq_add_of_lt hlt
      have hzero : budget - (budget + e + 1) = 0 := by omega
      have hcut : (x + 2 ^ (budget + e + 1) * Nat.ofDigits (2 ^ (budget + e + 1)) rest) %
          2 ^ budget = x % 2 ^ budget := by
        rw [show budget + e + 1 = budget + (e + 1) by omega, pow_add, mul_assoc,
          Nat.add_mul_mod_self_left]
      rw [min_eq_right hlt.le, hzero, pow_zero, Nat.mod_one, pow_zero, mul_one, hcut]

end BinaryPow
