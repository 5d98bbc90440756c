import Mathlib.Tactic.Ring
import Mathlib.Tactic.Linarith
import Mathlib.Data.Int.Init

/-! # Epoch quantization

`QuantSpec` rounds epochs to the grid `offset + unit * ℤ`. The source computes
it with truncating `/` and `%` on `i64`; here these are `Int.tdiv` and
`Int.tmod`, and epochs (`ChainEpoch`) are unbounded integers (an `i64` overflow aborts the message,
so it never produces a result the model lacks).

`quantizeUp_eq` recasts the truncating computation as the Euclidean one,
`epoch + (offset - epoch) % unit`; the rest of the file works from there. -/

namespace BuiltinActors.Miner

/-- A spec for epoch quantization. -/
structure QuantSpec where
  unit : Int
  offset : Int
deriving DecidableEq, Repr

/-- The spec which performs no quantization. -/
def noQuantization : QuantSpec := ⟨1, 0⟩

namespace QuantSpec

/-- Rounds `epoch` up to the nearest epoch congruent to `offset` modulo `unit`. -/
def quantizeUp (q : QuantSpec) (epoch : Int) : Int :=
  let offset := q.offset.tmod q.unit
  let remainder := (epoch - offset).tmod q.unit
  let quotient := (epoch - offset).tdiv q.unit
  -- negative truncating division already rounds up
  if remainder = 0 ∨ epoch - offset < 0 then q.unit * quotient + offset
  else q.unit * (quotient + 1) + offset

def quantizeDown (q : QuantSpec) (epoch : Int) : Int :=
  let next := q.quantizeUp epoch
  if epoch = next then next else next - q.unit

/-! ## The Euclidean form -/

theorem tmod_emod_eq {a u : Int} : a.tmod u % u = a % u := by
  rw [Int.tmod_def, Int.sub_emod, Int.mul_emod_right, sub_zero, Int.emod_emod]

/-- Truncating division rounds towards zero, so a negative dividend leaves a
non-positive remainder. -/
theorem tmod_nonpos_of_neg {a u : Int} (ha : a < 0) : a.tmod u ≤ 0 := by
  have h := Int.tmod_nonneg u (show 0 ≤ -a by omega)
  rw [Int.neg_tmod] at h
  omega

theorem quantizeUp_eq (q : QuantSpec) (hu : 0 < q.unit) (e : Int) :
    q.quantizeUp e = e + (q.offset - e) % q.unit := by
  have ho : (q.offset - e) % q.unit = (q.offset.tmod q.unit - e) % q.unit := by
    rw [Int.sub_emod q.offset, Int.sub_emod (q.offset.tmod q.unit), tmod_emod_eq]
  rw [ho]
  have hdef := Int.tmod_def (e - q.offset.tmod q.unit) q.unit
  have hlo := Int.lt_tmod_of_pos (e - q.offset.tmod q.unit) hu
  have hhi := Int.tmod_lt_of_pos (e - q.offset.tmod q.unit) hu
  simp only [quantizeUp]
  split_ifs with hc
  · -- the remainder is zero or non-positive: the result is `e` minus it
    have hr : (e - q.offset.tmod q.unit).tmod q.unit ≤ 0 := by
      rcases hc with hc | hc
      · exact hc.le
      · exact tmod_nonpos_of_neg hc
    rw [show q.offset.tmod q.unit - e = q.unit * (-(e - q.offset.tmod q.unit).tdiv q.unit) +
        -(e - q.offset.tmod q.unit).tmod q.unit by linarith,
      Int.mul_add_emod_self_left, Int.emod_eq_of_lt (by omega) (by omega)]
    linarith
  · -- a positive remainder: round up to the next grid point
    simp only [not_or, not_lt] at hc
    have hr : 0 < (e - q.offset.tmod q.unit).tmod q.unit :=
      lt_of_le_of_ne (Int.tmod_nonneg _ hc.2) (Ne.symm hc.1)
    rw [show q.offset.tmod q.unit - e = q.unit * (-(e - q.offset.tmod q.unit).tdiv q.unit - 1) +
        (q.unit - (e - q.offset.tmod q.unit).tmod q.unit) by linarith,
      Int.mul_add_emod_self_left, Int.emod_eq_of_lt (by omega) (by omega)]
    linarith

/-- Rounding up lands on the grid `offset.tmod unit + unit * ℤ`, whatever the unit. -/
theorem quantizeUp_grid (q : QuantSpec) (e : Int) :
    ∃ t, q.quantizeUp e = q.unit * t + q.offset.tmod q.unit := by
  simp only [quantizeUp]
  split_ifs
  · exact ⟨_, rfl⟩
  · exact ⟨_, rfl⟩

theorem quantizeUp_grid_point (q : QuantSpec) (t : Int) :
    q.quantizeUp (q.unit * t + q.offset.tmod q.unit) = q.unit * t + q.offset.tmod q.unit := by
  have hx : q.unit * t + q.offset.tmod q.unit - q.offset.tmod q.unit = q.unit * t := by ring
  simp only [quantizeUp, hx, Int.mul_tmod_right, true_or, if_true]
  rcases eq_or_ne q.unit 0 with h0 | h0
  · simp [h0]
  · rw [Int.mul_tdiv_cancel_left _ h0]

/-- Rounding up is idempotent for every spec, a zero or negative unit included:
the source rounds the already quantized epochs of `add_many_to_queue_values`
once more. -/
@[simp] theorem quantizeUp_idem (q : QuantSpec) (e : Int) :
    q.quantizeUp (q.quantizeUp e) = q.quantizeUp e := by
  obtain ⟨t, ht⟩ := q.quantizeUp_grid e
  rw [ht, quantizeUp_grid_point]

/-! ## Properties of rounding up -/

variable (q : QuantSpec) (hu : 0 < q.unit)
include hu

theorem quantizeUp_spec (e : Int) :
    e ≤ q.quantizeUp e ∧ q.quantizeUp e < e + q.unit ∧ (q.quantizeUp e - q.offset) % q.unit = 0 := by
  rw [q.quantizeUp_eq hu]
  have h0 := Int.emod_nonneg (q.offset - e) hu.ne'
  have h1 := Int.emod_lt_of_pos (q.offset - e) hu
  refine ⟨by omega, by omega, ?_⟩
  have hd := Int.emod_def (q.offset - e) q.unit
  rw [show e + (q.offset - e) % q.unit - q.offset = q.unit * (-((q.offset - e) / q.unit)) by
    linarith]
  exact Int.mul_emod_right _ _

theorem le_quantizeUp (e : Int) : e ≤ q.quantizeUp e := (q.quantizeUp_spec hu e).1

/-- Rounding up gives the least grid point at or above the epoch. -/
theorem quantizeUp_le {e g : Int} (he : e ≤ g) (hg : (g - q.offset) % q.unit = 0) :
    q.quantizeUp e ≤ g := by
  rw [q.quantizeUp_eq hu]
  have hcong : (q.offset - e) % q.unit = (g - e) % q.unit := by
    rw [show g - e = (g - q.offset) + (q.offset - e) by ring, Int.add_emod, hg, zero_add,
      Int.emod_emod]
  rw [hcong]
  have h2 : (g - e) % q.unit ≤ g - e := by
    have hq := mul_nonneg hu.le (Int.ediv_nonneg (sub_nonneg.mpr he) hu.le)
    have hd := Int.emod_def (g - e) q.unit
    linarith
  omega

theorem quantizeUp_mono {e e' : Int} (h : e ≤ e') : q.quantizeUp e ≤ q.quantizeUp e' := by
  obtain ⟨h1, -, h3⟩ := q.quantizeUp_spec hu e'
  exact q.quantizeUp_le hu (h.trans h1) h3

theorem quantizeUp_of_mod {g : Int} (hg : (g - q.offset) % q.unit = 0) :
    q.quantizeUp g = g :=
  le_antisymm (q.quantizeUp_le hu le_rfl hg) (q.le_quantizeUp hu g)

/-! ## Properties of rounding down -/

omit hu in
/-- Two grid points less than a unit apart are the same point. -/
theorem eq_of_mod_of_lt {a b : Int} (ha : (a - q.offset) % q.unit = 0)
    (hb : (b - q.offset) % q.unit = 0) (hab : a ≤ b) (hba : b < a + q.unit) : a = b := by
  have hdiff : (b - a) % q.unit = 0 := by
    rw [show b - a = (b - q.offset) - (a - q.offset) by ring, Int.sub_emod, ha, hb]
    rfl
  rw [Int.emod_eq_of_lt (by omega) (by omega)] at hdiff
  omega

theorem quantizeDown_spec (e : Int) :
    q.quantizeDown e ≤ e ∧ e < q.quantizeDown e + q.unit ∧
      (q.quantizeDown e - q.offset) % q.unit = 0 := by
  obtain ⟨h1, h2, h3⟩ := q.quantizeUp_spec hu e
  unfold quantizeDown
  dsimp only
  split_ifs with he
  · -- a grid point rounds to itself
    exact ⟨by omega, by omega, h3⟩
  · -- otherwise one unit below the point above
    refine ⟨by omega, by omega, ?_⟩
    rw [show q.quantizeUp e - q.unit - q.offset = q.quantizeUp e - q.offset + q.unit * (-1) by ring,
      Int.add_mul_emod_self_left, h3]

/-- Rounding down gives the greatest grid point at or below the epoch. -/
theorem le_quantizeDown {e g : Int} (hg : g ≤ e) (ha : (g - q.offset) % q.unit = 0) :
    g ≤ q.quantizeDown e := by
  obtain ⟨h1, h2, h3⟩ := q.quantizeDown_spec hu e
  by_contra hlt
  have := q.eq_of_mod_of_lt h3 ha (by omega) (by omega)
  omega

theorem quantizeDown_of_mod {g : Int} (hg : (g - q.offset) % q.unit = 0) :
    q.quantizeDown g = g := by
  unfold quantizeDown
  dsimp only
  rw [q.quantizeUp_of_mod hu hg, if_pos rfl]

theorem quantizeDown_idem (e : Int) : q.quantizeDown (q.quantizeDown e) = q.quantizeDown e :=
  q.quantizeDown_of_mod hu (q.quantizeDown_spec hu e).2.2

theorem quantizeUp_quantizeDown (e : Int) : q.quantizeUp (q.quantizeDown e) = q.quantizeDown e :=
  q.quantizeUp_of_mod hu (q.quantizeDown_spec hu e).2.2

theorem quantizeDown_mono {e e' : Int} (h : e ≤ e') : q.quantizeDown e ≤ q.quantizeDown e' := by
  obtain ⟨h1, -, h3⟩ := q.quantizeDown_spec hu e
  exact q.le_quantizeDown hu (h1.trans h) h3

end QuantSpec

end BuiltinActors.Miner
