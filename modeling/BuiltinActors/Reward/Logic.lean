import Mathlib.Data.Int.Bitwise

/-! # Reward arithmetic in Q.128

The reward actor's minting functions (`logic.rs`, `expneg.rs`, and
`poly_val` of the runtime's `reward/math.rs`). Numbers are `BigInt`s read as
fixed-point values with 128 fractional bits; a product is shifted right by
128 to stay in Q.128, and `BigInt`'s right shift rounds towards minus
infinity, as `Int`'s does. `expneg` is a rational approximation of `e^-x`
whose source documents its error on `[0, 5)` only. -/

namespace BuiltinActors.Reward

def precision : Nat := 128

/-- `poly_val`: Horner's rule in Q.128, the coefficients from the highest
order down. -/
def polyVal (poly : List Int) (x : Int) : Int :=
  poly.foldl (fun res coeff => ((res * x) >>> precision) + coeff) 0

def expNumCoef : List Int :=
  [-648770010757830093818553637600,
    67469480939593786226847644286976,
    -3197587544499098424029388939001856,
    89244641121992890118377641805348864,
    -1579656163641440567800982336819953664,
    17685496037279256458459817590917169152,
    -115682590513835356866803355398940131328,
    340282366920938463463374607431768211456]

def expDenoCoef : List Int :=
  [1225524182432722209606361,
    114095592300906098243859450,
    5665570424063336070530214243,
    194450132448609991765137938448,
    5068267641632683791026134915072,
    104716890604972796896895427629056,
    1748338658439454459487681798864896,
    23704654329841312470660182937960448,
    259380097567996910282699886670381056,
    2250336698853390384720606936038375424,
    14978272436876548034486263159246028800,
    72144088983913131323343765784380833792,
    224599776407103106596571252037123047424,
    340282366920938463463374607431768211456]

/-- `expneg`: `e^-x` for `x` in Q.128, in Q.128. -/
def expneg (x : Int) : Int :=
  let num := polyVal expNumCoef x
  let deno := polyVal expDenoCoef x
  (num <<< precision).fdiv deno

/-- `BASELINE_EXPONENT`: the per-epoch growth of the baseline, in Q.128. -/
def baselineExponent : Int := 340282591298641078465964189926313473653

def baselineInitialValue : Int := 2888888880000000000

def initBaselinePower : Int :=
  ((baselineInitialValue <<< (2 * precision)).tdiv baselineExponent) >>> precision

/-- `SIMPLE_TOTAL`: 330M FIL, in attoFIL. -/
def simpleTotal : Int := 330000000 * 10 ^ 18

/-- `BASELINE_TOTAL`: 770M FIL, in attoFIL. -/
def baselineTotal : Int := 770000000 * 10 ^ 18

/-- `EXP_LAM_SUB_ONE`: `e^lambda - 1` in Q.128. -/
def expLamSubOne : Int := 37396273494747879394193016954629

/-- `LAMBDA`: `ln 2 / (6 * epochsInYear)` in Q.128. -/
def lambda : Int := 37396271439864487274534522888786

def baselinePowerFromPrev (prevPower : Int) : Int := (prevPower * baselineExponent) >>> precision

/-- The baseline never shrinks: its exponent is above one. -/
theorem le_baselinePowerFromPrev {p : Int} (hp : 0 ≤ p) : p ≤ baselinePowerFromPrev p := by
  have hexp : (2 : Int) ^ precision ≤ baselineExponent := by decide
  rw [baselinePowerFromPrev, Int.shiftRight_eq_div_pow, Int.le_ediv_iff_mul_le (by decide)]
  exact Int.mul_le_mul_of_nonneg_left hexp hp

/-- `compute_r_theta`: the effective network time, interpolated between the
baseline's cumulative sums, in Q.128. -/
def computeRTheta (effectiveNetworkTime : Int) (baselinePowerAtEffectiveNetworkTime cumsumRealized
    cumsumBaseline : Int) : Int :=
  if effectiveNetworkTime ≠ 0 then
    let rewardTheta := effectiveNetworkTime <<< precision
    let diff := ((cumsumBaseline - cumsumRealized) <<< precision).fdiv
      baselinePowerAtEffectiveNetworkTime
    rewardTheta - diff
  else 0

/-- `compute_baseline_supply`: what the baseline has minted by `theta`, in
Q.128. -/
def computeBaselineSupply (theta baselineTotal : Int) : Int :=
  let thetaLam := (theta * lambda) >>> precision
  let etl := expneg thetaLam
  let one := (1 : Int) <<< precision
  let oneSub := one - etl
  oneSub * baselineTotal

/-- A right shift keeps the sign: it rounds towards minus infinity. -/
theorem shiftRight_neg_iff (x : Int) (n : Nat) : x >>> n < 0 ↔ x < 0 := by
  constructor
  · intro h
    exact Int.not_le.mp fun hx => Int.not_le.mpr h (Int.le_shiftRight_of_nonneg hx)
  · intro h
    obtain ⟨m, rfl⟩ := Int.eq_negSucc_of_lt_zero h
    rw [Int.negSucc_shiftRight]
    exact Int.negSucc_lt_zero _

/-- `compute_reward`: the simple reward of `epoch` and what the baseline
mints as the effective network time moves from `prevTheta` to `currTheta`. -/
def computeReward (epoch prevTheta currTheta simpleTotal baselineTotal : Int) : Int :=
  let simpleReward := simpleTotal * expLamSubOne
  let epochLam := lambda * epoch
  let simpleReward := simpleReward * expneg epochLam
  let simpleReward := simpleReward >>> precision
  let baselineReward :=
    computeBaselineSupply currTheta baselineTotal - computeBaselineSupply prevTheta baselineTotal
  (simpleReward + baselineReward) >>> precision

/-- Where the effective network time has not moved, the baseline mints
nothing and the reward is the simple part alone. -/
theorem computeReward_same_theta (epoch theta simpleTotal baselineTotal : Int) :
    computeReward epoch theta theta simpleTotal baselineTotal =
      ((simpleTotal * expLamSubOne * expneg (lambda * epoch)) >>> precision) >>> precision := by
  simp only [computeReward, Int.sub_self, Int.add_zero]

/-- The simple part has the sign of `expneg` at the epoch. -/
theorem computeReward_same_theta_neg_iff (epoch theta : Int) {simpleTotal baselineTotal : Int}
    (hsimple : 0 < simpleTotal) :
    computeReward epoch theta theta simpleTotal baselineTotal < 0 ↔ expneg (lambda * epoch) < 0 := by
  have hpos : 0 < simpleTotal * expLamSubOne := Int.mul_pos hsimple (by decide)
  rw [computeReward_same_theta, shiftRight_neg_iff, shiftRight_neg_iff]
  constructor
  · intro h
    exact Int.not_le.mp fun he => Int.not_lt.mpr (Int.mul_nonneg (Int.le_of_lt hpos) he) h
  · exact Int.mul_neg_of_pos_of_neg hpos

example : computeReward 1 0 0 simpleTotal baselineTotal = 36266260308195979333 := by decide

end BuiltinActors.Reward
