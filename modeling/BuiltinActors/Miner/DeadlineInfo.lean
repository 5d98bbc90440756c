import BuiltinActors.Miner.Quantize

/-! # Deadline information

A miner's proving period is cut into `wpost_period_deadlines` challenge windows
of `wpost_challenge_window` epochs each. `DeadlineInfo` (`deadline_info.rs`)
describes one deadline of one proving period as seen at an epoch: when the
period starts, when the deadline opens and closes, and its challenge and fault
cutoff epochs. `next_not_elapsed` moves an elapsed deadline forward by whole
proving periods; `new_deadline_info_from_offset_and_epoch` (`deadlines.rs`)
finds the deadline that is open at an epoch from the period's offset alone.

Epochs are unbounded integers, as in `Quantize`; the index is a `u64`. -/

namespace BuiltinActors.Miner

/-- The proof-of-spacetime parameters of the policy that deadlines read; the
number of deadlines is a `u64`. -/
structure Policy where
  wpostPeriodDeadlines : Nat
  wpostProvingPeriod : Int
  wpostChallengeWindow : Int
  wpostChallengeLookback : Int
  faultDeclarationCutoff : Int
  wpostPeriodDeadlines_lt : wpostPeriodDeadlines < 2 ^ 64

structure DeadlineInfo where
  currentEpoch : Int
  periodStart : Int
  index : Nat
  «open» : Int
  close : Int
  challenge : Int
  faultCutoff : Int
  wPostPeriodDeadlines : Nat
  wPostProvingPeriod : Int
  wPostChallengeWindow : Int
  wPostChallengeLookback : Int
  faultDeclarationCutoff : Int
deriving DecidableEq, Repr

namespace DeadlineInfo

/-- The deadline `deadlineIdx` of the period from `periodStart`; an index past
the last deadline describes the empty deadline at the next period's start. -/
def new (periodStart : Int) (deadlineIdx : Nat) (currentEpoch : Int)
    (wPostPeriodDeadlines : Nat) (wPostProvingPeriod wPostChallengeWindow
      wPostChallengeLookback faultDeclarationCutoff : Int) : DeadlineInfo :=
  if deadlineIdx < wPostPeriodDeadlines then
    let deadlineOpen := periodStart + deadlineIdx * wPostChallengeWindow
    { currentEpoch, periodStart
      index := deadlineIdx
      «open» := deadlineOpen
      close := deadlineOpen + wPostChallengeWindow
      challenge := deadlineOpen - wPostChallengeLookback
      faultCutoff := deadlineOpen - faultDeclarationCutoff
      wPostPeriodDeadlines, wPostProvingPeriod, wPostChallengeWindow, wPostChallengeLookback,
      faultDeclarationCutoff }
  else
    let afterLastDeadline := periodStart + wPostProvingPeriod
    { currentEpoch, periodStart
      index := deadlineIdx
      «open» := afterLastDeadline
      close := afterLastDeadline
      challenge := afterLastDeadline
      faultCutoff := 0
      wPostPeriodDeadlines, wPostProvingPeriod, wPostChallengeWindow, wPostChallengeLookback,
      faultDeclarationCutoff }

def periodStarted (d : DeadlineInfo) : Bool := d.periodStart ≤ d.currentEpoch

def nextPeriodStart (d : DeadlineInfo) : Int := d.periodStart + d.wPostProvingPeriod

def periodElapsed (d : DeadlineInfo) : Bool := d.nextPeriodStart ≤ d.currentEpoch

def periodEnd (d : DeadlineInfo) : Int := d.periodStart + d.wPostProvingPeriod - 1

def isOpen (d : DeadlineInfo) : Bool := d.open ≤ d.currentEpoch && d.currentEpoch < d.close

def hasElapsed (d : DeadlineInfo) : Bool := d.close ≤ d.currentEpoch

/-- The last epoch in which a proof may be submitted. -/
def last (d : DeadlineInfo) : Int := d.close - 1

def faultCutoffPassed (d : DeadlineInfo) : Bool := d.faultCutoff ≤ d.currentEpoch

/-- The next instance of this deadline that has not elapsed: an elapsed one
moves on by as many whole proving periods as it takes. -/
def nextNotElapsed (d : DeadlineInfo) : DeadlineInfo :=
  if !d.hasElapsed then d
  else
    let gap := d.currentEpoch - d.close
    let deltaPeriods := 1 + gap.tdiv d.wPostProvingPeriod
    new (d.periodStart + d.wPostProvingPeriod * deltaPeriods) d.index d.currentEpoch
      d.wPostPeriodDeadlines d.wPostProvingPeriod d.wPostChallengeWindow
      d.wPostChallengeLookback d.faultDeclarationCutoff

def quantSpec (d : DeadlineInfo) : QuantSpec := ⟨d.wPostProvingPeriod, d.last⟩

end DeadlineInfo

/-- `x as u64` for an `i64`: the value modulo `2^64`. -/
def asU64 (x : Int) : Nat := (x % 2 ^ 64).toNat

def newDeadlineInfo (policy : Policy) (provingPeriodStart : Int) (deadlineIdx : Nat)
    (currentEpoch : Int) : DeadlineInfo :=
  .new provingPeriodStart deadlineIdx currentEpoch policy.wpostPeriodDeadlines
    policy.wpostProvingPeriod policy.wpostChallengeWindow policy.wpostChallengeLookback
    policy.faultDeclarationCutoff

/-- The deadline open at `currentEpoch`, for periods starting on the grid of
`periodStartSeed`. -/
def newDeadlineInfoFromOffsetAndEpoch (policy : Policy) (periodStartSeed currentEpoch : Int) :
    DeadlineInfo :=
  let q : QuantSpec := ⟨policy.wpostProvingPeriod, periodStartSeed⟩
  let currentPeriodStart := q.quantizeDown currentEpoch
  let currentDeadlineIdx :=
    asU64 ((currentEpoch - currentPeriodStart).tdiv policy.wpostChallengeWindow)
  newDeadlineInfo policy currentPeriodStart currentDeadlineIdx currentEpoch

/-- Whether a deadline can still be changed: at least a challenge window
before its next instance opens. -/
def deadlineIsMutable (policy : Policy) (provingPeriodStart : Int) (deadlineIdx : Nat)
    (currentEpoch : Int) : Bool :=
  let deadlineInfo :=
    (newDeadlineInfo policy provingPeriodStart deadlineIdx currentEpoch).nextNotElapsed
  currentEpoch < deadlineInfo.open - policy.wpostChallengeWindow

def quantSpecForDeadline (policy : Policy) (di : DeadlineInfo) : QuantSpec :=
  ⟨policy.wpostProvingPeriod, di.last⟩

namespace DeadlineInfo

/-! ## The fields of a deadline -/

section New

variable {periodStart : Int} {deadlineIdx : Nat} {currentEpoch : Int} {D : Nat}
  {P W L F : Int}

/-- The fields every deadline keeps as given. -/
theorem new_fields :
    (new periodStart deadlineIdx currentEpoch D P W L F).currentEpoch = currentEpoch ∧
      (new periodStart deadlineIdx currentEpoch D P W L F).periodStart = periodStart ∧
      (new periodStart deadlineIdx currentEpoch D P W L F).index = deadlineIdx ∧
      (new periodStart deadlineIdx currentEpoch D P W L F).wPostProvingPeriod = P := by
  unfold new
  split <;> exact ⟨rfl, rfl, rfl, rfl⟩

/-- A deadline of the period opens `deadlineIdx` windows after its start and
closes one window later. -/
theorem new_open_close (h : deadlineIdx < D) :
    (new periodStart deadlineIdx currentEpoch D P W L F).open = periodStart + deadlineIdx * W ∧
      (new periodStart deadlineIdx currentEpoch D P W L F).close =
        periodStart + deadlineIdx * W + W := by
  unfold new
  rw [if_pos h]
  exact ⟨rfl, rfl⟩

/-- The parameters pass on unchanged, so moving a deadline on rebuilds it with
the same ones. -/
theorem new_params :
    (new periodStart deadlineIdx currentEpoch D P W L F).wPostPeriodDeadlines = D ∧
      (new periodStart deadlineIdx currentEpoch D P W L F).wPostChallengeWindow = W ∧
      (new periodStart deadlineIdx currentEpoch D P W L F).wPostChallengeLookback = L ∧
      (new periodStart deadlineIdx currentEpoch D P W L F).faultDeclarationCutoff = F := by
  unfold new
  split <;> exact ⟨rfl, rfl, rfl, rfl⟩

end New

/-! ## Moving on to the next instance -/

theorem nextNotElapsed_of_not_hasElapsed {d : DeadlineInfo} (h : d.hasElapsed = false) :
    d.nextNotElapsed = d := by
  simp [nextNotElapsed, h]

/-- An elapsed deadline of the period, `new`'s first case, moves on by
`1 + (currentEpoch - close) / P` periods, a number the truncating division
computes as the Euclidean one because the gap is not negative. -/
theorem nextNotElapsed_of_hasElapsed {periodStart : Int} {deadlineIdx : Nat} {currentEpoch : Int}
    {D : Nat} {P W L F : Int} (hidx : deadlineIdx < D)
    (h : (new periodStart deadlineIdx currentEpoch D P W L F).hasElapsed = true) :
    (new periodStart deadlineIdx currentEpoch D P W L F).nextNotElapsed =
      new (periodStart + P * (1 + (currentEpoch - (periodStart + deadlineIdx * W + W)) / P))
        deadlineIdx currentEpoch D P W L F := by
  obtain ⟨hcur, hstart, hindex, hperiod⟩ :=
    @new_fields periodStart deadlineIdx currentEpoch D P W L F
  obtain ⟨-, hclose⟩ := @new_open_close periodStart deadlineIdx currentEpoch D P W L F hidx
  obtain ⟨hD, hW, hL, hF⟩ := @new_params periodStart deadlineIdx currentEpoch D P W L F
  have hgap : 0 ≤ currentEpoch - (periodStart + deadlineIdx * W + W) := by
    simp only [hasElapsed, decide_eq_true_eq, hclose, hcur] at h
    omega
  simp only [nextNotElapsed, h, Bool.not_true, Bool.false_eq_true, if_false, hcur, hstart,
    hindex, hperiod, hclose, hD, hW, hL, hF, Int.tdiv_eq_ediv_of_nonneg hgap]

/-- Moving on keeps the deadline and the epoch, skips whole periods, lands on
an instance that has not elapsed, and skips no instance that has not: the one
before it had elapsed. -/
theorem nextNotElapsed_spec {periodStart : Int} {deadlineIdx : Nat} {currentEpoch : Int}
    {D : Nat} {P W L F : Int} (hP : 0 < P) (hidx : deadlineIdx < D) :
    (new periodStart deadlineIdx currentEpoch D P W L F).nextNotElapsed.index = deadlineIdx ∧
      (new periodStart deadlineIdx currentEpoch D P W L F).nextNotElapsed.currentEpoch =
        currentEpoch ∧
      (∃ k : Nat, (new periodStart deadlineIdx currentEpoch D P W L F).nextNotElapsed.periodStart =
        periodStart + k * P) ∧
      (new periodStart deadlineIdx currentEpoch D P W L F).nextNotElapsed.hasElapsed = false ∧
      ((new periodStart deadlineIdx currentEpoch D P W L F).hasElapsed = true →
        (new periodStart deadlineIdx currentEpoch D P W L F).nextNotElapsed.close - P ≤
          currentEpoch) := by
  obtain ⟨hcur, hstart, hindex, -⟩ := @new_fields periodStart deadlineIdx currentEpoch D P W L F
  cases hel : (new periodStart deadlineIdx currentEpoch D P W L F).hasElapsed with
  | false =>
    rw [nextNotElapsed_of_not_hasElapsed hel]
    exact ⟨hindex, hcur, ⟨0, by simp [hstart]⟩, hel, fun h => nomatch h⟩
  | true =>
    rw [nextNotElapsed_of_hasElapsed hidx hel]
    obtain ⟨-, hclose⟩ := @new_open_close periodStart deadlineIdx currentEpoch D P W L F hidx
    have hgap : periodStart + deadlineIdx * W + W ≤ currentEpoch := by
      simpa [hasElapsed, hclose, hcur] using hel
    -- the gap past the close, in whole periods and a remainder below one
    set gap := currentEpoch - (periodStart + deadlineIdx * W + W) with hgap_def
    have hdiv := Int.mul_ediv_add_emod gap P
    have hmod := Int.emod_lt_of_pos gap hP
    have hmod0 := Int.emod_nonneg gap hP.ne'
    have hq : 0 ≤ gap / P := Int.ediv_nonneg (by omega) hP.le
    obtain ⟨hcur', hstart', hindex', -⟩ :=
      @new_fields (periodStart + P * (1 + gap / P)) deadlineIdx currentEpoch D P W L F
    obtain ⟨-, hclose'⟩ :=
      @new_open_close (periodStart + P * (1 + gap / P)) deadlineIdx currentEpoch D P W L F hidx
    have hmul : P * (1 + gap / P) = P + P * (gap / P) := by ring
    refine ⟨hindex', hcur', ⟨(1 + gap / P).toNat, ?_⟩, ?_, fun _ => ?_⟩
    · rw [hstart', Int.toNat_of_nonneg (by omega), Int.mul_comm]
    · have hlt : currentEpoch < (new (periodStart + P * (1 + gap / P)) deadlineIdx currentEpoch
          D P W L F).close := by
        rw [hclose']
        omega
      simp only [hasElapsed, hcur', decide_eq_false_iff_not, not_le]
      exact hlt
    · rw [hclose']
      omega

end DeadlineInfo

/-! ## The deadline open at an epoch -/

section FromOffset

variable (policy : Policy)
  (hP : policy.wpostProvingPeriod = policy.wpostPeriodDeadlines * policy.wpostChallengeWindow)
  (hD : 0 < policy.wpostPeriodDeadlines) (hW : 0 < policy.wpostChallengeWindow)
include hP hD hW

theorem wpostProvingPeriod_pos : 0 < policy.wpostProvingPeriod := by
  rw [hP]
  exact Int.mul_pos (by exact_mod_cast hD) hW

/-- The index of the window the epoch falls in: the number of whole windows
since the period started, fewer than the deadlines since the period is not
over. -/
theorem deadlineIdx_fromOffset (seed currentEpoch : Int) :
    let start := (⟨policy.wpostProvingPeriod, seed⟩ : QuantSpec).quantizeDown currentEpoch
    asU64 ((currentEpoch - start).tdiv policy.wpostChallengeWindow) =
        ((currentEpoch - start) / policy.wpostChallengeWindow).toNat ∧
      ((currentEpoch - start) / policy.wpostChallengeWindow).toNat < policy.wpostPeriodDeadlines ∧
      0 ≤ (currentEpoch - start) / policy.wpostChallengeWindow := by
  intro start
  obtain ⟨h1, h2, -⟩ := (⟨policy.wpostProvingPeriod, seed⟩ : QuantSpec).quantizeDown_spec
    (wpostProvingPeriod_pos policy hP hD hW) currentEpoch
  dsimp only at h2
  have hgap : 0 ≤ currentEpoch - start := by omega
  have hq := Int.ediv_nonneg hgap hW.le
  have hlt : (currentEpoch - start) / policy.wpostChallengeWindow < policy.wpostPeriodDeadlines := by
    rw [Int.ediv_lt_iff_lt_mul hW, ← hP]
    omega
  have hbound := policy.wpostPeriodDeadlines_lt
  refine ⟨?_, by omega, hq⟩
  rw [asU64, Int.tdiv_eq_ediv_of_nonneg hgap, Int.emod_eq_of_lt hq (by omega)]

/-- The deadline found from the offset: its period starts on the offset's grid
and holds the epoch, and the deadline is open at the epoch. -/
theorem newDeadlineInfoFromOffsetAndEpoch_spec (seed currentEpoch : Int) :
    ((newDeadlineInfoFromOffsetAndEpoch policy seed currentEpoch).periodStart - seed) %
        policy.wpostProvingPeriod = 0 ∧
      (newDeadlineInfoFromOffsetAndEpoch policy seed currentEpoch).periodStart ≤ currentEpoch ∧
      currentEpoch <
        (newDeadlineInfoFromOffsetAndEpoch policy seed currentEpoch).periodStart +
          policy.wpostProvingPeriod ∧
      (newDeadlineInfoFromOffsetAndEpoch policy seed currentEpoch).index <
        policy.wpostPeriodDeadlines ∧
      (newDeadlineInfoFromOffsetAndEpoch policy seed currentEpoch).open ≤ currentEpoch ∧
      currentEpoch < (newDeadlineInfoFromOffsetAndEpoch policy seed currentEpoch).close := by
  obtain ⟨h1, h2, h3⟩ := (⟨policy.wpostProvingPeriod, seed⟩ : QuantSpec).quantizeDown_spec
    (wpostProvingPeriod_pos policy hP hD hW) currentEpoch
  dsimp only at h2 h3
  obtain ⟨hcast, hlt, hq⟩ := deadlineIdx_fromOffset policy hP hD hW seed currentEpoch
  set start := (⟨policy.wpostProvingPeriod, seed⟩ : QuantSpec).quantizeDown currentEpoch
  set idx := ((currentEpoch - start) / policy.wpostChallengeWindow).toNat
  have hunfold : newDeadlineInfoFromOffsetAndEpoch policy seed currentEpoch =
      newDeadlineInfo policy start idx currentEpoch := by
    show newDeadlineInfo policy start
      (asU64 ((currentEpoch - start).tdiv policy.wpostChallengeWindow)) currentEpoch = _
    rw [hcast]
  obtain ⟨-, hstart, hindex, -⟩ := @DeadlineInfo.new_fields start idx currentEpoch
    policy.wpostPeriodDeadlines policy.wpostProvingPeriod policy.wpostChallengeWindow
    policy.wpostChallengeLookback policy.faultDeclarationCutoff
  obtain ⟨hopen, hclose⟩ := @DeadlineInfo.new_open_close start idx currentEpoch
    policy.wpostPeriodDeadlines policy.wpostProvingPeriod policy.wpostChallengeWindow
    policy.wpostChallengeLookback policy.faultDeclarationCutoff hlt
  -- the window count times the window is within one window below the gap
  have hidx : (idx : Int) = (currentEpoch - start) / policy.wpostChallengeWindow :=
    Int.toNat_of_nonneg hq
  have hdiv := Int.mul_ediv_add_emod (currentEpoch - start) policy.wpostChallengeWindow
  have hmod := Int.emod_lt_of_pos (currentEpoch - start) hW
  have hmod0 := Int.emod_nonneg (currentEpoch - start) hW.ne'
  have hcomm : (idx : Int) * policy.wpostChallengeWindow =
      policy.wpostChallengeWindow * ((currentEpoch - start) / policy.wpostChallengeWindow) := by
    rw [hidx, Int.mul_comm]
  rw [hunfold]
  simp only [newDeadlineInfo, hstart, hindex, hopen, hclose]
  exact ⟨h3, h1, h2, hlt, by omega, by omega⟩

end FromOffset

end BuiltinActors.Miner
