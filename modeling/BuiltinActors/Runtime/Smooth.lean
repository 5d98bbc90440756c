import Mathlib.Data.Int.Init

/-! # The alpha-beta filter

The smoothed estimates the reward and power actors keep: a position and a
velocity in Q.128 fixed point, advanced by an alpha-beta filter on each new
observation. Shifts of big integers round towards negative infinity, as
`>>>` on `Int` does. -/

namespace BuiltinActors

/-- Fractional bits of the fixed-point numbers. -/
def precision : Nat := 128

/-- A position and a velocity, both in Q.128. -/
structure FilterEstimate where
  position : Int
  velocity : Int
deriving DecidableEq, Repr

/-- An estimate from a Q.0 position and velocity. -/
def FilterEstimate.new (position velocity : Int) : FilterEstimate :=
  ⟨position <<< precision, velocity <<< precision⟩

/-- The filter gains, in Q.128. -/
def defaultAlpha : Int := 314760000000000000000000000000000000
def defaultBeta : Int := 96640100000000000000000000000000

structure AlphaBetaFilter where
  alpha : Int
  beta : Int
  prevEst : FilterEstimate

def AlphaBetaFilter.load (prevEst : FilterEstimate) (alpha beta : Int) : AlphaBetaFilter :=
  ⟨alpha, beta, prevEst⟩

def AlphaBetaFilter.nextEstimate (f : AlphaBetaFilter) (obs : Int) (epochDelta : Int) :
    FilterEstimate :=
  let deltaT := epochDelta <<< precision
  let deltaX := (deltaT * f.prevEst.velocity) >>> precision
  let position := deltaX + f.prevEst.position
  let obs := obs <<< precision
  let residual := obs - position
  let revisionX := (f.alpha * residual) >>> precision
  let position := position + revisionX
  let revisionV := residual * f.beta
  let revisionV := revisionV.fdiv deltaT
  let velocity := revisionV + f.prevEst.velocity
  ⟨position, velocity⟩

end BuiltinActors
