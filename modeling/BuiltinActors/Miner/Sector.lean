import Mathlib.Algebra.BigOperators.Group.Finset.Basic
import Mathlib.Algebra.Group.InjSurj
import Mathlib.Tactic.Ring

/-! # Sectors and their power

The on-chain records of pre-committed and proven sectors, keeping the fields
that the modelled functions read, and the power a sector contributes.

Sector sizes are byte counts: the size enumeration lives outside the actors
and only its byte value is ever used. Token amounts, weights and powers are
unbounded integers as in the source (`BigInt`). -/

namespace BuiltinActors.Miner

/-- A pair of raw and quality-adjusted power. -/
structure PowerPair where
  raw : Int
  qa : Int
deriving DecidableEq, Repr

namespace PowerPair

instance : Zero PowerPair := ⟨⟨0, 0⟩⟩
instance : Add PowerPair := ⟨fun a b => ⟨a.raw + b.raw, a.qa + b.qa⟩⟩
instance : Neg PowerPair := ⟨fun a => ⟨-a.raw, -a.qa⟩⟩
instance : Sub PowerPair := ⟨fun a b => ⟨a.raw - b.raw, a.qa - b.qa⟩⟩
instance : SMul Nat PowerPair := ⟨fun k a => ⟨k * a.raw, k * a.qa⟩⟩
instance : SMul Int PowerPair := ⟨fun k a => ⟨k * a.raw, k * a.qa⟩⟩

def isZero (p : PowerPair) : Bool := p.raw == 0 && p.qa == 0

@[simp] theorem zero_raw : (0 : PowerPair).raw = 0 := rfl
@[simp] theorem zero_qa : (0 : PowerPair).qa = 0 := rfl
@[simp] theorem add_raw (a b : PowerPair) : (a + b).raw = a.raw + b.raw := rfl
@[simp] theorem add_qa (a b : PowerPair) : (a + b).qa = a.qa + b.qa := rfl
@[simp] theorem sub_raw (a b : PowerPair) : (a - b).raw = a.raw - b.raw := rfl
@[simp] theorem sub_qa (a b : PowerPair) : (a - b).qa = a.qa - b.qa := rfl
@[simp] theorem neg_raw (a : PowerPair) : (-a).raw = -a.raw := rfl
@[simp] theorem neg_qa (a : PowerPair) : (-a).qa = -a.qa := rfl

def toProd (p : PowerPair) : Int × Int := (p.raw, p.qa)

theorem toProd_injective : Function.Injective toProd := by
  rintro ⟨a, b⟩ ⟨c, d⟩ h
  simp only [toProd, Prod.mk.injEq] at h
  rcases h with ⟨rfl, rfl⟩
  rfl

/-- Power pairs add componentwise. -/
instance : AddCommGroup PowerPair :=
  toProd_injective.addCommGroup toProd rfl (fun _ _ => rfl) (fun _ => rfl) (fun _ _ => rfl)
    (fun _ _ => rfl) (fun _ _ => rfl)

theorem isZero_iff (p : PowerPair) : p.isZero = true ↔ p = 0 := by
  rcases p with ⟨r, q⟩
  simp only [isZero, Bool.and_eq_true, beq_iff_eq]
  constructor
  · rintro ⟨rfl, rfl⟩
    rfl
  · intro h
    cases h
    exact ⟨rfl, rfl⟩

end PowerPair

/-- The seal proof types, by the names the miner's policy gives them; any
other code is invalid. -/
inductive RegisteredSealProof
  | stackedDRG2KiBV1 | stackedDRG8MiBV1 | stackedDRG512MiBV1 | stackedDRG32GiBV1
  | stackedDRG64GiBV1
  | stackedDRG2KiBV1P1 | stackedDRG8MiBV1P1 | stackedDRG512MiBV1P1 | stackedDRG32GiBV1P1
  | stackedDRG64GiBV1P1
  | stackedDRG2KiBV1P1FeatSyntheticPoRep | stackedDRG8MiBV1P1FeatSyntheticPoRep
  | stackedDRG512MiBV1P1FeatSyntheticPoRep | stackedDRG32GiBV1P1FeatSyntheticPoRep
  | stackedDRG64GiBV1P1FeatSyntheticPoRep
  | stackedDRG2KiBV1P2FeatNiPoRep | stackedDRG8MiBV1P2FeatNiPoRep
  | stackedDRG512MiBV1P2FeatNiPoRep | stackedDRG32GiBV1P2FeatNiPoRep
  | stackedDRG64GiBV1P2FeatNiPoRep
  | invalid (code : Int)
deriving DecidableEq, Repr

/-- The fields of a pre-commitment that the modelled functions read. -/
structure SectorPreCommitInfo where
  sealProof : RegisteredSealProof
  sectorNumber : Nat
  expiration : Int
deriving DecidableEq, Repr

/-- Information stored on-chain for a pre-committed sector. -/
structure SectorPreCommitOnChainInfo where
  info : SectorPreCommitInfo
  preCommitDeposit : Int
  preCommitEpoch : Int
deriving DecidableEq, Repr

/-- Information stored on-chain for a proven sector. -/
structure SectorOnChainInfo where
  sectorNumber : Nat
  activation : Int
  expiration : Int
  verifiedDealWeight : Int
  initialPledge : Int
  powerBaseEpoch : Int
  dailyFee : Int
deriving DecidableEq, Repr, Inhabited

/-! ## Quality-adjusted power -/

def sectorQualityPrecision : Nat := 20
def qualityBaseMultiplier : Int := 10
def verifiedDealWeightMultiplier : Int := 100

/-- The quality of a sector, a weighted average of the base and verified
multipliers, scaled up by `2 ^ sectorQualityPrecision`. The shifts of the
source are multiplication and floor division by that power. -/
def qualityForWeight (size : Nat) (duration verifiedWeight : Int) : Int :=
  let sectorSpaceTime := (size : Int) * duration
  let weightedBaseSpaceTime := (sectorSpaceTime - verifiedWeight) * qualityBaseMultiplier
  let weightedVerifiedSpaceTime := verifiedWeight * verifiedDealWeightMultiplier
  let weightedSumSpaceTime := weightedBaseSpaceTime + weightedVerifiedSpaceTime
  let scaledUpWeightedSumSpaceTime := weightedSumSpaceTime * 2 ^ sectorQualityPrecision
  (scaledUpWeightedSumSpaceTime.fdiv sectorSpaceTime).fdiv qualityBaseMultiplier

def qaPowerForWeight (size : Nat) (duration verifiedWeight : Int) : Int :=
  ((size : Int) * qualityForWeight size duration verifiedWeight).fdiv (2 ^ sectorQualityPrecision)

def qaPowerForSector (size : Nat) (sector : SectorOnChainInfo) : Int :=
  qaPowerForWeight size (sector.expiration - sector.powerBaseEpoch) sector.verifiedDealWeight

def powerForSector (sectorSize : Nat) (sector : SectorOnChainInfo) : PowerPair :=
  ⟨sectorSize, qaPowerForSector sectorSize sector⟩

/-- The source counts raw power as size times count rather than adding. -/
def powerForSectors (sectorSize : Nat) (sectors : List SectorOnChainInfo) : PowerPair :=
  ⟨(sectorSize : Int) * sectors.length, (sectors.map (qaPowerForSector sectorSize)).sum⟩

def dailyFeeForSectors (sectors : List SectorOnChainInfo) : Int :=
  (sectors.map SectorOnChainInfo.dailyFee).sum

/-- Counting raw power by size and count agrees with adding sector by sector. -/
theorem powerForSectors_eq_sum (sectorSize : Nat) (sectors : List SectorOnChainInfo) :
    powerForSectors sectorSize sectors = (sectors.map (powerForSector sectorSize)).sum := by
  induction sectors with
  | nil => rfl
  | cons s rest ih =>
    rw [List.map_cons, List.sum_cons, ← ih]
    simp only [powerForSectors, powerForSector, List.length_cons, List.map_cons, List.sum_cons]
    congr 1
    rw [Int.natCast_add]
    ring

end BuiltinActors.Miner
