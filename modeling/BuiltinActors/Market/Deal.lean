import Mathlib.Data.Int.ConditionallyCompleteOrder
import BuiltinActors.Runtime
import BuiltinActors.Miner.Quantize

/-! # Storage deals

A deal proposal, the bounds the market holds it to, and the verified
allocation a verified deal asks for. A proposal is generic in the address
type of its two parties: a client signs it with whatever addresses it likes,
and the market stores it with both parties replaced by their ID addresses.
Token amounts and epochs are unbounded integers; a piece size is the 64-bit
integer of the source. -/

namespace BuiltinActors.Market

def filCommitmentUnsealed : Nat := 0xf101
def sha256Trunc254Padded : Nat := 0x1012

def isPieceCid (c : Cid) : Bool :=
  c.version == 1 && c.codec == filCommitmentUnsealed && c.hashCode == sha256Trunc254Padded &&
    c.digest.length == 32

inductive Label
  | string (s : String)
  | bytes (b : List UInt8)
deriving DecidableEq, Repr

/-- A label's length in bytes. -/
def Label.len : Label → Nat
  | .string s => s.utf8ByteSize
  | .bytes b => b.length

/-- A padded piece size is a power of two of at least 128 bytes
(`PaddedPieceSize::validate` of the shared types). -/
def validatePaddedPieceSize (size : UInt64) : Except String Unit :=
  if size < 128 then .error "minimum piece size is 128 bytes"
  else if size &&& (size - 1) != 0 then .error "padded piece size must be a power of 2"
  else .ok ()

theorem validatePaddedPieceSize_ok {size : UInt64} {u : Unit}
    (h : validatePaddedPieceSize size = .ok u) : 128 ≤ size.toNat := by
  unfold validatePaddedPieceSize at h
  split_ifs at h with hlt
  rw [UInt64.lt_iff_toNat_lt] at hlt
  simpa using hlt

structure DealProposal (α : Type) where
  pieceCid : Cid
  pieceSize : UInt64
  verifiedDeal : Bool
  client : α
  provider : α
  label : Label
  startEpoch : Int
  endEpoch : Int
  storagePricePerEpoch : Int
  providerCollateral : Int
  clientCollateral : Int
deriving DecidableEq, Repr

namespace DealProposal

variable {α : Type}

def duration (p : DealProposal α) : Int := p.endEpoch - p.startEpoch

/-- The price of every epoch of the deal; `duration as u64` reads the
duration's two's complement bits unsigned. -/
def totalStorageFee (p : DealProposal α) : Int := p.storagePricePerEpoch * (p.duration % 2 ^ 64)

def clientBalanceRequirement (p : DealProposal α) : Int := p.clientCollateral + p.totalStorageFee

def providerBalanceRequirement (p : DealProposal α) : Int := p.providerCollateral

/-- The proposal with its two parties replaced, as the market normalises a
proposal to ID addresses before it takes its CID. -/
def withParties {β : Type} (p : DealProposal α) (client provider : β) : DealProposal β where
  pieceCid := p.pieceCid
  pieceSize := p.pieceSize
  verifiedDeal := p.verifiedDeal
  client := client
  provider := provider
  label := p.label
  startEpoch := p.startEpoch
  endEpoch := p.endEpoch
  storagePricePerEpoch := p.storagePricePerEpoch
  providerCollateral := p.providerCollateral
  clientCollateral := p.clientCollateral

@[simp] theorem withParties_client {β : Type} (p : DealProposal α) (c q : β) :
    (p.withParties c q).client = c := rfl

@[simp] theorem withParties_provider {β : Type} (p : DealProposal α) (c q : β) :
    (p.withParties c q).provider = q := rfl

@[simp] theorem withParties_clientBalanceRequirement {β : Type} (p : DealProposal α) (c q : β) :
    (p.withParties c q).clientBalanceRequirement = p.clientBalanceRequirement := rfl

@[simp] theorem withParties_providerCollateral {β : Type} (p : DealProposal α) (c q : β) :
    (p.withParties c q).providerCollateral = p.providerCollateral := rfl

/-- A positive duration below `2 ^ 64` is paid epoch by epoch, so a deal
with a non-negative price and collateral asks a non-negative amount of its
client. -/
theorem clientBalanceRequirement_nonneg {p : DealProposal α} (hd : 0 ≤ p.duration)
    (hd' : p.duration < 2 ^ 64) (hprice : 0 ≤ p.storagePricePerEpoch)
    (hcoll : 0 ≤ p.clientCollateral) : 0 ≤ p.clientBalanceRequirement := by
  have hmod : p.duration % 2 ^ 64 = p.duration := Int.emod_eq_of_lt hd hd'
  unfold clientBalanceRequirement totalStorageFee
  rw [hmod]
  have := Int.mul_nonneg hprice hd
  omega

end DealProposal

structure ClientDealProposal (α : Type) where
  proposal : DealProposal α
  clientSignature : List UInt8
deriving DecidableEq, Repr

/-- A deal's progress once its sector is proven; `-1` marks an epoch not
reached yet. -/
structure DealState where
  sectorNumber : Nat
  sectorStartEpoch : Int
  lastUpdatedEpoch : Int
  slashEpoch : Int
deriving DecidableEq, Repr

/-! ## Policy -/

/-- The network policy values the market reads. -/
structure Policy where
  dealUpdatesInterval : Int
  provCollateralPercentSupplyNum : Int
  provCollateralPercentSupplyDenom : Int
  marketDefaultAllocationTermBuffer : Int
  maximumVerifiedAllocationTerm : Int
  maximumVerifiedAllocationExpiration : Int

/-- The main network's policy. -/
def Policy.default : Policy where
  dealUpdatesInterval := 30 * epochsInDay
  provCollateralPercentSupplyNum := 1
  provCollateralPercentSupplyDenom := 100
  marketDefaultAllocationTermBuffer := 90 * epochsInDay
  maximumVerifiedAllocationTerm := 5 * epochsInYear
  maximumVerifiedAllocationExpiration := 60 * epochsInDay

def dealMaxLabelSize : Nat := 256

/-- Total (assumed) Filecoin available to the network, the bound on deal
prices and collaterals. -/
def totalFilecoin : Int := fromWhole 2000000000

def dealDurationBounds (_size : UInt64) : Int × Int := (180 * epochsInDay, 1278 * epochsInDay)

def dealPricePerEpochBounds (_size : UInt64) (_duration : Int) : Int × Int := (0, totalFilecoin)

/-- The provider's collateral must be at least its deal's share of the
network's power, applied to the targeted share of the circulating supply.
The floor division is the source's `div_floor`. -/
def dealProviderCollateralBounds (policy : Policy) (size : UInt64)
    (networkRawPower baselinePower networkCirculatingSupply : Int) : Int × Int :=
  let lockTargetNum := networkCirculatingSupply * policy.provCollateralPercentSupplyNum
  let powerShareNum : Int := size.toNat
  let powerShareDenom := max (max networkRawPower baselinePower) powerShareNum
  let num := powerShareNum * lockTargetNum
  let denom := powerShareDenom * policy.provCollateralPercentSupplyDenom
  (num.fdiv denom, totalFilecoin)

def dealClientCollateralBounds (_size : UInt64) (_duration : Int) : Int × Int := (0, totalFilecoin)

/-- With a non-negative supply and policy numerator and a positive policy
denominator, the minimum provider collateral is not negative: the power
share's denominator is at least the piece size. -/
theorem dealProviderCollateralBounds_nonneg {policy : Policy} {size : UInt64}
    {networkRawPower baselinePower supply : Int} (hsize : 0 < size.toNat) (hsupply : 0 ≤ supply)
    (hnum : 0 ≤ policy.provCollateralPercentSupplyNum)
    (hden : 0 < policy.provCollateralPercentSupplyDenom) :
    0 ≤ (dealProviderCollateralBounds policy size networkRawPower baselinePower supply).1 := by
  have hshare : (0 : Int) < max (max networkRawPower baselinePower) (size.toNat : Int) := by
    have : (0 : Int) < size.toNat := by exact_mod_cast hsize
    omega
  apply Int.fdiv_nonneg
  · exact Int.mul_nonneg (Int.natCast_nonneg _) (Int.mul_nonneg hsupply hnum)
  · exact Int.le_of_lt (Int.mul_pos hshare hden)

/-! ## Scheduling and verified allocations -/

/-- The first epoch no sooner than `earliest` at which the deal `id` is
processed: each ID has a fixed offset within every `interval` epochs. The
divisions truncate, as the source's do. -/
def nextUpdateEpoch (id : Nat) (interval earliest : Int) : Int :=
  let offset := (id : Int).tmod interval
  let remainder := (earliest - offset).tmod interval
  let quotient := (earliest - offset).tdiv interval
  if remainder = 0 || earliest - offset < 0 then interval * quotient + offset
  else interval * (quotient + 1) + offset

/-- The market's copy of the miner's rounding: a deal is scheduled on the
grid of its ID. -/
theorem nextUpdateEpoch_eq_quantizeUp (id : Nat) (interval earliest : Int) :
    nextUpdateEpoch id interval earliest = (⟨interval, id⟩ : Miner.QuantSpec).quantizeUp earliest := by
  simp only [nextUpdateEpoch, Miner.QuantSpec.quantizeUp, Bool.or_eq_true, decide_eq_true_eq]

theorem quantization_laws :
    (∀ (q : Miner.QuantSpec), 1 ≤ q.unit → ∀ e : Int,
      (e ≤ q.quantizeUp e ∧ (q.quantizeUp e - q.offset) % q.unit = 0 ∧
        ∀ g, e ≤ g → (g - q.offset) % q.unit = 0 → q.quantizeUp e ≤ g) ∧
      (q.quantizeDown e ≤ e ∧ (q.quantizeDown e - q.offset) % q.unit = 0 ∧
        ∀ g, g ≤ e → (g - q.offset) % q.unit = 0 → g ≤ q.quantizeDown e) ∧
      q.quantizeUp (q.quantizeUp e) = q.quantizeUp e ∧
      q.quantizeDown (q.quantizeDown e) = q.quantizeDown e ∧
      q.quantizeUp (q.quantizeDown e) = q.quantizeDown e) ∧
    (∀ q : Miner.QuantSpec, 1 ≤ q.unit → Monotone q.quantizeUp ∧ Monotone q.quantizeDown) ∧
    ∀ (id : Nat) (interval earliest : Int),
      nextUpdateEpoch id interval earliest = (⟨interval, id⟩ : Miner.QuantSpec).quantizeUp earliest := by
  refine ⟨fun q hu e => ?_, fun q hu => ?_, nextUpdateEpoch_eq_quantizeUp⟩
  · have hu : 0 < q.unit := hu
    obtain ⟨hup, -, hupMod⟩ := q.quantizeUp_spec hu e
    obtain ⟨hdown, -, hdownMod⟩ := q.quantizeDown_spec hu e
    exact ⟨⟨hup, hupMod, fun g => q.quantizeUp_le hu⟩, ⟨hdown, hdownMod, fun g => q.le_quantizeDown hu⟩,
      q.quantizeUp_idem e, q.quantizeDown_idem hu e, q.quantizeUp_quantizeDown hu e⟩
  · have hu : 0 < q.unit := hu
    exact ⟨fun e e' h => q.quantizeUp_mono hu h, fun e e' h => q.quantizeDown_mono hu h⟩

/-- The laws on the grid of unit 4 and offset 1, below zero. -/
theorem quantization_laws_negative :
    (1 ≤ (⟨4, 1⟩ : Miner.QuantSpec).unit ∧
      (⟨4, 1⟩ : Miner.QuantSpec).quantizeUp (-6) = -3 ∧ (⟨4, 1⟩ : Miner.QuantSpec).quantizeDown (-6) = -7) ∧
    (-6 ≤ (⟨4, 1⟩ : Miner.QuantSpec).quantizeUp (-6) ∧
      (⟨4, 1⟩ : Miner.QuantSpec).quantizeDown (-6) ≤ -6) :=
  ⟨⟨by decide, by decide, by decide⟩, (quantization_laws.1 ⟨4, 1⟩ (by decide) (-6)).1.1,
    (quantization_laws.1 ⟨4, 1⟩ (by decide) (-6)).2.1.1⟩

structure AllocationRequest where
  provider : Nat
  data : Cid
  size : UInt64
  termMin : Int
  termMax : Int
  expiration : Int
deriving DecidableEq, Repr

/-- The allocation a verified deal asks of the registry: its whole duration
at least, the policy's buffer more at most, and made before the deal starts. -/
def allocRequestForDeal (deal : DealProposal Address) (policy : Policy) (currEpoch : Int) :
    AllocationRequest :=
  let allocTermMin := deal.endEpoch - deal.startEpoch
  let allocTermMax := min (allocTermMin + policy.marketDefaultAllocationTermBuffer)
    policy.maximumVerifiedAllocationTerm
  let allocExpiration := min deal.startEpoch (currEpoch + policy.maximumVerifiedAllocationExpiration)
  { provider := deal.provider.id, data := deal.pieceCid, size := deal.pieceSize,
    termMin := allocTermMin, termMax := allocTermMax, expiration := allocExpiration }

end BuiltinActors.Market
