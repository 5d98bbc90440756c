import BuiltinActors.Miner.DeadlineState.Inv

/-! # The deadline over runs

The miner changes a deadline's partitions through the deadline's own methods,
one at a time. A step is one successful call of a method the invariant is
proved for. The methods that read sector infos take the sectors AMT from the
caller, and a step asks that it hold the infos of the live sectors, as
`SectorsAgree` says. -/

namespace BuiltinActors.Miner

namespace DeadlineState

variable (sectorSize : Nat) (quant : QuantSpec) (info : Nat → SectorOnChainInfo)

/-- One successful call of `terminate_sectors`, `record_faults`,
`declare_faults_recovered`, `pop_early_terminations` or `pop_expired_sectors`. -/
inductive Step : DeadlineState → DeadlineState → Prop where
  | terminateSectors {d d' : DeadlineState} {sectors : OrdMap Nat SectorOnChainInfo}
      {addressedSectorsMax : Nat} {epoch : Int} {partitionSectors : OrdMap Nat (Finset Nat)}
      {power : PowerPair} (hagree : SectorsAgree sectors info d)
      (h : d.terminateSectors addressedSectorsMax sectors epoch partitionSectors sectorSize quant =
        .ok (d', power)) :
      Step d d'
  | recordFaults {d d' : DeadlineState} {sectors : OrdMap Nat SectorOnChainInfo}
      {faultExpirationEpoch : Int} {partitionSectors : OrdMap Nat (Finset Nat)}
      {powerDelta : PowerPair} (hagree : SectorsAgree sectors info d)
      (h : d.recordFaults sectors sectorSize quant faultExpirationEpoch partitionSectors =
        .ok (d', powerDelta)) :
      Step d d'
  | declareFaultsRecovered {d d' : DeadlineState} {sectors : OrdMap Nat SectorOnChainInfo}
      {partitionSectors : OrdMap Nat (Finset Nat)} (hagree : SectorsAgree sectors info d)
      (h : d.declareFaultsRecovered sectors sectorSize partitionSectors = .ok d') :
      Step d d'
  | popEarlyTerminations {d d' : DeadlineState} {maxPartitions maxSectors : Nat}
      {result : TerminationResult} {hasMore : Bool}
      (h : d.popEarlyTerminations maxPartitions maxSectors = .ok (d', result, hasMore)) :
      Step d d'
  | popExpiredSectors {d d' : DeadlineState} {untilEpoch : Int} {expired : ExpirationSet}
      (h : d.popExpiredSectors untilEpoch quant = .ok (d', expired)) :
      Step d d'

variable {sectorSize quant info}

/-- Every step keeps the deadline invariant. -/
theorem Step.inv {d d' : DeadlineState} (hI : Inv sectorSize quant info d)
    (hstep : Step sectorSize quant info d d') : Inv sectorSize quant info d' := by
  cases hstep with
  | terminateSectors hagree h => exact (hI.terminateSectors hagree h).1
  | recordFaults hagree h => exact (hI.recordFaults hagree h).1
  | declareFaultsRecovered hagree h => exact (hI.declareFaultsRecovered hagree h).1
  | popEarlyTerminations h => exact hI.popEarlyTerminations h
  | popExpiredSectors h => exact hI.popExpiredSectors h

end DeadlineState

end BuiltinActors.Miner
