import BuiltinActors.Lib.Loop
import BuiltinActors.Lib.OrdMap
import BuiltinActors.Lib.MergeJoin
import BuiltinActors.Lib.Run
import BuiltinActors.Miner.Quantize
import BuiltinActors.Miner.Vesting
import BuiltinActors.Miner.Sector
import BuiltinActors.Miner.State
import BuiltinActors.Miner.ExpirationQueue
import BuiltinActors.Lib.Except
import BuiltinActors.Miner.ExpirationQueue.Memo
import BuiltinActors.Miner.ExpirationQueue.Spec
import BuiltinActors.Miner.ExpirationQueue.Inv
import BuiltinActors.Miner.ExpirationQueue.Preserve
import BuiltinActors.Miner.ExpirationQueue.InPlace
import BuiltinActors.Miner.ExpirationQueue.Returns
import BuiltinActors.Miner.ExpirationQueue.Calls
import BuiltinActors.Runtime
import BuiltinActors.Multisig.State
import BuiltinActors.Multisig.Actor
import BuiltinActors.Multisig.Inv
import BuiltinActors.Lib.EStateM
import BuiltinActors.Runtime.Smooth
import BuiltinActors.Power.State
import BuiltinActors.Power.Actor
import BuiltinActors.Power.Inv
import BuiltinActors.Market.Deal
import BuiltinActors.Market.State
import BuiltinActors.Market.Publish
import BuiltinActors.Market.PublishInv
import BuiltinActors.Runtime.Util
import BuiltinActors.Datacap.Token
import BuiltinActors.Verifreg.State
import BuiltinActors.Verifreg.Actor
import BuiltinActors.Verifreg.Spec
import BuiltinActors.Verifreg.Expiry
import BuiltinActors.Miner.VestingTable
import BuiltinActors.Miner.FeeDebt
import BuiltinActors.Miner.DeadlineAssignment
import BuiltinActors.Power.Cron
import BuiltinActors.Lib.BinaryPow
import BuiltinActors.Evm.Uints
import BuiltinActors.Evm.Arithmetic
import BuiltinActors.Evm.Bitwise
import BuiltinActors.Lib.PaddedList
import BuiltinActors.Evm.Memory
import BuiltinActors.Evm.MemorySpec
import BuiltinActors.Evm.System
import BuiltinActors.Evm.Instructions
import BuiltinActors.Evm.StaticMode
import BuiltinActors.Miner.DeadlineInfo
import BuiltinActors.Miner.BitFieldQueue
import BuiltinActors.Evm.Reader
import BuiltinActors.Evm.Modexp
import BuiltinActors.Evm.CallActor
import BuiltinActors.Runtime.BatchReturn
import BuiltinActors.Runtime.MapMapCache
import BuiltinActors.Evm.MemoryPages
import BuiltinActors.Paych.Actor
import BuiltinActors.Paych.Safety
import BuiltinActors.Reward.Logic
import BuiltinActors.Reward.State
import BuiltinActors.Miner.Partition
import BuiltinActors.Miner.Partition.EarlyTerminations
import BuiltinActors.Miner.Partition.Inv
import BuiltinActors.Miner.Partition.Runs
import BuiltinActors.Miner.DeadlineState
import BuiltinActors.Miner.DeadlineState.Inv
import BuiltinActors.Miner.DeadlineState.Runs
