import FPayNode.CommandProgram
import FPayNode.WorkerPool
import FPayNode.DecimalText
import FPayNode.Totals
import FPayNode.TextLayout
import FPayNode.RedisServer
import FPayNode.RedisCache
import FPayNode.Messages
import FPayNode.CerealJson
import FPayNode.NodeService
import FPayNode.RootTransaction
import FPayNode.BalanceSafety
import FPayNode.LedgerReplay
import FPayNode.TransferAtomicity
import FPayNode.ConcurrentTransfers
import FPayNode.TransactionPool
import FPayNode.BlockCreation
import FPayNode.BlockBuilders
import FPayNode.BlockRounds
import FPayNode.LinkedRecords
import FPayNode.BlockChain
import FPayNode.BlockRetention
import FPayNode.ControlRecords
import FPayNode.Timers
import FPayNode.EventLoop
import FPayNode.BlockBuffers
import FPayNode.UnitStream
import FPayNode.JsonFrames
import FPayNode.FrameDelivery
import FPayNode.SenderFrames
import FPayNode.RequestDispatch
import FPayNode.Exclusion
import FPayNode.BuilderLock
import FPayNode.NodeStartup
import FPayNode.ChainLock
import FPayNode.BalanceReplay
import FPayNode.BlockMemory
import FPayNode.DueTimers
import FPayNode.SenderObjects
import FPayNode.MsgFrames
import FPayNode.BinaryValues
import FPayNode.WorkerRouting
import FPayNode.BinaryStream
import FPayNode.OutputStream
import FPayNode.DottedAddress
import FPayNode.RoutedConnections
import FPayNode.RoutedFrames
import FPayNode.BlockFaults
import FPayNode.BalanceSums
import FPayNode.BlockSync
import FPayNode.ServerAddresses
import FPayNode.ChildNodes
import FPayNode.SessionFrames
import FPayNode.FrameProgress
import FPayNode.PartialWrites
import FPayNode.MultiConnections
import FPayNode.WideStrings
import FPayNode.BufferReserve
import FPayNode.WhiteLists
import FPayNode.TimerHistory
import FPayNode.ConsoleLines
import FPayNode.RedisConnections
import FPayNode.WorkerReaping
import FPayNode.LayeredMachines
import FPayNode.ShardedCache
import FPayNode.ShardedNodes
import FPayNode.RequestJson
import FPayNode.NodeProcess
import FPayNode.LetterDelivery
import FPayNode.Custody
import FPayNode.HandOver
import FPayNode.WorkerRequests
import FPayNode.AnswerDelivery
import FPayNode.AccountLedger
import FPayNode.TransactionHops
import FPayNode.BlockProvenance
import FPayNode.MinerRecords
