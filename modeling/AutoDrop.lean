import AutoDrop.LabelledRun
import AutoDrop.LengthPrefix
import AutoDrop.RpcTransportCore
import AutoDrop.RpcTransportLoop
import AutoDrop.RpcServer
import AutoDrop.RpcTransportConservation
import AutoDrop.CoMutexCore
import AutoDrop.CoMutexSafety
import AutoDrop.RelayCore
import AutoDrop.RelayTarget
import AutoDrop.TastekCore
import AutoDrop.TastekInterlock
import AutoDrop.DynamicSmCore
import AutoDrop.RunnerCore
import AutoDrop.CoSystemSteps
import AutoDrop.RunnerLocks
import AutoDrop.LuaExclusion
import AutoDrop.RunnerSchedule
import AutoDrop.RunnerTrace
import AutoDrop.EventSc
import AutoDrop.SupervisorCore
import AutoDrop.SupervisorTracking
import AutoDrop.SupervisorBookkeeping
import AutoDrop.SupervisorStop
import AutoDrop.CoMutexWakeups
import AutoDrop.EventLoopCore
import AutoDrop.EventLoopQuiet
import AutoDrop.WakeSourcesCore
import AutoDrop.WakeSourcesInvariant
import AutoDrop.WakeSources
import AutoDrop.CliSplit
import AutoDrop.CliWords
import AutoDrop.CliLines
import AutoDrop.CliConfig
import AutoDrop.CliSession
import AutoDrop.CliImport
import AutoDrop.CliCommands
import AutoDrop.CliClosed
import AutoDrop.CliRunner
import AutoDrop.PartialOrbit
import AutoDrop.TriggerChain
import AutoDrop.FoldRules
import AutoDrop.CliParts
import AutoDrop.CliFolds
import AutoDrop.CliPasses
import AutoDrop.CliIdempotent
import AutoDrop.CliNumbers
import AutoDrop.CliOrdinary
import AutoDrop.CliReplay
import AutoDrop.ReplicaLink
import AutoDrop.DataSync
import AutoDrop.DataSyncReplicas
import AutoDrop.InputMemory
import AutoDrop.RdDriverCore
import AutoDrop.RdDriverStay
import AutoDrop.DevicePairingCore
import AutoDrop.DevicePairing
import AutoDrop.RpcTransportFrames
import AutoDrop.RelayRest
import AutoDrop.RelayScale
import AutoDrop.DetectorCall
import AutoDrop.NodeRegistry
import AutoDrop.TimerSpec
import AutoDrop.RowElimination
import AutoDrop.RelaySeconds
import AutoDrop.TravelTime
import AutoDrop.CliCodec
import AutoDrop.DaemonStart
import AutoDrop.RpcSurvival
import AutoDrop.PrefixCode
import AutoDrop.RedisReply
import AutoDrop.RedisReader
import AutoDrop.RedisPassing
import AutoDrop.DescriptorTable
import AutoDrop.RedisSubscriber
import AutoDrop.EventLoopOwners
import AutoDrop.TcpConnections
import AutoDrop.CloudSnapshot
import AutoDrop.SgFilterCore
import AutoDrop.SgFilterLaw
import AutoDrop.EventLoopDispatch
import AutoDrop.TimerStop
import AutoDrop.WakeSourcesHandlers
import AutoDrop.YieldAlarms
import AutoDrop.WakeSourcesLoop
import AutoDrop.YieldWait
import AutoDrop.YieldRace
import AutoDrop.RunningExtremum
import AutoDrop.SgFilterSolve
import AutoDrop.CloudPickup
import AutoDrop.EdgeHeight
import AutoDrop.Latch
import AutoDrop.RdDriverLatch
import AutoDrop.OutputCloud
import AutoDrop.YamlWriter
import AutoDrop.CStrings
import AutoDrop.LuaStack
import AutoDrop.LogText
import AutoDrop.DailyLog
import AutoDrop.FileTree
import AutoDrop.FailureLatch
import AutoDrop.TastekError
import AutoDrop.ConsoleScheduler
import AutoDrop.FilterHull
import AutoDrop.RedisConnect
import AutoDrop.ConsoleTerminal
import AutoDrop.CliCompletion
import AutoDrop.ConsoleHistory
import AutoDrop.ConsoleInput
import AutoDrop.ConsoleKeyboard
import AutoDrop.CjsonCore
import AutoDrop.CjsonRoundTrip
import AutoDrop.StateReport
import AutoDrop.CloudBuffers
import AutoDrop.FullCloud
import AutoDrop.GapChain
import AutoDrop.KeySegment
import AutoDrop.HttpChunks
import AutoDrop.KeyedGroups
import AutoDrop.LidarDecoder
import AutoDrop.LidarTurns
import AutoDrop.Base64
import AutoDrop.PcdShow
import AutoDrop.IniLines
import AutoDrop.TastekStart
import AutoDrop.ModbusDriver
