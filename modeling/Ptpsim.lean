import Ptpsim.Primitives.ChunkFrame
import Ptpsim.Primitives.NikonLssExchange
import Ptpsim.Primitives.Reframe
import Ptpsim.Sim.QueueRun
import Ptpsim.Sim.FaultRun
import Ptpsim.Sim.DetectedMode
import Ptpsim.Service.ControlRequest
import Ptpsim.Executor.FrameExchange
import Ptpsim.Executor.ReplyStream
import Ptpsim.Service.ConnectionLifecycles
import Ptpsim.Sim.ObjectVisibility
import Ptpsim.Sim.Valueless
import Ptpsim.Sim.SettleCounts
import Ptpsim.Sim.ChannelGates
import Ptpsim.Sim.GateLists
import Ptpsim.Executor.Attempts
import Ptpsim.Executor.ActivityRuns
import Ptpsim.Executor.LoopRuns
import Ptpsim.Executor.StreamedTransfer
import Ptpsim.Sim.AuxDescriptors
import Ptpsim.Config.Trace
import Ptpsim.Store.Scan
import Ptpsim.Executor.Pcss
import Ptpsim.Sim.ShutterSequence
import Ptpsim.Sim.ObjectSizes
import Ptpsim.Sim.DeclaredIntegers
import Ptpsim.Executor.RuntimeValues
import Ptpsim.Executor.ChunkLoops
import Ptpsim.Primitives.ClientIdentity
import Ptpsim.Config.Version
import Ptpsim.Config.Layers
import Ptpsim.Initiator.StreamTrace
import Ptpsim.Config.Conflicts
