import NodeCpp.Theorems.Outbound
import NodeCpp.Theorems.Inbound
import NodeCpp.Theorems.Polled
import NodeCpp.Theorems.Closing
import NodeCpp.Theorems.CloseEvents
import NodeCpp.Theorems.SlotIdentity
import NodeCpp.Theorems.Descriptors
import NodeCpp.Theorems.ServerStates
import NodeCpp.Theorems.Accepted
import NodeCpp.Theorems.Agents
import NodeCpp.Theorems.LoadAccounting
import NodeCpp.Theorems.PollPass
import NodeCpp.Theorems.LoopExit
import NodeCpp.Theorems.Awaiting
import NodeCpp.Theorems.CoroFailure
import NodeCpp.Theorems.CoroResume
import NodeCpp.Theorems.CoroWrite
import NodeCpp.Theorems.TimerDelay
import NodeCpp.Theorems.TimerHandles
import NodeCpp.Theorems.Inmediates
import NodeCpp.Theorems.Emitters
import NodeCpp.Theorems.RequestFraming
import NodeCpp.Theorems.RequestWindow
import NodeCpp.Theorems.RequestDelivery
import NodeCpp.Theorems.BoundedQueue
import NodeCpp.Theorems.AwakerProtocol
import NodeCpp.Theorems.CyclicBlocking
import NodeCpp.Theorems.Incarnations
import NodeCpp.Theorems.WorkerRequests
import NodeCpp.Theorems.RingFifo
import NodeCpp.Theorems.ReadEvents
import NodeCpp.Theorems.CoroRelease
import NodeCpp.Theorems.ServerEvents
import NodeCpp.Theorems.Acquisition
import NodeCpp.Theorems.TableSize
import NodeCpp.Theorems.RingLimits
import NodeCpp.Theorems.FrameParts
import NodeCpp.Theorems.LogBounds
import NodeCpp.Theorems.QuerySplit
import NodeCpp.Theorems.HeaderBlock
import NodeCpp.Theorems.RequestLine
import NodeCpp.Theorems.Persistence
import NodeCpp.Theorems.Serialisation
import NodeCpp.Net.MultiOwner
import NodeCpp.JsCompat.JSString
import NodeCpp.Cluster.QueueWait
import NodeCpp.Theorems.WorkerChoice
import NodeCpp.Cluster.MsgPointer
import NodeCpp.Cluster.ListenerLoop
import NodeCpp.Buffer.Blocks
import NodeCpp.Net.HandlerStorage
import NodeCpp.JsCompat.LooseEquality
import NodeCpp.JsCompat.Split
import NodeCpp.Cluster.RingWords
