import Braid.Library.Transition
import Braid.Library.Counting
import Braid.Library.Framing
import Braid.Message.MessageDispatcher
import Braid.Service.MessageFraming
import Braid.Task.Backlog
import Braid.Task.Calm
import Braid.Task.Charge
import Braid.Task.Delivery
import Braid.Task.OneThread
import Braid.Task.Reentry
import Braid.Memory.ObjectPool
import Braid.Memory.Partition
import Braid.Service.Completions
import Braid.Service.Descriptors
import Braid.Service.SessionPool
import Braid.Library.Line
import Braid.Memory.Growth
import Braid.Service.Flush
import Braid.Service.ReceiveBuffer
import Braid.Service.ReceiveProgress
import Braid.Service.RoundRobin
import Braid.Service.SendOrder
import Braid.Service.Sending
import Braid.Task.KeepAlive
import Braid.Task.Ownership
import Braid.Task.DestroyedOnce
import Braid.Task.Destruction
import Braid.Task.Discipline
import Braid.Message.WriteOverloads
import Braid.Memory.BatchSteal
import Braid.Memory.Exhaustion
import Braid.Service.CloseOrder
import Braid.Service.PushedClose
import Braid.Service.AcceptFailures
import Braid.Service.Refusal
import Braid.Memory.SharedCache
import Braid.Library.Rotation
import Braid.Task.Batches
import Braid.Task.ByValue
import Braid.Memory.Refill
import Braid.Service.Disturbance
import Braid.Service.OwnMessage
import Braid.Memory.Crowd
import Braid.Service.IOPool
import Braid.Service.Streams
import Braid.Library.Text
import Braid.Message.MessageHeader
import Braid.Service.SentMessages
import Braid.Library.Parallel
import Braid.Client.TestClient
import Braid.Client.EndToEnd
import Braid.Library.Refinement
import Braid.Library.Allocation
import Braid.Memory.Allocator
import Braid.Service.OperationMemory
import Braid.Service.Requests
import Braid.Library.Fifo
import Braid.Task.Queueing
import Braid.Util.LogHandler
import Braid.Sample.SampleServer
import Braid.Service.Protocol
import Braid.Service.Latency
import Braid.Service.BufferLifetime
import Braid.Service.ServiceBuilder
