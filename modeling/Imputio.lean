import Imputio.Lib.StableQueue
import Imputio.Lib.Transition
import Imputio.Lib.Broadcast
import Imputio.Lib.Channel
import Imputio.Lib.Pipeline
import Imputio.Lib.Linearizability
import Imputio.Lib.Allocator
import Imputio.EventBus.Bus
import Imputio.EventBus.Delivery
import Imputio.EventBus.Clients
import Imputio.EventBus.Holders
import Imputio.EventBus.Isolation
import Imputio.EventBus.Lifetime
import Imputio.EventBus.Ids
import Imputio.EventBus.Protocol
import Imputio.EventBus.Orphans
import Imputio.EventBus.Replies
import Imputio.EventBus.Answers
import Imputio.EventBus.Linearizable
import Imputio.EventBus.Progress
import Imputio.EventBus.SingleUse
import Imputio.EventBus.Builds
import Imputio.EventBus.Undelivered
import Imputio.EventBus.Recycled
import Imputio.Lib.Slab
import Imputio.Io.Poller
import Imputio.Io.Table
import Imputio.Io.Bookkeeping
import Imputio.Io.Survival
import Imputio.Io.Notify
import Imputio.Io.Routing
import Imputio.Lib.Ledger
import Imputio.Lib.RefCount
import Imputio.Task.Task
import Imputio.Task.Waker
import Imputio.Task.Resources
import Imputio.Task.Blocking
import Imputio.Task.Guard
import Imputio.Executor.Executor
import Imputio.Executor.Order
import Imputio.Executor.Pool
import Imputio.Executor.Fairness
import Imputio.Executor.Conservation
import Imputio.Executor.Memory
import Imputio.Executor.Stranded
import Imputio.Executor.Sequential
import Imputio.Executor.Agreement
import Imputio.Executor.Submitters
import Imputio.Executor.Dispatch
import Imputio.Runtime.Config
import Imputio.Runtime.Runtime
import Imputio.Runtime.Ownership
import Imputio.Runtime.Shutdown
import Imputio.Runtime.Running
import Imputio.Runtime.Completion
import Imputio.Executor.Pollers
import Imputio.Executor.Registration
import Imputio.Executor.Affinity
import Imputio.EventBus.Matchers
import Imputio.Lib.FirstMatch
import Imputio.EventBus.Consumer
import Imputio.EventBus.Interchange
import Imputio.Io.Atomicity
import Imputio.Io.Descriptors
import Imputio.Executor.Handover
import Imputio.Executor.PollerThreads
import Imputio.Executor.Progress
import Imputio.Executor.Handles
import Imputio.Runtime.Draining
import Imputio.Executor.Teardown
import Imputio.Runtime.Pools
import Imputio.Runtime.Coherence
import Imputio.Runtime.Lifting
import Imputio.Runtime.Retired
