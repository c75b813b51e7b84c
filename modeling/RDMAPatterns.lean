import RDMAPatterns.Transition.Runs
import RDMAPatterns.Extents.Recut
import RDMAPatterns.Memory.FreeList
import RDMAPatterns.Memory.Safety
import RDMAPatterns.Memory.Conservation
import RDMAPatterns.Memory.Service
import RDMAPatterns.Extents.Coalesced
import RDMAPatterns.Memory.Coalescing
import RDMAPatterns.Memory.FirstFit
import RDMAPatterns.Verbs.SendQueue
import RDMAPatterns.Verbs.Signaling
import RDMAPatterns.Verbs.Unreclaimed
import RDMAPatterns.Verbs.SendCalls
import RDMAPatterns.Verbs.Accounting
import RDMAPatterns.Verbs.AtomicDepth
import RDMAPatterns.Verbs.Executed
import RDMAPatterns.Verbs.OwnCompletion
import RDMAPatterns.Verbs.Batches
import RDMAPatterns.Connection.QueuePairs
import RDMAPatterns.Connection.Connect
import RDMAPatterns.Connection.Link
import RDMAPatterns.Connection.LinkSteps
import RDMAPatterns.Connection.Usable
import RDMAPatterns.Connection.Handshake
import RDMAPatterns.Connection.Network
import RDMAPatterns.Connection.ConnectResult
import RDMAPatterns.Verbs.SharedReceive
import RDMAPatterns.Sequencer.NodeIDs
import RDMAPatterns.Journal.Growing
import RDMAPatterns.Journal.Window
import RDMAPatterns.RPC.RPCMemory
import RDMAPatterns.RPC.Lockstep
import RDMAPatterns.Sequencer.Registry
import RDMAPatterns.Sequencer.ReceiverInformation
import RDMAPatterns.Benchmark.Messages
import RDMAPatterns.Benchmark.Receiver
import RDMAPatterns.Benchmark.Inbox
import RDMAPatterns.Benchmark.Sender
import RDMAPatterns.Benchmark.System
import RDMAPatterns.Benchmark.ClosedLoop
import RDMAPatterns.Benchmark.Counting
import RDMAPatterns.Benchmark.PostedReceives
import RDMAPatterns.Benchmark.Dispatcher
import RDMAPatterns.Benchmark.DispatcherHandshake
import RDMAPatterns.Benchmark.ExactlyOnce
import RDMAPatterns.Benchmark.Partition
import RDMAPatterns.Benchmark.ResponseRanges
import RDMAPatterns.Benchmark.StartUp
import RDMAPatterns.Benchmark.Reports
import RDMAPatterns.Benchmark.PostedForReports
import RDMAPatterns.Benchmark.Replies
import RDMAPatterns.Benchmark.InitHandshake
import RDMAPatterns.Benchmark.ReceivesExhausted
import RDMAPatterns.Journal.Ring
import RDMAPatterns.Bits.Spread
import RDMAPatterns.Benchmark.PowerOfTwo
import RDMAPatterns.Benchmark.CircBuf
import RDMAPatterns.Benchmark.DrawnSlots
import RDMAPatterns.Sequencer.Discovery
import RDMAPatterns.Memory.LocalAlloc
import RDMAPatterns.Verbs.PollReceiveSRQ
import RDMAPatterns.Concurrency.Barrier
import RDMAPatterns.Concurrency.LifeCycle
import RDMAPatterns.Concurrency.Restart
import RDMAPatterns.Ownership.Claims
import RDMAPatterns.Memory.RemoteAlloc
import RDMAPatterns.Accesses.Footprints
import RDMAPatterns.Bytes.Words
import RDMAPatterns.Verbs.OneSided
import RDMAPatterns.Memory.Isolation
import RDMAPatterns.Verbs.Atomics
import RDMAPatterns.Sequencer.Identities
import RDMAPatterns.Benchmark.Responses
import RDMAPatterns.Transition.Progress
import RDMAPatterns.Benchmark.Completion
import RDMAPatterns.Lifetimes.Objects
import RDMAPatterns.Calls.Outcomes
import RDMAPatterns.Lifetimes.Keepers
import RDMAPatterns.Verbs.VerbObjects
import RDMAPatterns.Verbs.Wiring
import RDMAPatterns.Verbs.OrderlyRuns
import RDMAPatterns.Verbs.Teardown
import RDMAPatterns.Verbs.DatagramObjects
import RDMAPatterns.Verbs.DatagramGroups
import RDMAPatterns.Verbs.DatagramTeardown
import RDMAPatterns.Benchmark.DispatcherCompletion
import RDMAPatterns.Concurrency.BarrierProgress
import RDMAPatterns.Benchmark.HandshakeSteps
import RDMAPatterns.Benchmark.Phases
