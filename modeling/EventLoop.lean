import EventLoop.Address.Digits
import EventLoop.Address.Endpoint
import EventLoop.Address.IPv4
import EventLoop.Address.IPv6
import EventLoop.Address.Network
import EventLoop.Address.Scope
import EventLoop.Bench.Basic
import EventLoop.Bench.Channels
import EventLoop.Bench.Descriptors
import EventLoop.Bench.Leaf
import EventLoop.Bench.Pollers
import EventLoop.Bench.Producers
import EventLoop.Bench.React
import EventLoop.Bench.Resource
import EventLoop.Bench.Roots
import EventLoop.Bench.Streams
import EventLoop.Bench.Systems
import EventLoop.Bench.Transports
import EventLoop.Capacity
import EventLoop.Channel.Basic
import EventLoop.Channel.Broadcast
import EventLoop.Channel.Table
import EventLoop.Counter
import EventLoop.Errno
import EventLoop.Evented
import EventLoop.Failure
import EventLoop.Host.Basic
import EventLoop.Host.Mask
import EventLoop.Host.Multiplexer
import EventLoop.Host.Network
import EventLoop.Host.Sockets
import EventLoop.Log.Journal
import EventLoop.Log.Level
import EventLoop.Log.Panic
import EventLoop.Log.Sink
import EventLoop.Net.Listener
import EventLoop.Net.Socket
import EventLoop.Net.Stream
import EventLoop.Notifier
import EventLoop.Path
import EventLoop.Poller
import EventLoop.Producer
import EventLoop.Proofs.Address.Writing
import EventLoop.Proofs.Channel.Basic
import EventLoop.Proofs.Channel.Delivery
import EventLoop.Proofs.Channel.Exchange
import EventLoop.Proofs.Channel.Fanout
import EventLoop.Proofs.Channel.Publishing
import EventLoop.Proofs.Channel.Rendezvous
import EventLoop.Proofs.Evented.Interest
import EventLoop.Proofs.Evented.Ownership
import EventLoop.Proofs.Evented.Rack
import EventLoop.Proofs.Evented.Rewatching
import EventLoop.Proofs.Evented.Waking
import EventLoop.Proofs.Host.Backlog
import EventLoop.Proofs.Host.Confinement
import EventLoop.Proofs.Host.Counting
import EventLoop.Proofs.Host.Descriptors
import EventLoop.Proofs.Host.Streams
import EventLoop.Proofs.Host.Waiting
import EventLoop.Proofs.Net.Admission
import EventLoop.Proofs.Net.Conversation
import EventLoop.Proofs.Net.Dialling
import EventLoop.Proofs.Net.Naming
import EventLoop.Proofs.Net.SocketFiles
import EventLoop.Proofs.Producer.Bell
import EventLoop.Proofs.Registration.Rollback
import EventLoop.Proofs.Registration.Table
import EventLoop.Proofs.Registration.Tenancy
import EventLoop.Proofs.Registration.Upkeep
import EventLoop.Proofs.Registration.Watching
import EventLoop.Proofs.Sessions.Attempts
import EventLoop.Proofs.Sessions.Keys
import EventLoop.Proofs.Sessions.Refused
import EventLoop.Proofs.Sessions.Trying
import EventLoop.Proofs.Slab.Claiming
import EventLoop.Proofs.Slab.FiniteMap
import EventLoop.Proofs.Slab.Issue
import EventLoop.Proofs.Slab.Peak
import EventLoop.Proofs.Slab.Reuse
import EventLoop.Proofs.Slab.View
import EventLoop.Proofs.Slab.WellFormed
import EventLoop.Proofs.Slab.Withdrawal
import EventLoop.Proofs.System.Batch
import EventLoop.Proofs.System.Calls
import EventLoop.Proofs.System.Chronicle
import EventLoop.Proofs.System.Stopping
import EventLoop.Proofs.System.Worker
import EventLoop.Proofs.Tree.Blend
import EventLoop.Proofs.Tree.Both
import EventLoop.Proofs.Tree.Composition
import EventLoop.Proofs.Tree.Conduct
import EventLoop.Proofs.Tree.Conservation
import EventLoop.Proofs.Tree.Draining
import EventLoop.Proofs.Tree.Either
import EventLoop.Proofs.Tree.Fleet
import EventLoop.Proofs.Tree.Frame
import EventLoop.Proofs.Tree.Grafting
import EventLoop.Proofs.Tree.Redriving
import EventLoop.Proofs.Tree.Stages
import EventLoop.Proofs.Tree.Turned
import EventLoop.Proofs.Utf8.Encoding
import EventLoop.Proofs.Utf8.Offset
import EventLoop.Reaction
import EventLoop.Readiness
import EventLoop.Sessions
import EventLoop.Slab
import EventLoop.System.Basic
import EventLoop.System.Root
import EventLoop.System.Run
import EventLoop.Tree.Basic
import EventLoop.Tree.Decode
import EventLoop.Tree.Payload
import EventLoop.Utf8
