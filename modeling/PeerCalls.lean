import PeerCalls.Bytes
import PeerCalls.Text.Utf8
import PeerCalls.Text.Decimal
import PeerCalls.Text.Hexadecimal
import PeerCalls.Call.Basic
import PeerCalls.Call.Ids
import PeerCalls.Frame.Invocation
import PeerCalls.Frame.Reply
import PeerCalls.Frame.Greeting
import PeerCalls.Frame.StoredCall
import PeerCalls.Service.Arithmetic
import PeerCalls.Endpoint.Backoff
import PeerCalls.Channel.Answers
import PeerCalls.Channel.Waiters
import PeerCalls.Channel.Settings
import PeerCalls.Channel.Link
import PeerCalls.Channel.Stream
import PeerCalls.Queue
import PeerCalls.Service.Basic
import PeerCalls.Channel.Sending
import PeerCalls.Channel.Receiving
import PeerCalls.Service.Sampler
import PeerCalls.Network.Control
import PeerCalls.Disk.Layout
import PeerCalls.Main
import PeerCalls.Network.Action
import PeerCalls.Proofs.Channel.Answers
import PeerCalls.Proofs.Network.Quiet
import PeerCalls.Proofs.Channel.Outbox
import PeerCalls.Proofs.Channel.Turns
import PeerCalls.Proofs.Network.Steps
import PeerCalls.Proofs.Channel.Admission
import PeerCalls.Proofs.Network.AtMostOnce
import PeerCalls.Proofs.Channel.InFlight
import PeerCalls.Proofs.Network.Order
import PeerCalls.Proofs.Channel.Link
import PeerCalls.Proofs.Channel.Waiters
import PeerCalls.Proofs.Pair.Basic
import PeerCalls.Proofs.Pair.Errands
import PeerCalls.Proofs.Pair.Executions
import PeerCalls.Proofs.Pair.Replies
import PeerCalls.Proofs.Pair.Succession
import PeerCalls.Proofs.Frame.Accepting
import PeerCalls.Proofs.Channel.Endings
import PeerCalls.Proofs.Network.Places
import PeerCalls.Proofs.Network.Endings
import PeerCalls.Proofs.Network.Answering
import PeerCalls.Proofs.Backlog.Keeping
import PeerCalls.Proofs.Queue.Ledger
import PeerCalls.Proofs.Queue.Mirror
import PeerCalls.Proofs.Queue.Lossless
import PeerCalls.Proofs.Frame.StoredCall
import PeerCalls.Proofs.Backlog.Files
import PeerCalls.Proofs.Backlog.Agreement
import PeerCalls.Proofs.Channel.Hands
import PeerCalls.Proofs.Network.Sharing
import PeerCalls.Proofs.Channel.Rest
import PeerCalls.Proofs.Channel.Waking
import PeerCalls.Proofs.Network.Waking
import PeerCalls.Proofs.Network.Queues
import PeerCalls.Proofs.Server.Aside
import PeerCalls.Proofs.Server.Connections
import PeerCalls.Proofs.Server.Holding
import PeerCalls.Proofs.Server.Keeping
import PeerCalls.Proofs.Channel.Remembering
import PeerCalls.Proofs.Channel.Exchange
import PeerCalls.Proofs.Channel.Fitting
import PeerCalls.Proofs.Network.Fitting
import PeerCalls.Proofs.Backlog.Surviving
import PeerCalls.Proofs.Backlog.Failing
import PeerCalls.Proofs.Backlog.Identity
import PeerCalls.Proofs.Channel.Abandoning
import PeerCalls.Proofs.Channel.Resolving
import PeerCalls.Proofs.Channel.Attribution
import PeerCalls.Proofs.Channel.Pausing
import PeerCalls.Proofs.Channel.Dispatch
import PeerCalls.Proofs.Backlog.Foreign
import PeerCalls.Proofs.Backlog.Serving
import PeerCalls.Proofs.Backlog.Isolation
import PeerCalls.Proofs.Channel.Framing
import PeerCalls.Proofs.Frame.Cutting
import PeerCalls.Proofs.Call.Ids
import PeerCalls.Proofs.Endpoint.Backoff
import PeerCalls.Proofs.Backlog.Naming
import PeerCalls.Proofs.Frame.Consuming
