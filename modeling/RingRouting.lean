import RingRouting.Address
import RingRouting.Balancer.Basic
import RingRouting.Balancer.Error
import RingRouting.Channel
import RingRouting.CommandLine.Arguments
import RingRouting.CommandLine.LogFilter
import RingRouting.CommandLine.Pattern
import RingRouting.CommandLine.Program
import RingRouting.CommandLine.Task
import RingRouting.Connection
import RingRouting.Connectivity
import RingRouting.Hash.Blake3
import RingRouting.Hash.Bytes
import RingRouting.Hash.SipHash
import RingRouting.Hash.Xxh3
import RingRouting.Json.Basic
import RingRouting.Json.Reader
import RingRouting.Json.Writer
import RingRouting.Mailbox
import RingRouting.Main
import RingRouting.Metrics
import RingRouting.Node.Basic
import RingRouting.Node.Json
import RingRouting.Partitioner
import RingRouting.Picker
import RingRouting.Policy
import RingRouting.Proofs.Balancer.Aggregate
import RingRouting.Proofs.Balancer.Agreement
import RingRouting.Proofs.Balancer.Failures
import RingRouting.Proofs.Balancer.History
import RingRouting.Proofs.Balancer.Publication
import RingRouting.Proofs.Balancer.Records
import RingRouting.Proofs.Balancer.Requests
import RingRouting.Proofs.Balancer.Routing
import RingRouting.Proofs.Balancer.Soundness
import RingRouting.Proofs.Balancer.Steps
import RingRouting.Proofs.Balancer.Teardown
import RingRouting.Proofs.Balancer.Turnover
import RingRouting.Proofs.Balancer.Update
import RingRouting.Proofs.Channel.Calls
import RingRouting.Proofs.Channel.Settle
import RingRouting.Proofs.Channel.Trace
import RingRouting.Proofs.Channel.Update
import RingRouting.Proofs.CommandLine.Route
import RingRouting.Proofs.Json.Reading
import RingRouting.Proofs.Json.RoundTrip
import RingRouting.Proofs.Picker
import RingRouting.Proofs.Registry.Announcements
import RingRouting.Proofs.Registry.Isolation
import RingRouting.Proofs.Registry.Leases
import RingRouting.Proofs.Registry.Registration
import RingRouting.Proofs.Replay
import RingRouting.Proofs.Resolver.Accounting
import RingRouting.Proofs.Resolver.Closing
import RingRouting.Proofs.Resolver.Consumer
import RingRouting.Proofs.Resolver.Convergence
import RingRouting.Proofs.Resolver.Crash
import RingRouting.Proofs.Resolver.Deeds
import RingRouting.Proofs.Resolver.Elapse
import RingRouting.Proofs.Resolver.Fetches
import RingRouting.Proofs.Resolver.Queues
import RingRouting.Proofs.Resolver.Repair
import RingRouting.Proofs.Resolver.Schedule
import RingRouting.Proofs.Resolver.Start
import RingRouting.Proofs.Resolver.Timetable
import RingRouting.Proofs.Ring.Arcs
import RingRouting.Proofs.Ring.Churn
import RingRouting.Proofs.Ring.History
import RingRouting.Proofs.Ring.Labels
import RingRouting.Proofs.Ring.Placement
import RingRouting.Proofs.Ring.Preference
import RingRouting.Proofs.Ring.Relabel
import RingRouting.Proofs.Roster
import RingRouting.Proofs.Target
import RingRouting.Proofs.Text.ByteOrder
import RingRouting.Proofs.TreeMap
import RingRouting.Registry
import RingRouting.Resolver.Basic
import RingRouting.Resolver.Error
import RingRouting.Resolver.Run
import RingRouting.Resolver.Step
import RingRouting.Ring.Basic
import RingRouting.Ring.Lookup
import RingRouting.Ring.Ownership
import RingRouting.Roster
import RingRouting.Target
import RingRouting.Text.Alphanumeric
import RingRouting.Text.Blank
import RingRouting.Text.Hex
import RingRouting.Text.Hidden
import RingRouting.Text.Quoted
import RingRouting.Token
import RingRouting.VirtualNode
