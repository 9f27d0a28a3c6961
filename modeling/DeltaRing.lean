import DeltaRing.Cancellation
import DeltaRing.Causal.Context
import DeltaRing.Causal.Dot
import DeltaRing.Checkpoint
import DeltaRing.Clock
import DeltaRing.Cluster.Lifecycle
import DeltaRing.Cluster.Membership
import DeltaRing.Cluster.Network
import DeltaRing.Cluster.Operation
import DeltaRing.Cluster.Push
import DeltaRing.Cluster.Round
import DeltaRing.Collections.Key
import DeltaRing.Collections.SortedMap
import DeltaRing.Collections.SortedSet
import DeltaRing.Collections.Total
import DeltaRing.Config
import DeltaRing.CrdtType
import DeltaRing.Delta
import DeltaRing.Discovery
import DeltaRing.Distributor
import DeltaRing.Encoded
import DeltaRing.Error
import DeltaRing.Exchange.Duplex
import DeltaRing.Exchange.Frame
import DeltaRing.Exchange.Half
import DeltaRing.FailureDetector
import DeltaRing.Hosting
import DeltaRing.Identity
import DeltaRing.Json.Printer
import DeltaRing.Json.Reader
import DeltaRing.Json.Record
import DeltaRing.Json.Value
import DeltaRing.Lattice
import DeltaRing.Metadata
import DeltaRing.Node
import DeltaRing.OperationContext
import DeltaRing.OrMap
import DeltaRing.OrSet
import DeltaRing.Placement
import DeltaRing.Propagation
import DeltaRing.Registry
import DeltaRing.Rerouting
import DeltaRing.RetryBuffer
import DeltaRing.Selection
import DeltaRing.Sha256
import DeltaRing.Sharding
import DeltaRing.Simulation.Cluster
import DeltaRing.Simulation.Network
import DeltaRing.Simulation.Switchboard
import DeltaRing.Simulation.Workbench
import DeltaRing.Snapshot.Files
import DeltaRing.Snapshot.Store
import DeltaRing.Station
import DeltaRing.Text.Blank
import DeltaRing.Text.Utf8
import DeltaRing.View.Cluster
import DeltaRing.View.Replica
import DeltaRing.View.Shown
import DeltaRing.View.Simulation
import DeltaRing.Wire
import DeltaRing.Proofs.Causal.Canonical
import DeltaRing.Proofs.Collections.SortedMap
import DeltaRing.Proofs.Collections.SortedSet
import DeltaRing.Proofs.Json.RoundTrip
import DeltaRing.Proofs.Replication.Convergent
import DeltaRing.Proofs.Replication.Run
import DeltaRing.Proofs.Replication.OrSet
import DeltaRing.Proofs.Replication.Registry
import DeltaRing.Proofs.Replication.OrMap
import DeltaRing.Proofs.Replication.Family
import DeltaRing.Proofs.Replication.Convergence
import DeltaRing.Proofs.Replication.AntiEntropy
import DeltaRing.Proofs.Replication.Freshness
import DeltaRing.Proofs.Replication.Listing
import DeltaRing.Proofs.Simulation.Cluster
import DeltaRing.Proofs.Simulation.Delivery
import DeltaRing.Proofs.Simulation.Rounds
import DeltaRing.Proofs.Wire.Lawful
import DeltaRing.Proofs.Wire.Nesting
import DeltaRing.Proofs.Wire.Records
import DeltaRing.Proofs.Wire.Replicated
import DeltaRing.Proofs.Wire.RoundTrip
import DeltaRing.Proofs.Placement.Ring
import DeltaRing.Proofs.Placement.Agreement
import DeltaRing.Proofs.Node.Fleet
import DeltaRing.Proofs.Node.Hosting
import DeltaRing.Proofs.Node.Resume
import DeltaRing.Proofs.Cluster.Exec
import DeltaRing.Proofs.Cluster.Rerouting
import DeltaRing.Proofs.Exchange.LiveStream
import DeltaRing.Proofs.Exchange.Stream
import DeltaRing.Proofs.Exchange.Party
import DeltaRing.Proofs.Exchange.Schedule
import DeltaRing.Proofs.Replication.Growth
import DeltaRing.Proofs.Replication.Absorption
import DeltaRing.Proofs.Cluster.Evolution
import DeltaRing.Proofs.Node.Checkpoints
import DeltaRing.Proofs.Placement.Selection
import DeltaRing.Proofs.Cluster.Delivery
import DeltaRing.Proofs.Node.Merging
import DeltaRing.Proofs.Cluster.Cascade
import DeltaRing.Proofs.Cluster.CascadeBounds
import DeltaRing.Proofs.Replication.Coverage
import DeltaRing.Proofs.Replication.Coded
import DeltaRing.Proofs.Placement.Successor
import DeltaRing.Proofs.Wire.Timestamps
import DeltaRing.Proofs.Cluster.Exchanges
import DeltaRing.Proofs.Cluster.RingRounds
import DeltaRing.Proofs.Replication.Grounding
import DeltaRing.Proofs.Placement.Keeping
import DeltaRing.Proofs.Node.Settled
import DeltaRing.Proofs.Cluster.Quiescence
import DeltaRing.Proofs.Exchange.Merging
import DeltaRing.Proofs.Cluster.Crew
import DeltaRing.Proofs.Node.Retention
import DeltaRing.Proofs.Replication.History
import DeltaRing.Proofs.Node.Sizes
import DeltaRing.Proofs.Replication.Enumeration
import DeltaRing.Proofs.Replication.Truthful
import DeltaRing.Proofs.Replication.Observation
import DeltaRing.Proofs.Causal.Dots
import DeltaRing.Proofs.Replication.Lattice
import DeltaRing.Proofs.Replication.WellFormed
import DeltaRing.Proofs.Placement.Windows
import DeltaRing.Proofs.Parking.Queues
import DeltaRing.Proofs.Placement.Balance
import DeltaRing.Proofs.Placement.Staleness
import DeltaRing.Proofs.Parking.Conservation
import DeltaRing.Proofs.Parking.Order
import DeltaRing.Proofs.Placement.Cycle
import DeltaRing.Proofs.Placement.Reordering
import DeltaRing.Proofs.Node.Records
import DeltaRing.Proofs.Exchange.Grammar
import DeltaRing.Proofs.Exchange.Dialogue
import DeltaRing.Proofs.Propagation.Clients
import DeltaRing.Proofs.Propagation.Outcomes
