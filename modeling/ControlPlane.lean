import ControlPlane.Action
import ControlPlane.Actor
import ControlPlane.Address.Ipv4
import ControlPlane.Address.Ipv6
import ControlPlane.Address.Mac
import ControlPlane.Address.Masked
import ControlPlane.CommandLine.Arguments
import ControlPlane.CommandLine.Session
import ControlPlane.Config
import ControlPlane.Controller
import ControlPlane.Controller.Worker
import ControlPlane.Dict
import ControlPlane.Field
import ControlPlane.Flow
import ControlPlane.Flow.Redundancy
import ControlPlane.Json.Form
import ControlPlane.Json.Reader
import ControlPlane.Json.Text
import ControlPlane.Json.Token
import ControlPlane.Json.Value
import ControlPlane.Json.Writer
import ControlPlane.Main
import ControlPlane.Match
import ControlPlane.Message
import ControlPlane.Network
import ControlPlane.Numeral
import ControlPlane.Packet
import ControlPlane.Path
import ControlPlane.Path.Compile
import ControlPlane.Path.Ids
import ControlPlane.Path.Tracker
import ControlPlane.Proofs.Address
import ControlPlane.Proofs.Controller.Clock
import ControlPlane.Proofs.Controller.Completion
import ControlPlane.Proofs.Controller.Events
import ControlPlane.Proofs.Controller.Failure
import ControlPlane.Proofs.Controller.Interruption
import ControlPlane.Proofs.Controller.Replay
import ControlPlane.Proofs.Controller.Restoration
import ControlPlane.Proofs.Controller.Reuse
import ControlPlane.Proofs.Controller.Schedule
import ControlPlane.Proofs.Field
import ControlPlane.Proofs.Flow.Maximal
import ControlPlane.Proofs.Flow.Redundancy
import ControlPlane.Proofs.Flow.Relations
import ControlPlane.Proofs.Flow.Repetition
import ControlPlane.Proofs.Flow.Representatives
import ControlPlane.Proofs.Json.Form
import ControlPlane.Proofs.Json.Kinds
import ControlPlane.Proofs.Json.Records
import ControlPlane.Proofs.Json.Text
import ControlPlane.Proofs.Json.Token
import ControlPlane.Proofs.List
import ControlPlane.Proofs.Match
import ControlPlane.Proofs.Numeral
import ControlPlane.Proofs.Outcome
import ControlPlane.Proofs.Packet
import ControlPlane.Proofs.Path.Acceptance
import ControlPlane.Proofs.Path.Announcement
import ControlPlane.Proofs.Path.Checks
import ControlPlane.Proofs.Path.Compile
import ControlPlane.Proofs.Path.Confirmations
import ControlPlane.Proofs.Path.DeadEnd
import ControlPlane.Proofs.Path.Descent
import ControlPlane.Proofs.Path.Ids
import ControlPlane.Proofs.Path.Ports
import ControlPlane.Proofs.Path.Realisation
import ControlPlane.Proofs.Path.Record
import ControlPlane.Proofs.Path.Reordering
import ControlPlane.Proofs.Path.Reports
import ControlPlane.Proofs.Path.Reservation
import ControlPlane.Proofs.Path.Selection
import ControlPlane.Proofs.Path.Tracker
import ControlPlane.Proofs.RepeatedKinds
import ControlPlane.Proofs.Storage.Files
import ControlPlane.Proofs.Storage.Interruption
import ControlPlane.Proofs.Storage.Snapshot
import ControlPlane.Proofs.Text.Split
import ControlPlane.Proofs.Topology.Adjacency
import ControlPlane.Proofs.Topology.Alike
import ControlPlane.Proofs.Topology.Builder
import ControlPlane.Proofs.Topology.Construction
import ControlPlane.Proofs.Topology.Correspondence
import ControlPlane.Proofs.Topology.Counting
import ControlPlane.Proofs.Topology.Discovery
import ControlPlane.Proofs.Topology.Expansion
import ControlPlane.Proofs.Topology.Grid
import ControlPlane.Proofs.Topology.Indexed
import ControlPlane.Proofs.Topology.Listing
import ControlPlane.Proofs.Topology.Operations
import ControlPlane.Proofs.Topology.Places
import ControlPlane.Proofs.Topology.Records
import ControlPlane.Proofs.Topology.Removal
import ControlPlane.Proofs.Topology.Reversal
import ControlPlane.Proofs.Topology.Ring
import ControlPlane.Proofs.Topology.Routes
import ControlPlane.Proofs.Topology.Search
import ControlPlane.Proofs.Topology.Walk
import ControlPlane.Proofs.Uid
import ControlPlane.Random.ChaCha
import ControlPlane.Random.Probability
import ControlPlane.SortedMap
import ControlPlane.Storage.Files
import ControlPlane.Storage.Snapshot
import ControlPlane.Text.CharRanges
import ControlPlane.Text.Extending
import ControlPlane.Text.Graphic
import ControlPlane.Text.Ignorable
import ControlPlane.Text.Literal
import ControlPlane.Text.Split
import ControlPlane.Time
import ControlPlane.Topology.Builder
import ControlPlane.Topology.Graph
import ControlPlane.Topology.Indexed
import ControlPlane.Topology.Routes
import ControlPlane.Topology.Shapes
import ControlPlane.Uid
