import HostMeter.Counters.Attribute
import HostMeter.Counters.Interface
import HostMeter.Counters.Memory
import HostMeter.Counters.Processor
import HostMeter.Decimal.Fixed
import HostMeter.Decimal.Shortest
import HostMeter.Fault
import HostMeter.Json
import HostMeter.Path
import HostMeter.Host.Scenario
import HostMeter.Host.WorkTree
import HostMeter.Host.Shared
import HostMeter.Clock
import HostMeter.Settings.Values
import HostMeter.Snapshot.Builder
import HostMeter.Snapshot.Text
import HostMeter.Probe.Builtin
import HostMeter.CommandLine.Session
import HostMeter.Main
import HostMeter.Proofs.Monitor.Cadence
import HostMeter.Proofs.Monitor.RoundLaw
import HostMeter.Proofs.Monitor.Caching
import HostMeter.Proofs.Monitor.Isolation
import HostMeter.Proofs.Monitor.Construction
import HostMeter.Proofs.Monitor.Failures
import HostMeter.Proofs.Monitor.Resilience
import HostMeter.Proofs.Monitor.LastFault
import HostMeter.Proofs.Monitor.Names
import HostMeter.Proofs.Binary64.Grid
import HostMeter.Proofs.Binary64.Nearest
import HostMeter.Proofs.Percent
import HostMeter.Proofs.Monitor.Shares
import HostMeter.Proofs.Json.Reader
import HostMeter.Proofs.Decimal.ReadBack
import HostMeter.Proofs.Json.Numbers
import HostMeter.Proofs.Json.Objects
import HostMeter.Proofs.Snapshot.ReadBack
import HostMeter.Proofs.Snapshot.Elements
import HostMeter.Proofs.Binary64.NearestEven
import HostMeter.Proofs.Quotients
import HostMeter.Proofs.Probe.Runs
import HostMeter.Proofs.Probe.Usage
import HostMeter.Proofs.Probe.Rates
import HostMeter.Proofs.Probe.Readings
import HostMeter.Proofs.Probe.Following
import HostMeter.Proofs.Probe.Supply
import HostMeter.Proofs.Probe.Amounts
import HostMeter.Proofs.Probe.Growth
import HostMeter.Proofs.CommandLine.Rounds
import HostMeter.Proofs.CommandLine.Arguments
import HostMeter.Proofs.CommandLine.Sessions
import HostMeter.Proofs.Settings.RoundTrip
import HostMeter.Proofs.Settings.Meaning
import HostMeter.Proofs.Settings.Edits
import HostMeter.Proofs.Path.Parents
import HostMeter.Proofs.Path.Respelling
import HostMeter.Proofs.Path.Order
import HostMeter.Proofs.Counters.Processor
import HostMeter.Proofs.Counters.Aggregates
import HostMeter.Proofs.Counters.Memory
import HostMeter.Proofs.Counters.Interface
import HostMeter.Proofs.Counters.Insertion
import HostMeter.Proofs.Readers
import HostMeter.Proofs.Host.Copies
import HostMeter.Proofs.Host.ReadBack
import HostMeter.Proofs.Host.Tree
import HostMeter.Proofs.Host.Listings
import HostMeter.Proofs.Snapshot.Collecting
import HostMeter.Proofs.Snapshot.TwoPlaces
import HostMeter.Proofs.CommandLine.OneLine
