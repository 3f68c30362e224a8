import VipSteering.Balancer.Basic
import VipSteering.Balancer.Service
import VipSteering.Balancer.Fault
import VipSteering.Balancer.Flow
import VipSteering.Balancer.Process
import VipSteering.Balancer.Settings
import VipSteering.Balancer.Target
import VipSteering.Binary64
import VipSteering.Classifier.Basic
import VipSteering.Classifier.Elements
import VipSteering.Command.Basic
import VipSteering.Desired.Spec
import VipSteering.Desired.Snapshot
import VipSteering.Host.Basic
import VipSteering.Host.Console
import VipSteering.Host.Ip
import VipSteering.Host.Maglev
import VipSteering.Host.Nft
import VipSteering.Json.Basic
import VipSteering.Json.Generic
import VipSteering.Json.Number
import VipSteering.Json.Parser
import VipSteering.Json.Record
import VipSteering.Json.Token
import VipSteering.Mark.Block
import VipSteering.Roster.Endpoints
import VipSteering.Net.Address
import VipSteering.Net.Address.Parser
import VipSteering.Net.Cidr
import VipSteering.Net.Destination
import VipSteering.Net.Interval
import VipSteering.Net.QueueRange
import VipSteering.PolicyRoute
import VipSteering.Ranked
import VipSteering.Report
import VipSteering.Session.Watcher
import VipSteering.Roster.Basic
import VipSteering.Roster.Fault
import VipSteering.Roster.Flows
import VipSteering.Roster.Services
import VipSteering.Session.Basic
import VipSteering.Session.Environment
import VipSteering.Store
import VipSteering.Text.Split
import VipSteering.Text.Decimal
import VipSteering.Text.Printable
import VipSteering.Proofs.Report
import VipSteering.Proofs.Balancer.Books
import VipSteering.Proofs.Mark.Block
import VipSteering.Proofs.Roster.Endpoints
import VipSteering.Proofs.Balancer.Sound
import VipSteering.Proofs.Roster.Flows
import VipSteering.Proofs.Roster.Services
import VipSteering.Proofs.Gateway.Endpoints
import VipSteering.Proofs.Gateway.Run
import VipSteering.Proofs.Gateway.Matched
import VipSteering.Proofs.Gateway.Calls
import VipSteering.Proofs.Gateway.Ghosts
import VipSteering.Proofs.Gateway.Live
import VipSteering.Proofs.Net.AddressText
import VipSteering.Proofs.Json.Strings
import VipSteering.Proofs.Json.Numbers
import VipSteering.Proofs.Json.RoundTrip
import VipSteering.Proofs.Json.Normal
import VipSteering.Proofs.Host.Ip
import VipSteering.Proofs.PolicyRoute
import VipSteering.Proofs.PolicyRoute.Requests
import VipSteering.Proofs.PolicyRoute.Entries
import VipSteering.Proofs.Balancer.Routes
import VipSteering.Proofs.Host.Maglev
import VipSteering.Proofs.Balancer.Listing
import VipSteering.Proofs.Classifier.Elements
import VipSteering.Proofs.Host.Nft
import VipSteering.Proofs.Classifier.Sets
import VipSteering.Proofs.Classifier.Destinations
import VipSteering.Proofs.Classifier.Configure
import VipSteering.Proofs.Balancer.Flows
import VipSteering.Proofs.Balancer.Mirror
import VipSteering.Proofs.Gateway.Faithful
import VipSteering.Proofs.Balancer.Commands
import VipSteering.Proofs.Balancer.Owned
import VipSteering.Proofs.Balancer.Identified
import VipSteering.Proofs.Roster.Consistent
import VipSteering.Proofs.Roster.Undisturbed
import VipSteering.Proofs.Roster.Apply
import VipSteering.Proofs.Roster.Slots
import VipSteering.Proofs.Roster.Logged
import VipSteering.Proofs.Roster.Reported
import VipSteering.Proofs.Session.Clock
import VipSteering.Proofs.Session.Watcher
import VipSteering.Proofs.Host.Refusing
import VipSteering.Proofs.Balancer.Refusals
import VipSteering.Proofs.Balancer.Agreed
import VipSteering.Proofs.Balancer.Steering
import VipSteering.Proofs.Balancer.Strays
import VipSteering.Proofs.Gateway.Steps
import VipSteering.Proofs.Gateway.Recorded
import VipSteering.Proofs.Gateway.Vips
import VipSteering.Proofs.Gateway.Strays
import VipSteering.Proofs.Gateway.Snapshot
import VipSteering.Proofs.Gateway.Distinct
import VipSteering.Proofs.Gateway.Isolated
import VipSteering.Proofs.Gateway.Repeated
import VipSteering.Proofs.Balancer.Leases
import VipSteering.Proofs.Gateway.Leases
import VipSteering.Proofs.Gateway.Restored
import VipSteering.Proofs.PolicyRoute.Asking
import VipSteering.Proofs.PolicyRoute.Outcomes
import VipSteering.Proofs.Balancer.Quiet
import VipSteering.Proofs.Balancer.Withdrawn
import VipSteering.Proofs.Gateway.Withdrawn
import VipSteering.Proofs.Roster.Accounted
import VipSteering.Proofs.Roster.Traced
import VipSteering.Proofs.Roster.Steady
import VipSteering.Proofs.Classifier.Kept
import VipSteering.Proofs.Balancer.Atomic
import VipSteering.Proofs.Balancer.Jobs
import VipSteering.Proofs.Gateway.Independent
import VipSteering.Proofs.Balancer.ReadBack
import VipSteering.Proofs.Classifier.Encodings
import VipSteering.Proofs.Net.Span
import VipSteering.Proofs.Classifier.Renewed
import VipSteering.Proofs.Roster.Unordered
import VipSteering.Proofs.Desired.RoundTrip
import VipSteering.Proofs.Report.Nested
import VipSteering.Proofs.Net.QueueRange
