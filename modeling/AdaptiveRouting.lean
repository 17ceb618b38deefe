import AdaptiveRouting.Daemon.Loop
import AdaptiveRouting.Decimal.Binary
import AdaptiveRouting.Decimal.Reading
import AdaptiveRouting.Decimal.Scientific
import AdaptiveRouting.Decimal.Shortest
import AdaptiveRouting.Document.Datum
import AdaptiveRouting.Document.Numeral
import AdaptiveRouting.Document.Reader
import AdaptiveRouting.Document.TextLiteral
import AdaptiveRouting.Failure
import AdaptiveRouting.HostFault
import AdaptiveRouting.Learning.CostModel
import AdaptiveRouting.Learning.Features
import AdaptiveRouting.Learning.LinearModel
import AdaptiveRouting.Learning.TimeSlots
import AdaptiveRouting.Link.Cost
import AdaptiveRouting.Link.Performance
import AdaptiveRouting.Link.State
import AdaptiveRouting.Monitor.Basic
import AdaptiveRouting.Monitor.Control
import AdaptiveRouting.Monitor.Costs
import AdaptiveRouting.Monitor.Neighbors
import AdaptiveRouting.Monitor.Probing
import AdaptiveRouting.Name
import AdaptiveRouting.Pricing.LoadAware
import AdaptiveRouting.Pricing.Strategy
import AdaptiveRouting.Probe.Datagram
import AdaptiveRouting.Probe.Exchange
import AdaptiveRouting.Probe.Frame
import AdaptiveRouting.Probe.ProbeName
import AdaptiveRouting.Probe.Reply
import AdaptiveRouting.Proofs.Learning.Books
import AdaptiveRouting.Proofs.Learning.Records
import AdaptiveRouting.Proofs.Learning.Training
import AdaptiveRouting.Proofs.Link.RttCost
import AdaptiveRouting.Proofs.Link.Scores
import AdaptiveRouting.Proofs.Monitor.CostAgreement
import AdaptiveRouting.Proofs.Monitor.CostBounds
import AdaptiveRouting.Proofs.Monitor.CostCopies
import AdaptiveRouting.Proofs.Monitor.CostOrder
import AdaptiveRouting.Proofs.Monitor.CostWrites
import AdaptiveRouting.Proofs.Monitor.Deactivation
import AdaptiveRouting.Proofs.Monitor.Draining
import AdaptiveRouting.Proofs.Monitor.FailingHooks
import AdaptiveRouting.Proofs.Monitor.Frames
import AdaptiveRouting.Proofs.Monitor.Histories
import AdaptiveRouting.Proofs.Monitor.HostTime
import AdaptiveRouting.Proofs.Monitor.Ledger
import AdaptiveRouting.Proofs.Monitor.News
import AdaptiveRouting.Proofs.Monitor.Noninterference
import AdaptiveRouting.Proofs.Monitor.ProbeCadence
import AdaptiveRouting.Proofs.Monitor.ProbeCoverage
import AdaptiveRouting.Proofs.Monitor.ProbeMatching
import AdaptiveRouting.Proofs.Monitor.Quiescence
import AdaptiveRouting.Proofs.Monitor.Reactivation
import AdaptiveRouting.Proofs.Monitor.RebuildRequests
import AdaptiveRouting.Proofs.Monitor.Runs
import AdaptiveRouting.Proofs.Monitor.TimerBookkeeping
import AdaptiveRouting.Proofs.Monitor.Timers
import AdaptiveRouting.Proofs.Monitor.UnbrokenProbing
import AdaptiveRouting.Proofs.Monitor.WarmUp
import AdaptiveRouting.Proofs.Names
import AdaptiveRouting.Proofs.Pricing.Caps
import AdaptiveRouting.Proofs.Pricing.Damping
import AdaptiveRouting.Proofs.Pricing.Prices
import AdaptiveRouting.Proofs.Probe.NameSpellings
import AdaptiveRouting.Proofs.Probe.ProbeExchange
import AdaptiveRouting.Proofs.Probe.ProbeNames
import AdaptiveRouting.Proofs.Probe.SelfDelimitingFrames
import AdaptiveRouting.Proofs.Quantity
import AdaptiveRouting.Proofs.Router.CatchingUp
import AdaptiveRouting.Proofs.Router.Determinacy
import AdaptiveRouting.Proofs.Router.OwnAdvertisement
import AdaptiveRouting.Proofs.Routing.DirectNeighbors
import AdaptiveRouting.Proofs.Routing.Distances
import AdaptiveRouting.Proofs.Routing.FirstHops
import AdaptiveRouting.Proofs.Routing.Forwarding
import AdaptiveRouting.Proofs.Routing.PathCosts
import AdaptiveRouting.Proofs.Routing.RestatedMaps
import AdaptiveRouting.Proofs.Routing.ShortestRoutes
import AdaptiveRouting.Proofs.Routing.SingleFlight
import AdaptiveRouting.Proofs.Routing.TableHistory
import AdaptiveRouting.Proofs.Routing.TieBreaks
import AdaptiveRouting.Proofs.Settings.Acceptance
import AdaptiveRouting.Proofs.Settings.RoundTrip
import AdaptiveRouting.Proofs.Text.Utf8RoundTrip
import AdaptiveRouting.Proofs.Time.DurationRoundTrip
import AdaptiveRouting.Proofs.Time.LiveTimers
import AdaptiveRouting.Proofs.Time.TimeOfDay
import AdaptiveRouting.Proofs.Time.TimerAnswers
import AdaptiveRouting.Router.Basic
import AdaptiveRouting.Router.Calculation
import AdaptiveRouting.Routing.Hyperbolic
import AdaptiveRouting.Routing.Schedule
import AdaptiveRouting.Routing.ShortestPath
import AdaptiveRouting.Routing.Table
import AdaptiveRouting.Scalar
import AdaptiveRouting.Settings.Basic
import AdaptiveRouting.Settings.Decoding
import AdaptiveRouting.Settings.Encoding
import AdaptiveRouting.Settings.Files
import AdaptiveRouting.Settings.Validation
import AdaptiveRouting.Simulation.Network
import AdaptiveRouting.Simulation.Run
import AdaptiveRouting.Statistics
import AdaptiveRouting.Text.Blank
import AdaptiveRouting.Text.Quoted
import AdaptiveRouting.Text.Utf8
import AdaptiveRouting.Time.Clock
import AdaptiveRouting.Time.Duration
import AdaptiveRouting.Time.DurationText
import AdaptiveRouting.Time.TimerQueue
import AdaptiveRouting.Topology.Adjacency
import AdaptiveRouting.Topology.Database
import AdaptiveRouting.Topology.Map
import AdaptiveRouting.Version
import AdaptiveRouting.Vocabulary
