import UnsBridge.Lib.Transition
import UnsBridge.Lib.TopicFilter
import UnsBridge.Lib.Collections
import UnsBridge.Lib.Ledger
import UnsBridge.Lib.History
import UnsBridge.Lib.Leases
import UnsBridge.Lib.Ownership
import UnsBridge.Lib.TokenBucket
import UnsBridge.Lib.IntervalDeltas
import UnsBridge.Lib.Runs
import UnsBridge.Envelope
import UnsBridge.Uns
import UnsBridge.Relay
import UnsBridge.ClassLocation
import UnsBridge.Config
import UnsBridge.Policy
import UnsBridge.Reply
import UnsBridge.LoopProtection
import UnsBridge.ReplyReference
import UnsBridge.Io.Counters
import UnsBridge.Io.Bus
import UnsBridge.Io.Uplink
import UnsBridge.Io.UplinkMoves
import UnsBridge.Io.UplinkFlow
import UnsBridge.Io.UplinkBooks
import UnsBridge.Io.UplinkWatch
import UnsBridge.Io.Downlink
import UnsBridge.Io.DownlinkMoves
import UnsBridge.Io.DownlinkBooks
import UnsBridge.Io.RelayIo
import UnsBridge.Observability
import UnsBridge.Io.MetricTask
import UnsBridge.PolicyClass
import UnsBridge.OneDelivery
import UnsBridge.ReplyRouting
import UnsBridge.ReplySubscriptions
import UnsBridge.ReplyPaths
import UnsBridge.EventOrder
import UnsBridge.EventLoss
import UnsBridge.Accounting
import UnsBridge.Rehydration
import UnsBridge.Shutdown
import UnsBridge.SiteAcl
import UnsBridge.JsonSchema
import UnsBridge.ConfigFile
import UnsBridge.ConfigSchema
import UnsBridge.CommandFailure
import UnsBridge.FirstReply
import UnsBridge.RateCap
import UnsBridge.ReplyPanics
import UnsBridge.ReplayBuffer
import UnsBridge.WatcherDiscipline
import UnsBridge.Transparency
import UnsBridge.FailedStart
import UnsBridge.MetricDeltas
import UnsBridge.ObservedRelay
import UnsBridge.ClassIsolation
import UnsBridge.Process
import UnsBridge.Provenance
import UnsBridge.Work
import UnsBridge.ReplayProgress
import UnsBridge.Capacity
import UnsBridge.DeliveryOrder
import UnsBridge.TimelyReply
import UnsBridge.ReplyTasks
import UnsBridge.CommandProgress
import UnsBridge.ClassCounts
import UnsBridge.Launch
import UnsBridge.SiteRate
import UnsBridge.ShutdownCalls
import UnsBridge.Exit
