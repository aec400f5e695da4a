import Netmon.Library.Text
import Netmon.Library.Numeral
import Netmon.Library.HashMap
import Netmon.Library.Run
import Netmon.Library.Loop
import Netmon.Library.Bytes
import Netmon.Library.Tokens
import Netmon.Library.Csv
import Netmon.Library.Windows
import Netmon.Library.Saturating
import Netmon.Library.Channel
import Netmon.Library.Progress
import Netmon.Library.StableSort
import Netmon.Network
import Netmon.Capture.Packet
import Netmon.Capture.PacketExact
import Netmon.Capture.Vlan
import Netmon.Capture.Fragments
import Netmon.Capture.Loop
import Netmon.Capture.Thread
import Netmon.Capture.Recording
import Netmon.Resolver.Netlink
import Netmon.Resolver.NetlinkDump
import Netmon.Resolver.NetlinkFraming
import Netmon.Resolver.NetlinkSafety
import Netmon.Resolver.ProcFallback
import Netmon.Resolver.ProcTokens
import Netmon.Resolver.ProcMalformed
import Netmon.Resolver.KernelSockets
import Netmon.Resolver.ProcTables
import Netmon.Resolver.Rendering
import Netmon.Resolver.Process
import Netmon.Resolver.PidMap
import Netmon.Resolver.PidMapOrder
import Netmon.Resolver.Cache
import Netmon.Resolver.Coherence
import Netmon.Resolver.Sources
import Netmon.Resolver.Passwd
import Netmon.Resolver.ProcessTree
import Netmon.Resolver.Host
import Netmon.Resolver.Scans
import Netmon.Resolver.OneShot
import Netmon.Resolver.ProcFile
import Netmon.Controller.Ruleset
import Netmon.Controller.Script
import Netmon.Controller.Listing
import Netmon.Controller.ProcNet
import Netmon.Controller.Commands
import Netmon.Controller.Effects
import Netmon.Controller.Session
import Netmon.Controller.Invariant
import Netmon.Controller.Unblock
import Netmon.Controller.Interference
import Netmon.Controller.Tracked
import Netmon.Controller.Independence
import Netmon.Controller.Blocking
import Netmon.Controller.Ports
import Netmon.Controller.Ownership
import Netmon.Controller.ScriptMeaning
import Netmon.Controller.Throughput
import Netmon.Controller.Policy
import Netmon.Aggregator.State
import Netmon.Aggregator.Conservation
import Netmon.Aggregator.Owners
import Netmon.Aggregator.Publish
import Netmon.Aggregator.Rows
import Netmon.Aggregator.ConnectionBytes
import Netmon.Aggregator.Attribution
import Netmon.Aggregator.ExitMark
import Netmon.Aggregator.HistoryCsv
import Netmon.Aggregator.Loop
import Netmon.Aggregator.Thread
import Netmon.Aggregator.SessionHistory
import Netmon.Aggregator.Windows
import Netmon.Aggregator.Evicted
import Netmon.Aggregator.Subordinate
import Netmon.Aggregator.RecordedTotals
import Netmon.Aggregator.Seconds
import Netmon.Aggregator.Peak
import Netmon.Aggregator.Rates
import Netmon.Aggregator.Accounts
import Netmon.Aggregator.WithResolver
import Netmon.Aggregator.HostTraffic
import Netmon.Aggregator.AskingThread
import Netmon.Gui.BlockedSet
import Netmon.Gui.RateLimit
import Netmon.Gui.Clicks
import Netmon.Gui.Startup
import Netmon.Gui.Direction
import Netmon.Gui.Session
import Netmon.Gui.Handles
import Netmon.Gui.StaleStop
import Netmon.Gui.SilentExit
import Netmon.Gui.FilterLabel
import Netmon.Gui.ExportCsv
import Netmon.Gui.Chart
import Netmon.Gui.Rates
import Netmon.Gui.Pipeline
import Netmon.Gui.PipelineLedger
import Netmon.Gui.PipelineSnapshots
import Netmon.Gui.Shutdown
import Netmon.Gui.Table
import Netmon.Gui.Recording
import Netmon.Gui.System
import Netmon.Gui.Wire
import Netmon.Gui.CatchUp
