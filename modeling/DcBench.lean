import DcBench.ServerFraming
import DcBench.ServerEcho
import DcBench.SessionEcho
import DcBench.HeaderReplies
import DcBench.ConnectionPool
import DcBench.OpenLoopLatency
import DcBench.SizeIsolation
import DcBench.HomaWarmup
import DcBench.Provenance
import DcBench.ServerCleanup
import DcBench.CloseOnce
import DcBench.LiveRegistered
import DcBench.ResultTotals
import DcBench.ClosedLoopAgreement
import DcBench.OfferedWorkload
import DcBench.ArrivalDrift
import DcBench.ParetoSizes
import DcBench.PlotAgreement
import DcBench.FaninAgreement
import DcBench.PartialReports
import DcBench.PercentileOrder
import DcBench.SizeBalance
import DcBench.RoundRobinSpread
import DcBench.HandlerRelease
import DcBench.GenuineSamples
import DcBench.ClosedLoopSplit
import DcBench.ThroughputModel
import DcBench.EmptyRuns
import DcBench.ArgsRoundTrip
import DcBench.SweepNames
import DcBench.QueueWakeups
import DcBench.OpenLoopRefinement
import DcBench.ServerTotals
import DcBench.ServerShutdown
import DcBench.EndToEnd
import DcBench.OpenLoopEndToEnd
import DcBench.HomaEndToEnd
import DcBench.ExperimentAnalysis
import DcBench.OversizeRequest
import DcBench.StressLabels
import DcBench.SweepRun
import DcBench.BenchArgsAgreement
