import RepidBench.Transition
import RepidBench.Publishing
import RepidBench.Runtime
import RepidBench.AsyncPublish
import RepidBench.Publishers
import RepidBench.SharedFiles
import RepidBench.Decimal
import RepidBench.ParseOutput
import RepidBench.RoundTrip
import RepidBench.BufferedLog
import RepidBench.Sessions
import RepidBench.Dictionaries
import RepidBench.CsvAgreement
import RepidBench.CsvHeaders
import RepidBench.ResultTables
import RepidBench.ResumeLatency
import RepidBench.RunResults
import RepidBench.BurstRecovery
import RepidBench.LatencyConsistency
import RepidBench.ReportedWork
import RepidBench.CancelledSends
import RepidBench.SteadyRun
import RepidBench.SteadyValidity
import RepidBench.SteadyWindow
import RepidBench.Milestones
import RepidBench.Completion
import RepidBench.Orchestrator
import RepidBench.SteadyBudget
import RepidBench.CpuWork
import RepidBench.WorkerCrashes
import RepidBench.ChartLabels
import RepidBench.ThroughputCsv
import RepidBench.ChartData
import RepidBench.RunOrder
import RepidBench.Lifetimes
import RepidBench.LatencyQuantiles
import RepidBench.RatePublish
import RepidBench.OneBurst
import RepidBench.NonOkSummary
import RepidBench.CounterLock
import RepidBench.TerminateGroups
import RepidBench.FailedStarts
import RepidBench.RunCleanup
import RepidBench.ThreadedFailures
import RepidBench.ProgressLines
import RepidBench.PublishProgress
import RepidBench.Csv
import RepidBench.LogText
import RepidBench.NestedLists
import RepidBench.ChartLoaders
import RepidBench.LatencyCharts
import RepidBench.LatencyTables
import RepidBench.JsonTokens
import RepidBench.JsonText
import RepidBench.ConfigFile
import RepidBench.Metadata
import RepidBench.ResumeFixpoint
import RepidBench.Terminal
import RepidBench.ProgressDisplay
import RepidBench.Encodings
import RepidBench.Management
import RepidBench.ChartAxes
import RepidBench.CompactNumbers
import RepidBench.BaseLegend
import RepidBench.ChartFiles
import RepidBench.BurstMilestones
import RepidBench.Consumers
import RepidBench.ScatterLabels
