import ClusterSweep.Abort
import ClusterSweep.Binary64.Basic
import ClusterSweep.Binary64.Fixed
import ClusterSweep.Binary64.Read
import ClusterSweep.Binary64.Round
import ClusterSweep.Binary64.Shortest
import ClusterSweep.Checked
import ClusterSweep.CommandLine.Arguments
import ClusterSweep.CommandLine.Scan
import ClusterSweep.CommandLine.Spec
import ClusterSweep.Disk
import ClusterSweep.Duration
import ClusterSweep.Execution
import ClusterSweep.Host
import ClusterSweep.Host.Tool
import ClusterSweep.Host.Tree
import ClusterSweep.Invocation
import ClusterSweep.Latency.Percentiles
import ClusterSweep.Latency.Samples
import ClusterSweep.Layout
import ClusterSweep.Main
import ClusterSweep.Plan
import ClusterSweep.Program
import ClusterSweep.Proofs.Enumeration
import ClusterSweep.Proofs.OrderStatistics
import ClusterSweep.Proofs.OutputAgreement
import ClusterSweep.Proofs.PercentileOrder
import ClusterSweep.Proofs.PercentileTable
import ClusterSweep.Proofs.Rounding
import ClusterSweep.Proofs.SweepRun
import ClusterSweep.Quota
import ClusterSweep.Reduction.Error
import ClusterSweep.Reduction.Run
import ClusterSweep.Report
import ClusterSweep.Settings.Config
import ClusterSweep.Settings.Decode
import ClusterSweep.Settings.Environment
import ClusterSweep.Settings.Error
import ClusterSweep.Settings.Load
import ClusterSweep.Settings.Value
import ClusterSweep.Settings.Yaml
import ClusterSweep.Settings.Yaml.Document
import ClusterSweep.Settings.Yaml.Parser
import ClusterSweep.Settings.Yaml.Scalar
import ClusterSweep.Settings.Yaml.Scanner
import ClusterSweep.Shape
import ClusterSweep.Simulation
import ClusterSweep.Space
import ClusterSweep.Text.Blank
import ClusterSweep.Text.Integer
import ClusterSweep.Text.Lines
import ClusterSweep.Text.Printable
import ClusterSweep.Text.Quoted
import ClusterSweep.Throughput.Summary
import ClusterSweep.Throughput.Table
import ClusterSweep.Topology
import ClusterSweep.Proofs.ReduceAccounting
import ClusterSweep.Proofs.DiskFrame
import ClusterSweep.Proofs.ReduceIdempotent
import ClusterSweep.Proofs.ClientFiles
import ClusterSweep.Proofs.ShortestDigits
import ClusterSweep.Proofs.ShortestReadsBack
import ClusterSweep.Proofs.DiskCreation
import ClusterSweep.Proofs.RecordedSweep
import ClusterSweep.Proofs.ReadingOrder
import ClusterSweep.Proofs.SampleGrammar
import ClusterSweep.Proofs.SweepThenReduce
import ClusterSweep.Proofs.SummaryGrammar
import ClusterSweep.Proofs.Aggregation
import ClusterSweep.Proofs.ReadsBeforeWriting
import ClusterSweep.Proofs.PartitionPoint
import ClusterSweep.Proofs.CommandLines
import ClusterSweep.Proofs.QuotaOverflow
import ClusterSweep.Proofs.TableOrder
import ClusterSweep.Proofs.CommaLists
import ClusterSweep.Proofs.SettingsTrees
import ClusterSweep.Proofs.SettingsSources
import ClusterSweep.Proofs.SettingsRecords
import ClusterSweep.Proofs.LayeredSettings
