import PipelineUpkeep.Arguments.Basic
import PipelineUpkeep.Arguments.Reading
import PipelineUpkeep.Cancellation.Audit
import PipelineUpkeep.Cancellation.Pass
import PipelineUpkeep.Cancellation.Report
import PipelineUpkeep.Cancellation.Retry
import PipelineUpkeep.Cancellation.Run
import PipelineUpkeep.Cancellation.Selection
import PipelineUpkeep.Cancellation.Settings
import PipelineUpkeep.Cancellation.Summary
import PipelineUpkeep.Command.Basic
import PipelineUpkeep.Command.Execution
import PipelineUpkeep.Command.Line
import PipelineUpkeep.Command.Workspace
import PipelineUpkeep.Configuration.Basic
import PipelineUpkeep.Configuration.File
import PipelineUpkeep.Data.Codec
import PipelineUpkeep.Data.Decode
import PipelineUpkeep.Data.Json.Printer
import PipelineUpkeep.Data.Json.Reader
import PipelineUpkeep.Data.Toml.Outline
import PipelineUpkeep.Data.Toml.Printer
import PipelineUpkeep.Data.Toml.Quoted
import PipelineUpkeep.Data.Toml.Reader
import PipelineUpkeep.Data.Toml.Scalar
import PipelineUpkeep.Data.Value
import PipelineUpkeep.Data.Yaml.Place
import PipelineUpkeep.Data.Yaml.Printer
import PipelineUpkeep.Data.Yaml.Reader
import PipelineUpkeep.Data.Yaml.Scalar
import PipelineUpkeep.Data.Yaml.Style
import PipelineUpkeep.Error
import PipelineUpkeep.Files.Directory
import PipelineUpkeep.Files.Error
import PipelineUpkeep.Main
import PipelineUpkeep.Pipeline.Creation
import PipelineUpkeep.Pipeline.Records
import PipelineUpkeep.Pipeline.Rows
import PipelineUpkeep.Pipeline.SkipMarker
import PipelineUpkeep.Pipeline.Source
import PipelineUpkeep.Pipeline.Status
import PipelineUpkeep.Policy
import PipelineUpkeep.Program.Basic
import PipelineUpkeep.Program.Request
import PipelineUpkeep.Program.Timeline
import PipelineUpkeep.Program.World
import PipelineUpkeep.Proofs.BlastRadius
import PipelineUpkeep.Proofs.CalendarLaws
import PipelineUpkeep.Proofs.CancelRows
import PipelineUpkeep.Proofs.CancellationAccounts
import PipelineUpkeep.Proofs.CancellationDiscipline
import PipelineUpkeep.Proofs.CancellationExactness
import PipelineUpkeep.Proofs.CandidatePages
import PipelineUpkeep.Proofs.Candidates
import PipelineUpkeep.Proofs.ClaimLedger
import PipelineUpkeep.Proofs.CommandAtomicity
import PipelineUpkeep.Proofs.CompareAndCancel
import PipelineUpkeep.Proofs.ConcurrentRuns
import PipelineUpkeep.Proofs.ConfigurationRoundTrip
import PipelineUpkeep.Proofs.ConflictFreedom
import PipelineUpkeep.Proofs.ContractRuns
import PipelineUpkeep.Proofs.Contracts
import PipelineUpkeep.Proofs.CreationAccount
import PipelineUpkeep.Proofs.CreationEffect
import PipelineUpkeep.Proofs.CreationTrace
import PipelineUpkeep.Proofs.DecimalLaws
import PipelineUpkeep.Proofs.DeliveryAccount
import PipelineUpkeep.Proofs.DeliveryEffect
import PipelineUpkeep.Proofs.DeliveryTrace
import PipelineUpkeep.Proofs.Descendants
import PipelineUpkeep.Proofs.DirectoryLaws
import PipelineUpkeep.Proofs.Discipline
import PipelineUpkeep.Proofs.EngineRequests
import PipelineUpkeep.Proofs.ExactlyOnceCancellation
import PipelineUpkeep.Proofs.FieldLocality
import PipelineUpkeep.Proofs.FirstListedInstant
import PipelineUpkeep.Proofs.FiveFieldRuns
import PipelineUpkeep.Proofs.HeadLookups
import PipelineUpkeep.Proofs.HeadTurns
import PipelineUpkeep.Proofs.IdleSweeps
import PipelineUpkeep.Proofs.InstantText
import PipelineUpkeep.Proofs.Interleaving
import PipelineUpkeep.Proofs.InterruptibilityGate
import PipelineUpkeep.Proofs.JsonRoundTrip
import PipelineUpkeep.Proofs.KeptState
import PipelineUpkeep.Proofs.KeysetPages
import PipelineUpkeep.Proofs.LastRows
import PipelineUpkeep.Proofs.LookbackLimits
import PipelineUpkeep.Proofs.NextInstant
import PipelineUpkeep.Proofs.NextRunOrder
import PipelineUpkeep.Proofs.PaidDeliveries
import PipelineUpkeep.Proofs.PassSorting
import PipelineUpkeep.Proofs.PauseLengths
import PipelineUpkeep.Proofs.PipelineOrigins
import PipelineUpkeep.Proofs.QueryAnswers
import PipelineUpkeep.Proofs.QueueWalk
import PipelineUpkeep.Proofs.RecordReading
import PipelineUpkeep.Proofs.RepeatedRun
import PipelineUpkeep.Proofs.RequestPaths
import PipelineUpkeep.Proofs.RestoredStores
import PipelineUpkeep.Proofs.RetryLaw
import PipelineUpkeep.Proofs.RowReading
import PipelineUpkeep.Proofs.RunEffect
import PipelineUpkeep.Proofs.RunFailures
import PipelineUpkeep.Proofs.RunOrder
import PipelineUpkeep.Proofs.RunOutline
import PipelineUpkeep.Proofs.RunTally
import PipelineUpkeep.Proofs.RunTargets
import PipelineUpkeep.Proofs.ScheduleClaims
import PipelineUpkeep.Proofs.ScheduleWrites
import PipelineUpkeep.Proofs.SegmentReading
import PipelineUpkeep.Proofs.SelectiveRuns
import PipelineUpkeep.Proofs.SharedContracts
import PipelineUpkeep.Proofs.ShelteredPipelines
import PipelineUpkeep.Proofs.SideBySide
import PipelineUpkeep.Proofs.SnapshotLaws
import PipelineUpkeep.Proofs.StateRoundTrip
import PipelineUpkeep.Proofs.StoreEvolution
import PipelineUpkeep.Proofs.StoreHistory
import PipelineUpkeep.Proofs.StoreIntegrity
import PipelineUpkeep.Proofs.StoredInstants
import PipelineUpkeep.Proofs.SundaySpellings
import PipelineUpkeep.Proofs.SweepClaims
import PipelineUpkeep.Proofs.SweepDeliveries
import PipelineUpkeep.Proofs.SweepEffect
import PipelineUpkeep.Proofs.SweepSurvival
import PipelineUpkeep.Proofs.SyncedHeads
import PipelineUpkeep.Proofs.TableLaws
import PipelineUpkeep.Proofs.TimelyRequests
import PipelineUpkeep.Proofs.TipRaces
import PipelineUpkeep.Proofs.UndisturbedRun
import PipelineUpkeep.Proofs.UnreliableStore
import PipelineUpkeep.Proofs.WatchedSweeps
import PipelineUpkeep.Proofs.WeekdayDenotation
import PipelineUpkeep.Proofs.WrittenValues
import PipelineUpkeep.Remote.Address
import PipelineUpkeep.Remote.Exchange
import PipelineUpkeep.Remote.Heads
import PipelineUpkeep.Remote.Link
import PipelineUpkeep.Remote.PathSegment
import PipelineUpkeep.Schedule.CronField
import PipelineUpkeep.Schedule.CronSearch
import PipelineUpkeep.Schedule.CronText
import PipelineUpkeep.Schedule.Delivery
import PipelineUpkeep.Schedule.Rows
import PipelineUpkeep.Schedule.Sweep
import PipelineUpkeep.Schedule.Watch
import PipelineUpkeep.Schedule.Weekdays
import PipelineUpkeep.Screen.BoxTable
import PipelineUpkeep.Screen.Paint
import PipelineUpkeep.Screen.Reports
import PipelineUpkeep.Store.Basic
import PipelineUpkeep.Store.Call
import PipelineUpkeep.Store.Disturbance
import PipelineUpkeep.Store.Error
import PipelineUpkeep.Store.Evaluation
import PipelineUpkeep.Store.Operations
import PipelineUpkeep.Store.Query
import PipelineUpkeep.Store.Snapshot
import PipelineUpkeep.Store.StateFile
import PipelineUpkeep.Store.Table
import PipelineUpkeep.Text.Blank
import PipelineUpkeep.Text.CellWidth
import PipelineUpkeep.Text.Decimal
import PipelineUpkeep.Text.Hexadecimal
import PipelineUpkeep.Time.Calendar
import PipelineUpkeep.Time.Rfc3339
import PipelineUpkeep.Time.Span
import PipelineUpkeep.Time.Timestamp
