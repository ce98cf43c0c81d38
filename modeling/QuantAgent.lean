import QuantAgent.Lib.PyList
import QuantAgent.Lib.Causal
import QuantAgent.Lib.Dict
import QuantAgent.Lib.PyFloat
import QuantAgent.Lib.Trace
import QuantAgent.Engine.Models
import QuantAgent.Engine.Market
import QuantAgent.Engine.Inputs
import QuantAgent.Engine.Strategy
import QuantAgent.Engine.Records
import QuantAgent.Engine.Execution
import QuantAgent.Engine.Signals
import QuantAgent.Engine.Backtest
import QuantAgent.Engine.Passes
import QuantAgent.Lib.Obligations
import QuantAgent.Engine.Lifecycle
import QuantAgent.Engine.Books
import QuantAgent.Engine.Ledger
import QuantAgent.Engine.Delisting
import QuantAgent.Engine.Attribution
import QuantAgent.Engine.Splits
import QuantAgent.Engine.Solvency
import QuantAgent.Engine.Limits
import QuantAgent.Engine.Causality
import QuantAgent.Engine.Compact
import QuantAgent.Engine.Equivalence
import QuantAgent.Engine.FastPath
import QuantAgent.Engine.Borrowing
import QuantAgent.Engine.InputOrder
import QuantAgent.Engine.RulePath
import QuantAgent.Lib.BoundedLog
import QuantAgent.Jobs.EventBuffer
import QuantAgent.Jobs.ConcurrencyGate
import QuantAgent.Jobs.Records
import QuantAgent.Jobs.Store
import QuantAgent.Jobs.Finality
import QuantAgent.Jobs.FailedAdmission
import QuantAgent.Jobs.FailureStage
import QuantAgent.Jobs.RunJob
import QuantAgent.Jobs.Dispatch
import QuantAgent.Jobs.AtMostOnce
import QuantAgent.Jobs.Admission
import QuantAgent.Jobs.AdmissionTables
import QuantAgent.Jobs.Reservation
import QuantAgent.Lib.NumPy
import QuantAgent.Lib.Grouped
import QuantAgent.Lib.Relational
import QuantAgent.Lib.PyText
import QuantAgent.Features.Conditions
import QuantAgent.Features.Store
import QuantAgent.Features.Series
import QuantAgent.Features.Catalog
import QuantAgent.Features.Metrics
import QuantAgent.Features.SharedSeries
import QuantAgent.Features.Builders
import QuantAgent.Features.Simulation
import QuantAgent.Features.MetricCalls
import QuantAgent.Features.Kept
import QuantAgent.Features.Transparency
import QuantAgent.Lib.Interleaving
import QuantAgent.Auth.SessionStore
import QuantAgent.Auth.Requests
import QuantAgent.Auth.OAuthState
import QuantAgent.Auth.Revocation
import QuantAgent.Auth.TokenQuota
import QuantAgent.Auth.QuotaBound
import QuantAgent.Auth.QuotaSafety
import QuantAgent.Email.Outbox
import QuantAgent.Email.OutboxSafety
import QuantAgent.Email.Worker
import QuantAgent.Lib.RoseTree
import QuantAgent.Sandbox.Validator
import QuantAgent.Sandbox.CodeValidator
import QuantAgent.Sandbox.Denotation
import QuantAgent.Sandbox.LoopBound
import QuantAgent.Jobs.Reconciliation
import QuantAgent.Lib.Base64
import QuantAgent.Lib.Json
import QuantAgent.Lib.JsonRoundTrip
import QuantAgent.Lib.JsonInjective
import QuantAgent.AIBacktest.Requests
import QuantAgent.AIBacktest.Runs
import QuantAgent.AIBacktest.SingleExecution
import QuantAgent.AIBacktest.Replay
import QuantAgent.AIBacktest.Closing
import QuantAgent.AIBacktest.Fingerprint
import QuantAgent.Research.DraftToken
import QuantAgent.Research.DraftTokenVerify
import QuantAgent.Lib.PyDate
import QuantAgent.DataSource.Filings
import QuantAgent.DataSource.Timeline
import QuantAgent.DataSource.Attach
import QuantAgent.DataSource.PointInTime
import QuantAgent.DataSource.Screening
import QuantAgent.DataSource.Relaxation
import QuantAgent.Lib.PyJoin
import QuantAgent.Lib.Binary64
import QuantAgent.Features.Compiler
import QuantAgent.Features.Candidate
import QuantAgent.Features.Evaluator
import QuantAgent.Features.SharedConditions
import QuantAgent.Features.RollingWindows
import QuantAgent.Lib.Returns
import QuantAgent.Engine.Progress
import QuantAgent.Features.Consecutive
import QuantAgent.Features.Flags
import QuantAgent.Campaign.Specs
import QuantAgent.Campaign.RiskPolicy
import QuantAgent.Campaign.Positions
import QuantAgent.Campaign.Generation
import QuantAgent.Campaign.Candidates
import QuantAgent.Campaign.Budget
import QuantAgent.Campaign.Selection
import QuantAgent.Campaign.Refinement
import QuantAgent.Lib.PyExcept
import QuantAgent.Campaign.Selected
import QuantAgent.Campaign.Runs
import QuantAgent.Campaign.FiniteCampaign
import QuantAgent.Campaign.Provenance
import QuantAgent.Campaign.Sealed
import QuantAgent.Campaign.SealedExecution
import QuantAgent.Campaign.RecommendationGate
import QuantAgent.Lib.Occurrences
import QuantAgent.Campaign.RsiRules
import QuantAgent.Campaign.RsiStatements
import QuantAgent.Campaign.RsiFaithful
import QuantAgent.Campaign.StrategyPreferences
import QuantAgent.Campaign.PositionCounts
import QuantAgent.Campaign.DurationPhrases
import QuantAgent.Campaign.DurationControls
import QuantAgent.WalkForward.Windows
import QuantAgent.Lib.SortedSet
import QuantAgent.Lib.Binary64Rounding
import QuantAgent.WalkForward.Metrics
import QuantAgent.WalkForward.FoldSelection
import QuantAgent.WalkForward.Benchmark
import QuantAgent.WalkForward.Cutoffs
import QuantAgent.Lib.Argsort
import QuantAgent.Features.Percentiles
import QuantAgent.Engine.ExecutionLedger
import QuantAgent.Lib.Codec
import QuantAgent.Jobs.JobDocument
import QuantAgent.Lib.Drawdown
import QuantAgent.Lib.ExactFloat
import QuantAgent.Lib.MonotoneFloat
import QuantAgent.Lib.RoundedFloat
import QuantAgent.WalkForward.SelectionMetrics
import QuantAgent.Features.PercentileRanks
import QuantAgent.Features.PriorExtremes
import QuantAgent.Lib.PrefixSums
import QuantAgent.Features.AcademicFactors
import QuantAgent.Lib.StripLower
import QuantAgent.Features.Warmup
import QuantAgent.Features.EntryScore
import QuantAgent.Features.EntryRanking
import QuantAgent.WalkForward.OfficialBenchmark
import QuantAgent.WalkForward.SelfFinancing
import QuantAgent.WalkForward.BenchmarkCausality
import QuantAgent.Lib.Pearson
import QuantAgent.Risk.PortfolioRisk
import QuantAgent.Risk.PairwiseCorrelation
import QuantAgent.Features.MissingInputs
import QuantAgent.Lib.Holdings
import QuantAgent.Features.ActionBook
import QuantAgent.Features.BookRuns
import QuantAgent.Features.CompiledActions
import QuantAgent.Features.CompiledBook
import QuantAgent.Features.FeatureMatrix
import QuantAgent.Features.RowMoves
import QuantAgent.Lib.StableSort
import QuantAgent.Features.ProfileActions
import QuantAgent.Features.RotationActions
import QuantAgent.Features.Generators
import QuantAgent.Features.ProfileBook
import QuantAgent.Features.RotationBook
import QuantAgent.Features.GeneratorBook
import QuantAgent.Features.GeneratorCausality
import QuantAgent.Features.RowCausality
import QuantAgent.Features.StoreQueries
import QuantAgent.Features.StoppedRuns
