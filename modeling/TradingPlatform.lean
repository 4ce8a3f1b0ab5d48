import TradingPlatform.Lib.Run
import TradingPlatform.Lib.Keyed
import TradingPlatform.Lib.Dict
import TradingPlatform.Lib.Ordered
import TradingPlatform.Lib.Choice
import TradingPlatform.Lib.Outcome
import TradingPlatform.Lib.Window
import TradingPlatform.Lib.Settling
import TradingPlatform.Lib.Tasks
import TradingPlatform.Lib.Tracked
import TradingPlatform.Lib.Yaml
import TradingPlatform.Lib.Joined
import TradingPlatform.Lib.Lockstep
import TradingPlatform.Lib.KeyedLog
import TradingPlatform.Lib.Rounding
import TradingPlatform.Lib.FloatingPoint
import TradingPlatform.Lib.Average
import TradingPlatform.Lib.Fresh
import TradingPlatform.Lib.Calendar
import TradingPlatform.Contracts
import TradingPlatform.Events
import TradingPlatform.State.Store
import TradingPlatform.State.Versions
import TradingPlatform.State.Ledger
import TradingPlatform.Execution.Engine
import TradingPlatform.Execution.Sizing
import TradingPlatform.Execution.Positions
import TradingPlatform.Execution.Simulated
import TradingPlatform.Execution.Effects
import TradingPlatform.Execution.EntryFill
import TradingPlatform.Execution.Account
import TradingPlatform.Execution.Coupling
import TradingPlatform.Execution.Reports
import TradingPlatform.Execution.Envelopes
import TradingPlatform.Execution.Lockstep
import TradingPlatform.Runtime.Lockstep
import TradingPlatform.Validation.Lockstep
import TradingPlatform.Engine.Aggregator
import TradingPlatform.Engine.RiskGates
import TradingPlatform.Engine.Consensus
import TradingPlatform.Providers.Base
import TradingPlatform.Providers.Technical
import TradingPlatform.Providers.Missing
import TradingPlatform.Engine.Decision
import TradingPlatform.Runtime.EventBus
import TradingPlatform.Runtime.Platform
import TradingPlatform.Runtime.Phases
import TradingPlatform.Runtime.NextOpen
import TradingPlatform.Runtime.PositionCap
import TradingPlatform.Runtime.SignalCount
import TradingPlatform.Runtime.DailyRisk
import TradingPlatform.Runtime.Collecting
import TradingPlatform.Runtime.Coupling
import TradingPlatform.Runtime.Idle
import TradingPlatform.Runtime.Direction
import TradingPlatform.Runtime.Reports
import TradingPlatform.Runtime.FailedCycles
import TradingPlatform.Runtime.LiveManager
import TradingPlatform.Data.LiveProvider
import TradingPlatform.Data.LatestRows
import TradingPlatform.Data.CsvProvider
import TradingPlatform.Data.OhlcvRange
import TradingPlatform.Data.MarketCache
import TradingPlatform.Runtime.LiveStack
import TradingPlatform.Validation.Metrics
import TradingPlatform.Validation.Regimes
import TradingPlatform.Validation.Score
import TradingPlatform.Validation.Scoring
import TradingPlatform.Validation.Selection
import TradingPlatform.Validation.Optimization
import TradingPlatform.Validation.ParallelTrials
import TradingPlatform.Config.Files
import TradingPlatform.Config.Reading
import TradingPlatform.Config.Service
import TradingPlatform.Config.Trial
import TradingPlatform.Config.Process
import TradingPlatform.Validation.Presets
import TradingPlatform.Config.Rewriting
import TradingPlatform.Config.Applying
import TradingPlatform.Governance.Concentration
import TradingPlatform.Governance.Evaluator
import TradingPlatform.Governance.Candidates
import TradingPlatform.Governance.Transitions
import TradingPlatform.Governance.Acceptance
import TradingPlatform.Governance.Records
import TradingPlatform.Governance.LiveGate
import TradingPlatform.Governance.Revisions
import TradingPlatform.Governance.Recording
import TradingPlatform.Runtime.LiveRevisions
import TradingPlatform.Governance.RecordedRuns
import TradingPlatform.Validation.Harness
import TradingPlatform.Validation.Job
import TradingPlatform.Validation.Attribution
import TradingPlatform.Validation.Cash
import TradingPlatform.Validation.StackLimits
import TradingPlatform.Validation.LossLimit
import TradingPlatform.Validation.Periods
import TradingPlatform.Validation.Lookahead
import TradingPlatform.Research.Stability
import TradingPlatform.Research.Holdout
import TradingPlatform.Research.Leakage
import TradingPlatform.Validation.TradeLedgers
import TradingPlatform.Validation.Ledgers
import TradingPlatform.Validation.JobRun
import TradingPlatform.Validation.RoundTrips
import TradingPlatform.Execution.ExitPrices
import TradingPlatform.Runtime.EntryBar
import TradingPlatform.Validation.Brackets
import TradingPlatform.Validation.Refinement
import TradingPlatform.Validation.Progress
import TradingPlatform.Validation.OrderlyProgress
import TradingPlatform.Validation.Trials
import TradingPlatform.Validation.Windows
import TradingPlatform.Lib.Series
import TradingPlatform.Features.Indicators
import TradingPlatform.Features.Rsi
import TradingPlatform.Features.Adx
import TradingPlatform.Features.SuperTrend
import TradingPlatform.Features.MarketStructure
import TradingPlatform.Lib.Memo
import TradingPlatform.Features.Sharing
import TradingPlatform.Features.Staleness
import TradingPlatform.Features.Crossing
import TradingPlatform.Validation.Warmup
import TradingPlatform.Providers.Levels
import TradingPlatform.Replay.Reexecutor
import TradingPlatform.Replay.History
import TradingPlatform.Replay.Snapshots
import TradingPlatform.Replay.Correlation
import TradingPlatform.Jobs.Queue
import TradingPlatform.Jobs.Places
import TradingPlatform.Jobs.Leases
import TradingPlatform.Jobs.Store
import TradingPlatform.Jobs.QueueMode
import TradingPlatform.Jobs.InProcess
import TradingPlatform.Jobs.ProgressStreams
import TradingPlatform.Carry.Position
import TradingPlatform.Carry.Hedge
import TradingPlatform.Carry.Settling
import TradingPlatform.Carry.LiveExecutor
import TradingPlatform.Carry.Runner
import TradingPlatform.Carry.Equity
import TradingPlatform.Carry.Reconciliation
import TradingPlatform.Carry.Funding
import TradingPlatform.Engine.RejectionLog
import TradingPlatform.Data.EmptyGaps
import TradingPlatform.Research.RegimeLabels
import TradingPlatform.Carry.Costs
import TradingPlatform.Validation.StoredMetrics
import TradingPlatform.Carry.BasisCarry
import TradingPlatform.Lib.Matching
import TradingPlatform.Governance.Comparison
import TradingPlatform.Lib.Causality
import TradingPlatform.Execution.Causation
import TradingPlatform.Runtime.CycleRule
import TradingPlatform.Replay.CausalGraph
import TradingPlatform.Carry.BlendedBook
import TradingPlatform.Features.Builder
import TradingPlatform.Runtime.BuiltFeatures
import TradingPlatform.Replay.FeatureDrift
import TradingPlatform.Replay.StepDrift
import TradingPlatform.Lib.OrderLog
import TradingPlatform.Execution.OrderFlow
import TradingPlatform.Db.Orders
import TradingPlatform.Runtime.OrderFlow
import TradingPlatform.Lib.Online
import TradingPlatform.Research.Direction
import TradingPlatform.Research.Ensemble
import TradingPlatform.Research.Magnitude
import TradingPlatform.Research.Classification
import TradingPlatform.Runtime.Rebuilding
import TradingPlatform.Execution.EventTypes
import TradingPlatform.Runtime.Shape
import TradingPlatform.Replay.Timeline
import TradingPlatform.Runtime.BookRule
import TradingPlatform.Validation.HoldingLimit
import TradingPlatform.Runtime.PassRule
import TradingPlatform.Validation.Deals
import TradingPlatform.Validation.Trades
