import RelayFold.Library.FiniteMap
import RelayFold.Core.Json
import RelayFold.Core.Task
import RelayFold.Core.AttemptIds
import RelayFold.Core.Workflow
import RelayFold.Core.Events
import RelayFold.Library.VersionedLog
import RelayFold.Core.StateManager
import RelayFold.Adapters.MemoryStorage
import RelayFold.Library.Folds
import RelayFold.Core.EventReplay
import RelayFold.Library.Runs
import RelayFold.Adapters.MemoryStorageRuns
import RelayFold.Core.EventEffects
import RelayFold.Core.EventTargets
import RelayFold.Core.WorkEvents
import RelayFold.Core.ChangedTasks
import RelayFold.Adapters.SqlStorage
import RelayFold.Adapters.SqlSaves
import RelayFold.Adapters.SqlRefinement
import RelayFold.Library.EdgeLists
import RelayFold.Core.LoopSlices
import RelayFold.Core.Validation
import RelayFold.Core.AcceptedDefs
import RelayFold.Core.SliceFacts
import RelayFold.Core.GraphLoops
import RelayFold.Core.NormalizedDefs
import RelayFold.Core.Renormalization
import RelayFold.Engine.Scheduling
import RelayFold.Engine.VerifierTransition
import RelayFold.Engine.TaskResults
import RelayFold.Engine.Pass
import RelayFold.Engine.System
import RelayFold.Engine.ResultEvents
import RelayFold.Engine.SliceOrder
import RelayFold.Library.IterationOrders
import RelayFold.Engine.HashOrders
import RelayFold.Engine.InputSources
import RelayFold.Engine.Materialization
import RelayFold.Engine.Answers
import RelayFold.Engine.ResultEffects
import RelayFold.Engine.Verdicts
import RelayFold.Engine.Outcomes
import RelayFold.Lifecycle.Writes
import RelayFold.Lifecycle.Generations
import RelayFold.Lifecycle.Attempts
import RelayFold.Lifecycle.Soundness
import RelayFold.Lifecycle.PassInvariant
import RelayFold.Lifecycle.Refinement
import RelayFold.Lifecycle.AttemptLifecycle
import RelayFold.Adapters.MemoryWorkflowQueue
import RelayFold.Adapters.QueueDiscipline
import RelayFold.Adapters.PointReads
import RelayFold.Core.FieldDecoding
import RelayFold.Adapters.ColumnDecoding
import RelayFold.Adapters.EventLogReplay
import RelayFold.Orchestrator.QueuedInstance
import RelayFold.Orchestrator.PauseResume
import RelayFold.Lifecycle.RootInputs
import RelayFold.Library.KeysetPages
import RelayFold.Library.PageEnumeration
import RelayFold.Library.DrainedPages
import RelayFold.Library.DelimitedText
import RelayFold.Library.Noninterference
import RelayFold.Library.PosixPaths
import RelayFold.Lifecycle.Failures
import RelayFold.Lifecycle.Pins
import RelayFold.Lifecycle.WriteEffects
import RelayFold.Lifecycle.SliceStarts
import RelayFold.Lifecycle.Commits
import RelayFold.Lifecycle.AnswersRecorded
import RelayFold.Lifecycle.ConcurrentPasses
import RelayFold.Lifecycle.PausedResults
import RelayFold.Core.Worker
import RelayFold.Adapters.TaskDispatcher
import RelayFold.Adapters.DispatcherLeases
import RelayFold.Adapters.ClaimSteps
import RelayFold.Adapters.ClaimTables
import RelayFold.Adapters.ClaimSenders
import RelayFold.Library.WakeUps
import RelayFold.Adapters.ClaimWakeUps
import RelayFold.Adapters.WorkerRegistry
import RelayFold.Adapters.WorkflowListing
import RelayFold.Adapters.CommitHistories
import RelayFold.Adapters.EventPages
import RelayFold.Adapters.CompletionDates
import RelayFold.Adapters.InfoQueries
import RelayFold.Adapters.StorageOperations
import RelayFold.Adapters.NamespaceIsolation
import RelayFold.Adapters.WorkspacePaths
import RelayFold.Orchestrator.Discovery
import RelayFold.Orchestrator.StartupRecovery
import RelayFold.Orchestrator.HostLoss
import RelayFold.Orchestrator.WorkflowPages
import RelayFold.Orchestrator.CronScheduler
import RelayFold.Orchestrator.BulkRequests
import RelayFold.Lifecycle.AttemptOrder
import RelayFold.Lifecycle.VerifierAnswers
import RelayFold.Lifecycle.VerifierAgreement
import RelayFold.Lifecycle.HumanInput
import RelayFold.Lifecycle.Decisions
import RelayFold.Lifecycle.EarlyExit
import RelayFold.Lifecycle.VerifierProgress
import RelayFold.Lifecycle.ExitCompletion
import RelayFold.Lifecycle.PassTermination
import RelayFold.Lifecycle.PassDispatches
import RelayFold.Lifecycle.IterationBudget
import RelayFold.Lifecycle.PassOutcomes
import RelayFold.Lifecycle.SliceOrders
import RelayFold.Lifecycle.NoPanics
import RelayFold.Lifecycle.Satisfaction
import RelayFold.Orchestrator.Deployment
import RelayFold.Engine.SliceGraph
import RelayFold.Lifecycle.SourceOrder
import RelayFold.Lifecycle.FirstGeneration
import RelayFold.Lifecycle.Tangles
import RelayFold.Lifecycle.Completion
import RelayFold.Lifecycle.SliceGenerations
import RelayFold.Lifecycle.RecordedInputs
import RelayFold.Adapters.LeaseExpiry
import RelayFold.Library.CodeUnits
import RelayFold.Library.JsonTokens
import RelayFold.Library.JsonText
import RelayFold.Library.JsonWriting
import RelayFold.Library.Interpolation
import RelayFold.Worker.CredentialResolver
import RelayFold.Worker.AgentOutput
import RelayFold.Worker.FunctionOutput
import RelayFold.Engine.OutputContracts
import RelayFold.Lifecycle.Agreement
import RelayFold.Lifecycle.CompletedRuns
import RelayFold.Lifecycle.Confluence
import RelayFold.Lifecycle.TransientFailures
import RelayFold.Lifecycle.CanonicalOrder
import RelayFold.Lifecycle.HashOrders
