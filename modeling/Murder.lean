import Murder.Activities.Budget
import Murder.Activities.Exclusion
import Murder.Activities.Fencing
import Murder.Activities.Granting
import Murder.Activities.Reaping
import Murder.Facts.Resumption
import Murder.Workflows.Batches
import Murder.Workflows.Concurrency
import Murder.Workflows.Ordering
import Murder.Workflows.Draining
import Murder.Editor.Agreement
import Murder.Triggers.ExactlyOnce
import Murder.Triggers.LocalFires
import Murder.Conversations.Transcripts
import Murder.Conversations.Placement
import Murder.Contracts.Equality
import Murder.Conversations.Repetition
import Murder.Sessions.Contracts
import Murder.Permissions.Persistence
import Murder.Terminal.Invariant
import Murder.Terminal.Keyframes
import Murder.Terminal.Delivery
import Murder.Terminal.Input
import Murder.Harness.ComposerEntry
import Murder.Harness.Recovery
import Murder.Harness.SafeFailure
import Murder.Commands.Claims
import Murder.Evidence.Fixpoint
import Murder.Evidence.Omission
import Murder.Transcripts.Finality
import Murder.Completion.Markers
import Murder.Decisions.Occurrences
import Murder.Chat.Outbox
import Murder.Terminal.Convergence
import Murder.Harness.Operations
import Murder.Harness.Permissions
import Murder.Harness.Questions
import Murder.Triggers.Grammar
import Murder.Library.FlatJson
import Murder.Triggers.Repository
import Murder.Triggers.CronDelivery
import Murder.Editor.Reducer
import Murder.Contracts.Identifiers
import Murder.Facts.PayloadStorage
import Murder.Facts.Idempotence
import Murder.Terminal.Reached
import Murder.Terminal.Combining
import Murder.Terminal.Reset
import Murder.Library.Trimming
import Murder.Permissions.Paths
import Murder.Contracts.Casing
import Murder.Permissions.Destinations
import Murder.Contracts.Text
import Murder.Permissions.Operations
import Murder.Permissions.Reload
import Murder.Terminal.ControlMode
import Murder.Completion.Tickets
import Murder.Library.Lines
import Murder.Evidence.Rendering
import Murder.Library.Patches
import Murder.Evidence.Diffs
import Murder.Evidence.Store
import Murder.Evidence.Deliveries
import Murder.Evidence.LedgerTables
import Murder.Evidence.TwoPhase
import Murder.Evidence.Deletions
import Murder.Ranking.Shaping
import Murder.Ranking.Fitting
import Murder.Ranking.Windows
import Murder.Ranking.Budgets
import Murder.Library.Curves
import Murder.Scheduling.Threshold
import Murder.Tickets.Markdown
import Murder.Tickets.RoundTrip
import Murder.Tickets.Fixpoint
import Murder.Library.Greedy
import Murder.Grading.Validation
import Murder.Grading.Ceilings
import Murder.Grading.HintSurvival
import Murder.Candidates.ActiveDiff
import Murder.Candidates.DiffParsing
import Murder.Extraction.Containment
import Murder.Harness.SubmitAcknowledgment
import Murder.Harness.VisualRows
import Murder.Harness.Fingerprints
import Murder.Harness.AnswerSummaries
import Murder.Harness.MenuLowering
import Murder.Harness.UsageRetries
import Murder.Harness.ModelReadback
import Murder.Harness.PickerTraversal
import Murder.Harness.AtomicIngestion
import Murder.Harness.EvidenceRestart
import Murder.Acp.OpenTurns
import Murder.Acp.TranscriptOrder
import Murder.AgentSdk.OnceEach
import Murder.Transcripts.Dedupe
import Murder.Transcripts.Splicing
import Murder.Panes.Axis
