import MmAudit.Library.Decimal
import MmAudit.Library.DecimalText
import MmAudit.Library.Dict
import MmAudit.Library.Fallible
import MmAudit.Library.Logged
import MmAudit.Library.Keyed
import MmAudit.Library.PrefixCode
import MmAudit.CostLedger.State
import MmAudit.CostLedger.Operations
import MmAudit.CostLedger.Reading
import MmAudit.CostLedger.Steps
import MmAudit.CostLedger.Cap
import MmAudit.CostLedger.Durability
import MmAudit.CostLedger.Lifecycle
import MmAudit.Budget.Evidence
import MmAudit.Budget.Manager
import MmAudit.Budget.Scoped
import MmAudit.Budget.Accounting
import MmAudit.Budget.Closing
import MmAudit.Budget.Caps
import MmAudit.Scheduler.Records
import MmAudit.Scheduler.Building
import MmAudit.Scheduler.Journal
import MmAudit.Scheduler.Loading
import MmAudit.Scheduler.Recovery
import MmAudit.Scheduler.Indexing
import MmAudit.Scheduler.Guarantees
import MmAudit.Scheduler.Phases
import MmAudit.Scheduler.Writing
import MmAudit.Scheduler.Coherence
import MmAudit.Scheduler.Transitions
import MmAudit.Scheduler.Resuming
import MmAudit.Scheduler.Acceptance
import MmAudit.Scheduler.Canonical
import MmAudit.Scheduler.Dispatch
import MmAudit.Scheduler.Promises
import MmAudit.Scheduler.Careful
import MmAudit.Scheduler.CrashSafety
import MmAudit.Scheduler.Reconstruction
import MmAudit.Scheduler.Retaining
import MmAudit.Library.Spans
import MmAudit.Library.Glob
import MmAudit.Repository.Redaction
import MmAudit.Repository.Ignore
import MmAudit.Repository.Pruning
import MmAudit.Repository.Discovery
import MmAudit.Library.TextLines
import MmAudit.Repository.Chunking
import MmAudit.Repository.Locations
import MmAudit.Ci.Ratchet
import MmAudit.Consensus.EvidenceCap
import MmAudit.Benchmark.Recognition
import MmAudit.Foundry.Verdict
import MmAudit.Consensus.Identity
import MmAudit.Review.Feasibility
import MmAudit.Replay.Accounting
import MmAudit.Isolation.Exactness
import MmAudit.Budget.PriceBounds
import MmAudit.Consensus.Anchors
import MmAudit.Consensus.Arrangements
import MmAudit.Context.EntryPath
import MmAudit.CostLedger.Admission
import MmAudit.CostLedger.RoundTrip
import MmAudit.Scheduler.Finishing
import MmAudit.Scheduler.Sealing
import MmAudit.CostLedger.Closing
import MmAudit.CostRecovery.Concluding
import MmAudit.CostRecovery.Promises
import MmAudit.Library.Runs
import MmAudit.Rpc.Admission
import MmAudit.Rpc.Answers
import MmAudit.ForkMatrix.Sanitizing
import MmAudit.Library.Collecting
import MmAudit.Library.IntegerText
import MmAudit.Library.MarkedLines
import MmAudit.Library.SortedSets
import MmAudit.Repository.Covering
import MmAudit.Repository.Excerpts
import MmAudit.Repository.Inventory
import MmAudit.Repository.RedactedLines
import MmAudit.Rpc.ForkIdentity
import MmAudit.Solidity.Layouts
import MmAudit.Solidity.Upgrades
import MmAudit.Verification.Clashes
import MmAudit.Verification.Staleness
import MmAudit.Ci.ExecutedTests
import MmAudit.Consensus.Acceptance
import MmAudit.Foundry.Normalizing
import MmAudit.ForkMatrix.Deadlines
import MmAudit.ForkMatrix.Sufficiency
import MmAudit.Benchmark.Mutations
import MmAudit.Benchmark.Reversal
import MmAudit.Library.LayeredSearch
import MmAudit.Review.Reachability
import MmAudit.Formal.Attribution
import MmAudit.Formal.Campaigns
import MmAudit.Formal.Overclaims
import MmAudit.Rpc.Accounts
import MmAudit.Rpc.Pinning
import MmAudit.Rpc.Shapes
