import OnlineJudge.Lib.Machine
import OnlineJudge.Lib.Channel
import OnlineJudge.Lib.Words
import OnlineJudge.Lib.Lifetime
import OnlineJudge.Lib.WorkQueue
import OnlineJudge.Protocol
import OnlineJudge.Transfer
import OnlineJudge.TransferLoops
import OnlineJudge.Framing
import OnlineJudge.StatusPipe
import OnlineJudge.StatusRecords
import OnlineJudge.Result
import OnlineJudge.Scheduler
import OnlineJudge.Identity
import OnlineJudge.Judge
import OnlineJudge.World
import OnlineJudge.Children
import OnlineJudge.Supervisor
import OnlineJudge.Runner
import OnlineJudge.System
import OnlineJudge.Deadline
import OnlineJudge.Output
import OnlineJudge.Verdicts
import OnlineJudge.Submission
import OnlineJudge.FailFast
import OnlineJudge.Compiling
import OnlineJudge.SubmissionQueue
import OnlineJudge.Workers
import OnlineJudge.Lib.BoundedQueue
import OnlineJudge.Admission
import OnlineJudge.Lib.WorkerPool
import OnlineJudge.Pools
import OnlineJudge.Work
import OnlineJudge.Unblocked
import OnlineJudge.Progress
import OnlineJudge.Lifecycle
import OnlineJudge.Uneventful
import OnlineJudge.Lib.SharedTable
import OnlineJudge.SetupReports
import OnlineJudge.Sigpipe
import OnlineJudge.Containment
import OnlineJudge.Lineage
import OnlineJudge.Custody
import OnlineJudge.Opening
import OnlineJudge.Agreement
import OnlineJudge.Reaping
import OnlineJudge.Survivors
import OnlineJudge.Recognition
import OnlineJudge.Ending
import OnlineJudge.Removal
import OnlineJudge.Rollback
import OnlineJudge.Eviction
import OnlineJudge.Creation
import OnlineJudge.Ownership
import OnlineJudge.Delivery
import OnlineJudge.Lib.FdTable
import OnlineJudge.Redirection
import OnlineJudge.Lib.Frames
import OnlineJudge.Manned
import OnlineJudge.Wire
import OnlineJudge.Session
import OnlineJudge.Outcomes
import OnlineJudge.Heeding
import OnlineJudge.Inheritance
import OnlineJudge.Report
import OnlineJudge.Billing
import OnlineJudge.Lib.FlatKeyed
import OnlineJudge.Events
import OnlineJudge.Lib.MountTable
import OnlineJudge.Isolation
import OnlineJudge.Acceptance
