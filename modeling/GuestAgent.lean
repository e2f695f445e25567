import GuestAgent.Guarantees.ActionPaths
import GuestAgent.Guarantees.ArgumentVector
import GuestAgent.Guarantees.AttackReported
import GuestAgent.Guarantees.Baseline
import GuestAgent.Guarantees.BranchPruning
import GuestAgent.Guarantees.Candidates
import GuestAgent.Guarantees.ChildStart
import GuestAgent.Guarantees.CircularLoops
import GuestAgent.Guarantees.CountedStrings
import GuestAgent.Guarantees.CreatedPaths
import GuestAgent.Guarantees.DisabledControls
import GuestAgent.Guarantees.Download
import GuestAgent.Guarantees.DuplicateChecks
import GuestAgent.Guarantees.EventArrival
import GuestAgent.Guarantees.EventText
import GuestAgent.Guarantees.FileHistory
import GuestAgent.Guarantees.FileIdentity
import GuestAgent.Guarantees.FileJournal
import GuestAgent.Guarantees.FileNames
import GuestAgent.Guarantees.FileTransfer
import GuestAgent.Guarantees.FramingRoundTrip
import GuestAgent.Guarantees.HandleNames
import GuestAgent.Guarantees.HandlePaths
import GuestAgent.Guarantees.HookReentry
import GuestAgent.Guarantees.HookReturn
import GuestAgent.Guarantees.HookRuns
import GuestAgent.Guarantees.HookTransparency
import GuestAgent.Guarantees.IdleWait
import GuestAgent.Guarantees.InjectorStart
import GuestAgent.Guarantees.InteractionScreen
import GuestAgent.Guarantees.JobReported
import GuestAgent.Guarantees.JobResult
import GuestAgent.Guarantees.JobSubmission
import GuestAgent.Guarantees.PayloadExtraction
import GuestAgent.Guarantees.PidLists
import GuestAgent.Guarantees.PidsWait
import GuestAgent.Guarantees.PipeClients
import GuestAgent.Guarantees.PipeServing
import GuestAgent.Guarantees.PipeThreads
import GuestAgent.Guarantees.PopTodoJob
import GuestAgent.Guarantees.ProcessForest
import GuestAgent.Guarantees.ProcessesReported
import GuestAgent.Guarantees.ProgressBars
import GuestAgent.Guarantees.QuietPeriod
import GuestAgent.Guarantees.RankedHash
import GuestAgent.Guarantees.Reaction
import GuestAgent.Guarantees.Redelivery
import GuestAgent.Guarantees.Refusals
import GuestAgent.Guarantees.RegistryBaseline
import GuestAgent.Guarantees.RegistryChanges
import GuestAgent.Guarantees.RegistryNames
import GuestAgent.Guarantees.RenameTarget
import GuestAgent.Guarantees.ReportBodies
import GuestAgent.Guarantees.ReportEnds
import GuestAgent.Guarantees.ReportRetry
import GuestAgent.Guarantees.ReportSnapshot
import GuestAgent.Guarantees.ReportedFiles
import GuestAgent.Guarantees.ServedThreads
import GuestAgent.Guarantees.ServiceStart
import GuestAgent.Guarantees.StableWindow
import GuestAgent.Guarantees.Suspension
import GuestAgent.Guarantees.TempFolder
import GuestAgent.Guarantees.TodoLifeCycle
import GuestAgent.Guarantees.VirtualMachines
import GuestAgent.Guarantees.WindowsOnce
import GuestAgent.Guarantees.WorkerSteps
import GuestAgent.Guarantees.WriteCoverage
import GuestAgent.Guarantees.WriteFlags
import GuestAgent.Library.Bytes
import GuestAgent.Library.Collapse
import GuestAgent.Library.Effects
import GuestAgent.Library.FileStream
import GuestAgent.Library.Holders
import GuestAgent.Library.Like
import GuestAgent.Library.LiveView
import GuestAgent.Library.Methods
import GuestAgent.Library.MultiString
import GuestAgent.Library.ObjectTable
import GuestAgent.Library.Observation
import GuestAgent.Library.Outcome
import GuestAgent.Library.ParentMap
import GuestAgent.Library.Patch
import GuestAgent.Library.Polling
import GuestAgent.Library.Quoting
import GuestAgent.Library.Raising
import GuestAgent.Library.RelyGuarantee
import GuestAgent.Library.Retry
import GuestAgent.Library.Rounding
import GuestAgent.Library.Runs
import GuestAgent.Library.Scan
import GuestAgent.Library.SearchTree
import GuestAgent.Library.Split
import GuestAgent.Library.Table
import GuestAgent.Library.Utf16
import GuestAgent.Library.Utf8
import GuestAgent.Library.WaitQueue
import GuestAgent.Library.Watched
import GuestAgent.Library.XmlTag
import GuestAgent.Source.ArgumentVector
import GuestAgent.Source.BusyWait
import GuestAgent.Source.CandidateSet
import GuestAgent.Source.EventPipe
import GuestAgent.Source.EventServer
import GuestAgent.Source.EventText
import GuestAgent.Source.Events
import GuestAgent.Source.FileHistory
import GuestAgent.Source.FileTable
import GuestAgent.Source.FileTransfer
import GuestAgent.Source.FrameworkPaths
import GuestAgent.Source.HandleNames
import GuestAgent.Source.Hooks
import GuestAgent.Source.HostDatabase
import GuestAgent.Source.IdleWait
import GuestAgent.Source.Injectors
import GuestAgent.Source.Interaction
import GuestAgent.Source.InteractionScreen
import GuestAgent.Source.JobExecution
import GuestAgent.Source.JobSubmission
import GuestAgent.Source.MitmReport
import GuestAgent.Source.MitmTest
import GuestAgent.Source.Monitoring
import GuestAgent.Source.NativeHooks
import GuestAgent.Source.NetworkWorker
import GuestAgent.Source.PipeThreads
import GuestAgent.Source.PopTodoJob
import GuestAgent.Source.ProcessLaunch
import GuestAgent.Source.ProcessTree
import GuestAgent.Source.Processes
import GuestAgent.Source.RankingPolicy
import GuestAgent.Source.Registry
import GuestAgent.Source.RegistryReport
import GuestAgent.Source.Report
import GuestAgent.Source.Runtime
import GuestAgent.Source.ServiceStart
import GuestAgent.Source.TcpFraming
import GuestAgent.Source.TodoJob
import GuestAgent.Source.Traversal
import GuestAgent.Source.VMManager
import GuestAgent.Source.VisitedWindows
import GuestAgent.Source.VisualRanker
import GuestAgent.Source.WaitForInput
import GuestAgent.Source.WinMain
