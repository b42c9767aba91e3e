import Ayatsuri.RunnerVerdict
import Ayatsuri.RunnerFinality
import Ayatsuri.RunnerProgress
import Ayatsuri.SubDAG
import Ayatsuri.CatchupDurability
import Ayatsuri.ScheduleOrder
import Ayatsuri.WatermarkFlush
import Ayatsuri.OneOffDispatch
import Ayatsuri.EntryReader
import Ayatsuri.QueueRefinement
import Ayatsuri.QueueProcesses
import Ayatsuri.QueueConcurrency
import Ayatsuri.StatusWrites
import Ayatsuri.LatestAttempt
import Ayatsuri.DirLock
import Ayatsuri.RunPages
import Ayatsuri.CatchupEnqueue
import Ayatsuri.DispatchCrash
import Ayatsuri.DispatchOnce
import Ayatsuri.ClientDispatchOnce
import Ayatsuri.ReportFinality
import Ayatsuri.LeaseRepairComplete
import Ayatsuri.DayIndex
import Ayatsuri.EventCommit
import Ayatsuri.ApprovalRequests
import Ayatsuri.ApprovalFinality
import Ayatsuri.StaleRuns
import Ayatsuri.WatermarkStore
import Ayatsuri.StepOutput
import Ayatsuri.LogPaths
import Ayatsuri.HistoryRepair
import Ayatsuri.SessionLoops
import Ayatsuri.SessionStream
import Ayatsuri.BashPolicy
import Ayatsuri.RetryBackoff
import Ayatsuri.ParallelExecutor
import Ayatsuri.AccountRevocation
import Ayatsuri.FireTimes
import Ayatsuri.CommandSubstitution
import Ayatsuri.StepNames
import Ayatsuri.StatusText
import Ayatsuri.StepSlices
import Ayatsuri.EnvMaps
import Ayatsuri.Conditions
import Ayatsuri.ServiceRegistry
import Ayatsuri.SearchPages
import Ayatsuri.SequenceNumbers
