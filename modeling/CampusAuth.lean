import CampusAuth.Lib.Machine
import CampusAuth.Monitor.Decision
import CampusAuth.Engine.AutoLogin
import CampusAuth.Engine.Cautious
import CampusAuth.Engine.Probing
import CampusAuth.Engine.StaleEvidence
import CampusAuth.Login.SessionOutcome
import CampusAuth.Login.ActiveSlot
import CampusAuth.Login.NoOverlap
import CampusAuth.Login.Cancellation
import CampusAuth.Login.SnippetLeak
import CampusAuth.Login.Redirect
import CampusAuth.Login.FlowBudget
import CampusAuth.Config.SettingsKept
import CampusAuth.Config.ActiveProfile
import CampusAuth.Config.ProfileSplit
import CampusAuth.Config.MigrationLossless
import CampusAuth.Bridge.SlotOwnership
import CampusAuth.Bridge.ExitIsolation
import CampusAuth.Bridge.DebugSession
import CampusAuth.Bridge.Framing
import CampusAuth.Scheduler.SingleRun
import CampusAuth.Scheduler.StartupCount
import CampusAuth.Scheduler.CronGap
import CampusAuth.Scheduler.Deletion
import CampusAuth.Tasks.SavedRuns
import CampusAuth.Update.Confinement
import CampusAuth.Update.CancelGate
import CampusAuth.Web.Operations
import CampusAuth.Frontend.AutosaveDrafts
import CampusAuth.Frontend.ScheduledDraft
import CampusAuth.Engine.LastCommand
import CampusAuth.Web.Ssrf
import CampusAuth.Web.IpRanges
import CampusAuth.Web.UrlCheckList
import CampusAuth.Web.ProfilePasswords
import CampusAuth.Web.PatchSafety
import CampusAuth.Web.ProfileShare
import CampusAuth.Config.Convergence
import CampusAuth.Uninstall.KeepData
import CampusAuth.Login.SessionAccount
import CampusAuth.Login.ReuseWindow
import CampusAuth.Login.MaskedText
import CampusAuth.Login.Substitution
import CampusAuth.Login.Ruijie
import CampusAuth.Login.Srun
import CampusAuth.Environment.Evidence
import CampusAuth.Environment.Gate
import CampusAuth.Environment.Mirrors
import CampusAuth.Environment.OcrTruth
import CampusAuth.Worker.Service
import CampusAuth.Worker.Selectors
import CampusAuth.Network.Framing
import CampusAuth.Network.SchoolDns
import CampusAuth.Ai.StreamDecoding
import CampusAuth.Monitor.Portal
import CampusAuth.Network.DefaultRoute
import CampusAuth.Scheduler.Wakeup
import CampusAuth.Scheduler.StartupRound
import CampusAuth.Scheduler.Weekday
import CampusAuth.Tasks.ListedIds
import CampusAuth.Update.ReleaseCheck
import CampusAuth.Update.VersionBlob
import CampusAuth.Login.History
import CampusAuth.Bridge.GuardRelease
import CampusAuth.Config.SlugForm
import CampusAuth.Bridge.Cancellation
import CampusAuth.Frontend.HttpTaskUntouched
import CampusAuth.Update.CrashConsistency
import CampusAuth.Worker.Injection
import CampusAuth.Tasks.StoreRuns
import CampusAuth.Worker.RunAll
import CampusAuth.Frontend.StatusView
import CampusAuth.Launch.Instance
import CampusAuth.Tasks.Transfer
