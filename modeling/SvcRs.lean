import SvcRs.ForStd.Handles
import SvcRs.Native.Buffer
import SvcRs.Native.Files
import SvcRs.Spec.AutoRestart
import SvcRs.Spec.Breaker
import SvcRs.Spec.Calls
import SvcRs.Spec.Decimals
import SvcRs.Spec.DependencyClosure
import SvcRs.Spec.DependsFile
import SvcRs.Spec.DerivedPaths
import SvcRs.Spec.DescriptorTable
import SvcRs.Spec.Draining
import SvcRs.Spec.FaultIsolation
import SvcRs.Spec.Files
import SvcRs.Spec.History
import SvcRs.Spec.Inherited
import SvcRs.Spec.Init
import SvcRs.Spec.Isolation
import SvcRs.Spec.Listing
import SvcRs.Spec.LogFiles
import SvcRs.Spec.LoggerTold
import SvcRs.Spec.Loggers
import SvcRs.Spec.LoggersWatched
import SvcRs.Spec.Numbers
import SvcRs.Spec.OpenFiles
import SvcRs.Spec.Output
import SvcRs.Spec.PartialScan
import SvcRs.Spec.Polling
import SvcRs.Spec.ReadEnds
import SvcRs.Spec.Removal
import SvcRs.Spec.Rendering
import SvcRs.Spec.Restart
import SvcRs.Spec.ScanSync
import SvcRs.Spec.Shortcuts
import SvcRs.Spec.Shutdown
import SvcRs.Spec.ShutdownEnd
import SvcRs.Spec.SignalPipe
import SvcRs.Spec.SlotProtocol
import SvcRs.Spec.SplitCmd
import SvcRs.Spec.StartConditions
import SvcRs.Spec.StartTwice
import SvcRs.Spec.Startup
import SvcRs.Spec.StatusTruth
import SvcRs.Spec.StaysDown
import SvcRs.Spec.StopState
import SvcRs.Spec.StopSticks
import SvcRs.Spec.SupervisorLog
import SvcRs.Spec.Throttle
import SvcRs.Spec.UserFile
import SvcRs.Spec.Wiring
