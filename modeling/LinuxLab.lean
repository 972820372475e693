import LinuxLab.Lib.Exec
import LinuxLab.Lib.KeyedList
import LinuxLab.Lib.LinkedHeap
import LinuxLab.Lib.Claims
import LinuxLab.Lib.CString
import LinuxLab.Lib.Descriptors
import LinuxLab.Lib.FileTree
import LinuxLab.Lib.IntExpr
import LinuxLab.Lib.Decimal
import LinuxLab.Lib.Strtok
import LinuxLab.Lib.UserCopy
import LinuxLab.Lib.Blocks
import LinuxLab.Lib.Rounding
import LinuxLab.Lib.Resources
import LinuxLab.Wlinkd.Utils
import LinuxLab.Wlinkd.StaMgr
import LinuxLab.Wlinkd.Libnl
import LinuxLab.Wlinkd.Nl80211
import LinuxLab.Wlinkd.Changes
import LinuxLab.Wlinkd.StationMap
import LinuxLab.Wlinkd.Scenario
import LinuxLab.Wlinkd.StationHeap
import LinuxLab.Wlinkd.StatusWalk
import LinuxLab.Wlinkd.History
import LinuxLab.Drivers.LedGpio
import LinuxLab.Wlinkd.Occupancy
import LinuxLab.Wlinkd.Refresh
import LinuxLab.Wlinkd.Completion
import LinuxLab.Wlinkd.Receiving
import LinuxLab.Wlinkd.DumpOrder
import LinuxLab.Wlinkd.Traffic
import LinuxLab.Wlinkd.TcpServer
import LinuxLab.Wlinkd.Monitor
import LinuxLab.Wlinkd.Connections
import LinuxLab.Wlinkd.Lifecycle
import LinuxLab.Wlinkd.Commands
import LinuxLab.Wlinkd.Status
import LinuxLab.Wlinkd.Ipc
import LinuxLab.Wlinkd.Subscribers
import LinuxLab.Wlinkd.Replies
import LinuxLab.Core.LedWatcher
import LinuxLab.Core.DiskService
import LinuxLab.Lab.LedView
import LinuxLab.Lab.Shutdown
import LinuxLab.Drivers.SensorSpi
import LinuxLab.Drivers.Transfers
import LinuxLab.Drivers.Compensation
import LinuxLab.Drivers.TemperatureText
import LinuxLab.Drivers.Notify
import LinuxLab.Drivers.ButtonInterrupt
import LinuxLab.Lab.WpsButton
import LinuxLab.Drivers.CharDevice
import LinuxLab.Drivers.ModuleInit
import LinuxLab.Drivers.Unload
import LinuxLab.Drivers.ExitRequest
import LinuxLab.Drivers.Registrant
import LinuxLab.Utils.SplitLine
import LinuxLab.Utils.CommandLoop
import LinuxLab.Utils.Shell
import LinuxLab.Utils.Dumpstate
