import HiFetch.AdvancedDisplay.Charts
import HiFetch.AdvancedDisplay.Widgets
import HiFetch.Ascii.Columns
import HiFetch.Ascii.Separator
import HiFetch.Hardware.PciIds
import HiFetch.Hardware.Sensors
import HiFetch.Memory.CacheAtomicity
import HiFetch.Memory.CacheCleanup
import HiFetch.Memory.CacheInterleaving
import HiFetch.Memory.CacheNodes
import HiFetch.Memory.CachedRuns
import HiFetch.Memory.LockDiscipline
import HiFetch.Memory.PoolDestroy
import HiFetch.Memory.Sizes
import HiFetch.Memory.TrackerInterleaving
import HiFetch.Monitor.CommandLine
import HiFetch.Monitor.CpuTables
import HiFetch.Monitor.Display
import HiFetch.Monitor.Graphs
import HiFetch.Monitor.SeenIsKilled
import HiFetch.Monitor.Sorting
import HiFetch.Monitor.StatLine
import HiFetch.Network.Commands
import HiFetch.Network.Connections
import HiFetch.Network.InterfaceScan
import HiFetch.Network.Routes
import HiFetch.Network.Traceroute
import HiFetch.Performance.Benchmarks
import HiFetch.Performance.CpuPerformance
import HiFetch.Performance.InterfaceNames
import HiFetch.Performance.Rates
import HiFetch.Profiler.Durations
import HiFetch.Profiler.SamplerJoin
import HiFetch.Profiler.Sampling
import HiFetch.Profiler.SavedRuns
import HiFetch.Profiler.Statistics
import HiFetch.Profiler.ThreadEntries
import HiFetch.Security.Commands
import HiFetch.Security.Paths
import HiFetch.Simd.Newlines
import HiFetch.Sysinfo.MemInfo
import HiFetch.Sysinfo.OsName
import HiFetch.Sysinfo.Shown
import HiFetch.Utils.CommandOutput
import HiFetch.Utils.RingInvariant
