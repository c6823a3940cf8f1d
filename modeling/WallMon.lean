import WallMon.Transition
import WallMon.CheckedInt
import WallMon.CArray
import WallMon.Framing
import WallMon.StreamItem
import WallMon.ByteBuffer
import WallMon.BufferOperations
import WallMon.DataSink
import WallMon.Server
import WallMon.BufferGrowth
import WallMon.HostileStreams
import WallMon.FailedReads
import WallMon.Monitor
import WallMon.Queue
import WallMon.Alignment
import WallMon.Sockets
import WallMon.Threads
import WallMon.Misdelivery
import WallMon.OneCopy
import WallMon.Carried
import WallMon.CallOrder
import WallMon.MonitorDispatcher
import WallMon.Scheduler
import WallMon.DataRouter
import WallMon.Rescheduling
import WallMon.MessageRouter
import WallMon.Pipeline
import WallMon.Delivery
import WallMon.Shutdown
import WallMon.Statistics
import WallMon.Datagrams
import WallMon.Utf8
import WallMon.WireFormat
import WallMon.WireParsing
import WallMon.DispatcherMessage
import WallMon.Dispatching
import WallMon.Wakeups
import WallMon.Table
import WallMon.TableRows
import WallMon.Removal
import WallMon.TableCalls
import WallMon.Tile
import WallMon.HitTesting
import WallMon.Replicas
import WallMon.Scrolling
import WallMon.CpuTimes
import WallMon.Display
import WallMon.CpuBoids
import WallMon.MessageFormat
import WallMon.SequenceNumbers
import WallMon.ConnectTarget
import WallMon.PidMonitor
import WallMon.Scan
import WallMon.LinuxProcessMonitorLight
import WallMon.StatLine
import WallMon.IoBytes
import WallMon.ProcessCollector
import WallMon.DefinedProcesses
import WallMon.PidListing
import WallMon.Sampling
import WallMon.Coverage
import WallMon.SingleMonitor
import WallMon.Notices
import WallMon.Grouping
import WallMon.TableGroups
import WallMon.Selection
import WallMon.SubTable
import WallMon.FullQueues
import WallMon.Data
import WallMon.Scene
import WallMon.TouchManager
import WallMon.Touches
import WallMon.TouchIds
import WallMon.Mouse
import WallMon.Roster
import WallMon.Gestures
import WallMon.Boid
import WallMon.Arrival
import WallMon.Tails
import WallMon.Fps
import WallMon.Binary64
import WallMon.DisplayAreas
import WallMon.Stat
import WallMon.StatFiles
import WallMon.UnsignedStat
import WallMon.Buckets
import WallMon.GnuplotHandler
import WallMon.SampleLimit
import WallMon.SavedStats
import WallMon.SamplingPlan
import WallMon.Heaps
import WallMon.BarChart
import WallMon.Latest
import WallMon.LoadTotals
import WallMon.Charts
import WallMon.HitBoxes
import WallMon.Highlights
