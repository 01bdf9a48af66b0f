import GreaseLog.BankCallbacks
import GreaseLog.BankSafety
import GreaseLog.BankStreams
import GreaseLog.BankThreads
import GreaseLog.Banks
import GreaseLog.ClientEntries
import GreaseLog.ClientFailures
import GreaseLog.ClientSends
import GreaseLog.ClientSockets
import GreaseLog.ClientThreads
import GreaseLog.Commands
import GreaseLog.CustomErrors
import GreaseLog.DefaultTargets
import GreaseLog.Delivery
import GreaseLog.Dispatch
import GreaseLog.DrainLoop
import GreaseLog.EntryEncoding
import GreaseLog.FifoThreads
import GreaseLog.FifoWakes
import GreaseLog.FileOrder
import GreaseLog.FileRotation
import GreaseLog.FileRuns
import GreaseLog.FileShift
import GreaseLog.FileWrites
import GreaseLog.FilterOptions
import GreaseLog.FilterRegistry
import GreaseLog.FilterTable
import GreaseLog.Flushing
import GreaseLog.Format
import GreaseLog.Framing
import GreaseLog.GreaseRefs
import GreaseLog.Handled
import GreaseLog.Ignored
import GreaseLog.Khash
import GreaseLog.KhashFilters
import GreaseLog.KhashOrder
import GreaseLog.KhashPut
import GreaseLog.KhashResize
import GreaseLog.KhashSlots
import GreaseLog.LevelMask
import GreaseLog.Lib.BoundedQueue
import GreaseLog.Lib.CondVar
import GreaseLog.Lib.Descriptors
import GreaseLog.Lib.HeldLocks
import GreaseLog.Lib.LittleEndian
import GreaseLog.Lib.LiveWalk
import GreaseLog.Lib.OpenAddressing
import GreaseLog.Lib.RingWalk
import GreaseLog.Lib.Runs
import GreaseLog.Lib.Serials
import GreaseLog.Lib.Totals
import GreaseLog.Lib.Worklist
import GreaseLog.LogCall
import GreaseLog.LogTarget
import GreaseLog.Logger
import GreaseLog.LoggerRuns
import GreaseLog.MessageText
import GreaseLog.Meta
import GreaseLog.NameIds
import GreaseLog.OrderedTable
import GreaseLog.OverflowCopy
import GreaseLog.OverflowLifetime
import GreaseLog.Pool
import GreaseLog.Printing
import GreaseLog.RotationLimits
import GreaseLog.RotationTriggers
import GreaseLog.Routing
import GreaseLog.RoutingFrame
import GreaseLog.RoutingSpec
import GreaseLog.SafeCircular
import GreaseLog.Sink
import GreaseLog.SinkBounds
import GreaseLog.SinkFrames
import GreaseLog.SinkParser
import GreaseLog.SinkToFile
import GreaseLog.StartCallbacks
import GreaseLog.TableForEach
import GreaseLog.TargetStart
import GreaseLog.Transport
import GreaseLog.TwKhash
import GreaseLog.Unwritten
import GreaseLog.V8Refs
import GreaseLog.WireTrust
