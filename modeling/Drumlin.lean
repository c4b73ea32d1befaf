import Drumlin.Library.Runs
import Drumlin.Library.Cxx
import Drumlin.Heap
import Drumlin.HeapPlacement
import Drumlin.HeapPeak
import Drumlin.HeapCounter
import Drumlin.Library.Split
import Drumlin.StringList
import Drumlin.Library.Replace
import Drumlin.StringSplitting
import Drumlin.Library.Numbering
import Drumlin.Tracer
import Drumlin.Library.CMemory
import Drumlin.ByteArray
import Drumlin.ByteArrayStates
import Drumlin.ByteArrayConversions
import Drumlin.ByteArrayCopies
import Drumlin.UseIdent
import Drumlin.UseIdentHash
import Drumlin.Library.StrongOrder
import Drumlin.UseIdentOrder
import Drumlin.Library.SetDifference
import Drumlin.StringEquality
import Drumlin.Library.StdMap
import Drumlin.Library.NumberText
import Drumlin.Attributes
import Drumlin.AnyValues
import Drumlin.BufferCache
import Drumlin.CacheDelivery
import Drumlin.Library.StdList
import Drumlin.CacheSubscriptions
import Drumlin.CacheClearing
import Drumlin.CacheAccess
import Drumlin.Allocator
import Drumlin.AllocatorRelease
import Drumlin.AllocatorRegistry
import Drumlin.HeapCapacity
import Drumlin.AllocatorSizes
import Drumlin.QueueSize
import Drumlin.AllocatorTraversal
import Drumlin.HeapReport
import Drumlin.Application
import Drumlin.ThreadAccessor
import Drumlin.ThreadSelection
import Drumlin.AccessorClear
import Drumlin.ThreadRoster
import Drumlin.Library.ActorPool
import Drumlin.ThreadPool
import Drumlin.ThreadShutdown
import Drumlin.ThreadRemoval
import Drumlin.ThreadLoop
import Drumlin.WorkerReset
import Drumlin.Library.LockOrder
import Drumlin.Locking
import Drumlin.Work
import Drumlin.WorkTokens
import Drumlin.Cursor
import Drumlin.Promises
import Drumlin.Library.Splice
import Drumlin.Regexen
import Drumlin.RegexReplacement
import Drumlin.JsonConfig
import Drumlin.JsonReload
import Drumlin.JsonKeys
import Drumlin.Socket
import Drumlin.SocketSends
import Drumlin.SocketPartial
import Drumlin.SocketRead
import Drumlin.Library.PoolMutex
import Drumlin.ThreadLifecycle
import Drumlin.ApplicationMutex
import Drumlin.StopOrder
import Drumlin.Library.StableSort
import Drumlin.ApplicationLoop
import Drumlin.ApplicationShutdown
import Drumlin.StopRounds
import Drumlin.ThreadQueue
import Drumlin.SocketSync
import Drumlin.Metatypes
import Drumlin.SignalHandler
import Drumlin.Registry
import Drumlin.AsioServer
import Drumlin.WorkClones
import Drumlin.Broadcasts
import Drumlin.CacheCalls
import Drumlin.SocketStream
import Drumlin.LogLines
import Drumlin.WorkCalls
