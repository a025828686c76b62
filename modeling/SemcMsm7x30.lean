import SemcMsm7x30.PartialMachine
import SemcMsm7x30.LinkRing
import SemcMsm7x30.FuelRefinement
import SemcMsm7x30.Parcel
import SemcMsm7x30.WireFormat
import SemcMsm7x30.Encoding
import SemcMsm7x30.RilTypes
import SemcMsm7x30.CommandTable
import SemcMsm7x30.Dispatch
import SemcMsm7x30.MalformedPayload
import SemcMsm7x30.RequestDecoding
import SemcMsm7x30.Ril
import SemcMsm7x30.Effects
import SemcMsm7x30.Requests
import SemcMsm7x30.Orphans
import SemcMsm7x30.RadioView
import SemcMsm7x30.Nitz
import SemcMsm7x30.FrameWriter
import SemcMsm7x30.ReplyRace
import SemcMsm7x30.SapQueue
import SemcMsm7x30.EventTable
import SemcMsm7x30.RilEvent
import SemcMsm7x30.EventLists
import SemcMsm7x30.EventRefinement
import SemcMsm7x30.TimerList
import SemcMsm7x30.LoopSteps
import SemcMsm7x30.TimedCallbacks
import SemcMsm7x30.Deletion
import SemcMsm7x30.WatchTable
import SemcMsm7x30.EventLoop
import SemcMsm7x30.Connections
import SemcMsm7x30.WakeLock
import SemcMsm7x30.WakeKept
import SemcMsm7x30.PendingLists
import SemcMsm7x30.SapThreads
import SemcMsm7x30.SapCompletion
import SemcMsm7x30.StringReads
import SemcMsm7x30.Facilities
import SemcMsm7x30.Counts
import SemcMsm7x30.LateStatus
import SemcMsm7x30.RefBase
import SemcMsm7x30.Responses
import SemcMsm7x30.Answers
import SemcMsm7x30.ReplyDecoding
import SemcMsm7x30.ListLayouts
import SemcMsm7x30.FixedArrays
import SemcMsm7x30.CdmaSms
import SemcMsm7x30.RawMemory
import SemcMsm7x30.SharedBuffer
import SemcMsm7x30.VectorImpl
import SemcMsm7x30.VectorSpecs
import SemcMsm7x30.VectorLists
import SemcMsm7x30.Allocations
import SemcMsm7x30.MemoryHeapPmem
import SemcMsm7x30.Lifetime
import SemcMsm7x30.Comparison
import SemcMsm7x30.VectorRanges
import SemcMsm7x30.VectorSort
import SemcMsm7x30.SortedVector
import SemcMsm7x30.OrderedSet
import SemcMsm7x30.SortedMerge
import SemcMsm7x30.WalkedRemoval
import SemcMsm7x30.ReleaseTools
import SemcMsm7x30.HexLog
import SemcMsm7x30.KeyCheck
import SemcMsm7x30.DebugPort
import SemcMsm7x30.FileTree
import SemcMsm7x30.DirUnlink
import SemcMsm7x30.DirEscapes
import SemcMsm7x30.Startup
import SemcMsm7x30.LockedCalls
import SemcMsm7x30.Lights
import SemcMsm7x30.Boot
import SemcMsm7x30.UnsolResponses
import SemcMsm7x30.Promotion
