import Vml.VirtqueueRingProof
import Vml.SgTransaction
import Vml.SgOwnership
import Vml.SgBuilder
import Vml.SgWritten
import Vml.SgAsyncProof
import Vml.VirtioConsole
import Vml.QueueLifecycle
import Vml.ConsoleStream
import Vml.ConsoleWakeup
import Vml.MmioInterrupt
import Vml.RegisterBounds
import Vml.RegisterFreeze
import Vml.QueueMappings
import Vml.Iommu
import Vml.Vbus
import Vml.SimpleAS
import Vml.GicExclusive
import Vml.GicLevel
import Vml.GicEdges
import Vml.GicWfi
import Vml.GicIndices
import Vml.CpuFeature
import Vml.CpuStart
import Vml.RoundupSafety
import Vml.ParallelRoundup
import Vml.MsrBus
import Vml.Pl011Line
import Vml.Pl011Output
import Vml.Pl011Input
import Vml.RWLock
import Vml.SgPaired
import Vml.SgStopped
import Vml.Timer
import Vml.MmioRead
import Vml.UsedEvent
import Vml.GicHighest
import Vml.GicRetire
import Vml.LpiDelivery
import Vml.ConsoleSend
import Vml.SgNeutral
import Vml.SgResume
import Vml.RangeSets
import Vml.GicSources
import Vml.GicWaker
import Vml.GitsQueue
import Vml.CpuAffinity
import Vml.GicSgi
import Vml.MsiTarget
import Vml.CpuResume
import Vml.GpaRange
import Vml.MappedAccess
import Vml.TimerViews
import Vml.Pl011Sticky
import Vml.SeqQueueWords
import Vml.SgOffsets
import Vml.ItsIndices
import Vml.ItsMaps
import Vml.GicReset
import Vml.MsrId
import Vml.SysRegs
import Vml.SysRegRun
import Vml.SysRegGuest
import Vml.SetWayFlush
import Vml.CacheLines
import Vml.GuestFlush
import Vml.Psci
import Vml.Semaphore
import Vml.GuestMemory
import Vml.UsedInterrupt
import Vml.GicPrio
