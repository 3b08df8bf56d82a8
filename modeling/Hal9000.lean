import Hal9000.Framework.TransitionSystem
import Hal9000.Memory.ReservationSpace
import Hal9000.Memory.ReservationDisjoint
import Hal9000.Framework.RadixTree
import Hal9000.Memory.PagingTables
import Hal9000.Memory.PagingTree
import Hal9000.Memory.PagingWalk
import Hal9000.Memory.PagingCorrect
import Hal9000.Memory.KernelHalf
import Hal9000.Memory.PageFault
import Hal9000.Process.Lifetime
import Hal9000.Process.Destruction
import Hal9000.Framework.WaitQueue
import Hal9000.Synch.Model
import Hal9000.Synch.Waits
import Hal9000.Synch.Termination
import Hal9000.Synch.Event
import Hal9000.Framework.HandOff
import Hal9000.Synch.Mutex
import Hal9000.Threads.Scheduler
import Hal9000.Threads.SchedulerSteps
import Hal9000.Framework.Dispatch
import Hal9000.Threads.ReadyList
import Hal9000.Threads.Cleanup
import Hal9000.Memory.ZeroWorker
import Hal9000.Memory.PagingPool
import Hal9000.Framework.PastTime
import Hal9000.Memory.ReservationHistory
import Hal9000.Memory.ReservationMetadata
import Hal9000.Memory.ReservationPageMap
import Hal9000.Memory.UserBuffer
import Hal9000.Memory.PhysicalFrames
import Hal9000.Memory.PagingForest
import Hal9000.Memory.Regions
import Hal9000.Memory.FrameConservation
import Hal9000.Synch.SignalCount
import Hal9000.Threads.IdleThread
import Hal9000.Threads.StateField
import Hal9000.Smp.IpcEvent
import Hal9000.Smp.Delivery
import Hal9000.Io.Interrupts
import Hal9000.Process.ActiveTables
import Hal9000.Process.CachedTranslations
import Hal9000.Framework.LockOrder
import Hal9000.Memory.LockNesting
import Hal9000.Memory.ConcurrentRegions
import Hal9000.Io.IoApicSystem
import Hal9000.Time.Uptime
import Hal9000.Framework.WrappedText
import Hal9000.Io.Display
import Hal9000.Io.Keyboard
import Hal9000.Time.Timer
import Hal9000.Framework.PointerChain
import Hal9000.Io.DeviceStack
import Hal9000.Framework.RecordWalk
import Hal9000.Io.AcpiTables
import Hal9000.Memory.PeCoverage
import Hal9000.Memory.UnmapRange
import Hal9000.Memory.ReservationAtomic
import Hal9000.Memory.Decommit
import Hal9000.Memory.Mdl
import Hal9000.Memory.RegionBacking
import Hal9000.Memory.BackedFault
import Hal9000.Io.PciDevices
import Hal9000.Io.FailedRegistration
import Hal9000.Io.KeyboardModifiers
import Hal9000.Io.PciConfigurationSpace
import Hal9000.Memory.ReservationEntry
import Hal9000.Shell.CmdInterpreter
import Hal9000.Shell.LineEditor
import Hal9000.Process.UmApplication
import Hal9000.Io.FileObjects
import Hal9000.Boot.BootModules
import Hal9000.Shell.FileCommands
import Hal9000.Memory.ThreadStacks
import Hal9000.Threads.Creation
import Hal9000.Memory.PagesRestored
import Hal9000.Memory.FailedRegion
import Hal9000.Framework.Identifiers
import Hal9000.Framework.WaitingLine
import Hal9000.Io.IdleScreen
import Hal9000.Process.Identifiers
import Hal9000.Process.Processes
import Hal9000.Threads.RoundRobin
import Hal9000.Framework.Barrier
import Hal9000.Framework.BumpAllocation
import Hal9000.Memory.KernelMappings
import Hal9000.Memory.MappedPages
import Hal9000.Memory.UserMapping
import Hal9000.Process.Termination
import Hal9000.Smp.LowerMemory
import Hal9000.Smp.Startup
import Hal9000.Threads.ForcedTermination
import Hal9000.Smp.EventFreed
import Hal9000.Memory.BitmapMemory
import Hal9000.Memory.PageMapInMemory
import Hal9000.Memory.TranslatedPages
import Hal9000.Memory.FaultSteps
import Hal9000.Threads.ScheduleModels
