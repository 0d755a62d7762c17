import DockerMacos.Run
import DockerMacos.Fifo
import DockerMacos.RingBuffer
import DockerMacos.FifoStream
import DockerMacos.Allocator
import DockerMacos.Dyadic
import DockerMacos.LinkedList
import DockerMacos.AllocatorInv
import DockerMacos.AllocatorSpec
import DockerMacos.AllocatorFree
import DockerMacos.AllocatorRun
import DockerMacos.AllocatorContents
import DockerMacos.Vram
import DockerMacos.DisplayMode
import DockerMacos.FramebufferVram
import DockerMacos.Accel
import DockerMacos.Surface
import DockerMacos.SurfaceOps
import DockerMacos.SurfaceSystem
import DockerMacos.GmrOwnership
import DockerMacos.IdAllocation
import DockerMacos.Fence
import DockerMacos.ModeProgramming
import DockerMacos.Present
import DockerMacos.ModeEnumeration
import DockerMacos.CommandFifo
import DockerMacos.MasterSurface
import DockerMacos.DeviceCommands
import DockerMacos.Commands3D
import DockerMacos.AccelCommands
import DockerMacos.AuxSurfaces
import DockerMacos.OpenReservations
import DockerMacos.EmittedCommands
import DockerMacos.PhysicalMemory
import DockerMacos.GmrCommands
import DockerMacos.GmrDescriptors
import DockerMacos.FifoProgress
import DockerMacos.SurfaceChanges
import DockerMacos.SurfaceActions
import DockerMacos.VideoStreams
import DockerMacos.GmrBackings
import DockerMacos.VramBackings
import DockerMacos.VideoMemory
import DockerMacos.ClosedSurfaces
import DockerMacos.SurfaceMaps
import DockerMacos.HeldLocks
import DockerMacos.FlushedMemory
import DockerMacos.FlushBounds
import DockerMacos.FailedCalls
import DockerMacos.SoftwareBlit
import DockerMacos.RegionClip
import DockerMacos.RegionCopy
import DockerMacos.CellCopies
import DockerMacos.SelfCopy
import DockerMacos.ReleaseCheck
import DockerMacos.AccelUpdates
import DockerMacos.Processes
import DockerMacos.Launchers
import DockerMacos.DiskGuard
import DockerMacos.OpenCoreStaging
import DockerMacos.HostNetwork
import DockerMacos.TestRuns
import DockerMacos.DelimitedText
import DockerMacos.PanicPatterns
import DockerMacos.GraphicsPlugin
import DockerMacos.BitmapScans
import DockerMacos.InitialMode
import DockerMacos.DdcBlocks
import DockerMacos.ScaleSizes
import DockerMacos.PluginStart
import DockerMacos.PatternTable
import DockerMacos.JsonReport
import DockerMacos.DoorbellTrace
import DockerMacos.JetsamRaise
import DockerMacos.RunPhase
import DockerMacos.RangePieces
import DockerMacos.AllocatorCheck
import DockerMacos.FreeBlocks
import DockerMacos.RefreshTimer
import DockerMacos.VramRuns
import DockerMacos.ContextReferences
import DockerMacos.FramebufferStart
import DockerMacos.AcceleratorStart
import DockerMacos.SwitchWait
import DockerMacos.RingDoorBell
import DockerMacos.QEMUHelper
import DockerMacos.HookCounters
