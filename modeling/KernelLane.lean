import KernelLane.BtHci
import KernelLane.Dhcp
import KernelLane.FsExact
import KernelLane.FsRuns
import KernelLane.KernInbox
import KernelLane.KernKeys
import KernelLane.KernLog
import KernelLane.KernOwners
import KernelLane.KernPending
import KernelLane.KernReplies
import KernelLane.KernRouted
import KernelLane.KernSpawn
import KernelLane.KfsExtents
import KernelLane.KfsNumbers
import KernelLane.KfsResume
import KernelLane.KfsSeedable
import KernelLane.KfsShared
import KernelLane.LoginSessions
import KernelLane.ModuleSign
import KernelLane.NetPorts
import KernelLane.PkgStore
import KernelLane.RtReuse
import KernelLane.TcpExact
import KernelLane.TcpStream
import KernelLane.TcpTail
import KernelLane.BlkDelays
import KernelLane.UsersFile
import KernelLane.VfioIrq
import KernelLane.WasiPaths
import KernelLane.WasiSafety
import KernelLane.WasmAbi
import KernelLane.WasmMemorySound
import KernelLane.WasmPreempt
