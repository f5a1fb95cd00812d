import Qemu.Qcow2.CacheCoherence
import Qemu.I386.Jcc
import Qemu.Tcg.AllocSim
import Qemu.Voodoo.Clip
import Qemu.I386.Privilege
import Qemu.I386.TaskRoundTrip
import Qemu.Exec.TbSystem
import Qemu.Exec.PhysMap
import Qemu.Block.Request
import Qemu.Block.MultiwriteCover
import Qemu.Hw.Ne2000Bounds
import Qemu.Hw.FdcBounds
import Qemu.Hw.VirtioAvail
import Qemu.Migration.RamConverges
import Qemu.Hw.IdeBounds
import Qemu.Migration.RamConfined
import Qemu.Qcow2.Cluster
import Qemu.Block.Vdi
import Qemu.Block.Commit
import Qemu.Qcow2.Snapshot
import Qemu.I386.DebugWalk
import Qemu.Qcow2.ExtHeader
import Qemu.I386.RotateCarry
import Qemu.Voodoo.FloatConvert
import Qemu.Voodoo.TextureWrite
import Qemu.Tcg.ArmArith
import Qemu.Voodoo.FloatDepth
import Qemu.Hw.VirtioUsed
import Qemu.Hw.Dma
import Qemu.Exec.TbFindPc
import Qemu.Hw.Rtc
