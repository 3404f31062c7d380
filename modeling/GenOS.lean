import GenOS.Storage.Acknowledgement
import GenOS.Storage.Corruption
import GenOS.Socket.Readiness
import GenOS.Xtask.Repair
import GenOS.Elf.KernelImage
import GenOS.Elf.NativeImage
import GenOS.Memory.Layers
import GenOS.Memory.FirmwareMap
import GenOS.Memory.FrameSets
import GenOS.Memory.LedgerRuns
import GenOS.Paging.UserRuns
import GenOS.Ipv6.DadSafety
import GenOS.Ipv6.Control
import GenOS.Ipv6.Wire
import GenOS.Network.AdvertisedWindows
import GenOS.Network.BlindAttack
import GenOS.Network.SendCompletion
import GenOS.Network.Ipv4Frame
import GenOS.Vfs.Directories
import GenOS.Process.EndpointLifetime
import GenOS.Storage.Transparency
import GenOS.Memory.RegionOrder
import GenOS.Paging.SupervisorClone
import GenOS.Paging.IdentityWalk
import GenOS.Shell.PromptAgreement
import GenOS.Shell.SerialKeys
import GenOS.Process.SequentialReads
import GenOS.Process.RoundRobin
import GenOS.Network.RxQueue
