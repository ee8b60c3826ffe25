import EmulateComputer.Devices.PlicProtocol
import EmulateComputer.Devices.RtcAlarm
import EmulateComputer.Devices.UsedLength
import EmulateComputer.Cpu.Pending
import EmulateComputer.Cpu.Confinement
import EmulateComputer.Cpu.FpContext
import EmulateComputer.Machine.LazySync
import EmulateComputer.Machine.DirtyRows
import EmulateComputer.Hostnet.RelayProtocol
import EmulateComputer.Hostnet.FlowTeardown
import EmulateComputer.Relay.CreditProtocol
import EmulateComputer.Disk.SeedImage
import EmulateComputer.Machine.FrameQueues
import EmulateComputer.Session.Runs
import EmulateComputer.Relay.OutputRuns
import EmulateComputer.Relay.BufferAccounts
import EmulateComputer.Relay.StreamRuns
import EmulateComputer.Cpu.StoreConditional
import EmulateComputer.Mmu.WalkFrame
import EmulateComputer.Cpu.BlockRuns
import EmulateComputer.Devices.Chains
import EmulateComputer.Devices.EventAccounts
import EmulateComputer.Machine.HostTime
import EmulateComputer.Hostnet.DnsNames
import EmulateComputer.Session.Gunzip
import EmulateComputer.Disk.Crc32
import EmulateComputer.Cpu.BitmanipSpec
import EmulateComputer.Machine.RamGenerations
