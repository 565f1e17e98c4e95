import WdmTest.Lib.Transition
import WdmTest.Lib.Handover
import WdmTest.Lib.CString
import WdmTest.Lib.Decimal
import WdmTest.Lib.Trace
import WdmTest.Lib.Bytes
import WdmTest.Lib.Paging
import WdmTest.Lib.Spacing
import WdmTest.Lib.Readback
import WdmTest.Lib.Ledger
import WdmTest.Kernel
import WdmTest.MultiTimer.Model
import WdmTest.MultiTimer.Lifecycle
import WdmTest.MultiTimer.Steps
import WdmTest.MultiTimer.Bookkeeping
import WdmTest.MultiTimer.Drain
import WdmTest.MultiTimer.Teardown
import WdmTest.MultiTimer.Progress
import WdmTest.MultiTimer.TimerLog
import WdmTest.MultiTimer.Histories
import WdmTest.MultiTimer.Printout
import WdmTest.MultiTimer.RegInterval
import WdmTest.MultiTimer.Readback
import WdmTest.DigitalSign.Model
import WdmTest.DigitalSign.CertChain
import WdmTest.DigitalSign.DigestCheck
import WdmTest.DigitalSign.ChainOutput
import WdmTest.DigitalSign.ProcessFunctions
import WdmTest.DigitalSign.ProcessName
import WdmTest.DigitalSign.DriverLife
import WdmTest.DpcQueue.Model
import WdmTest.DpcQueue.StopPulse
import WdmTest.DpcQueue.Test2
import WdmTest.Harddisk.Model
import WdmTest.Harddisk.BufferOwnership
import WdmTest.Harddisk.BufferDump
import WdmTest.Harddisk.Transfer
import WdmTest.Harddisk.Resources
import WdmTest.Ptov.Model
import WdmTest.Ptov.ContextLifetime
import WdmTest.Ptov.SafeReturn
import WdmTest.Ptov.Remapping
import WdmTest.NumaNode.Model
import WdmTest.NumaNode.Encoding
import WdmTest.NumaNode.RelationshipWalk
import WdmTest.NumaNode.Robustness
import WdmTest.NumaNode.NodeEnumeration
import WdmTest.NumaNode.Readback
import WdmTest.TimerCost.Model
import WdmTest.TimerCost.LoadFailure
import WdmTest.KernelThread.Model
import WdmTest.KernelThread.Stuck
import WdmTest.KernelThread.Notified
import WdmTest.KernelThread.Samples
import WdmTest.HiResTimer.Model
import WdmTest.HiResTimer.LogFits
import WdmTest.HiResTimer.Rearming
import WdmTest.HiResTimer.Driver
import WdmTest.Wdf.Model
import WdmTest.Wdf.Lifecycle
import WdmTest.Wdf.ReadRegistry
import WdmTest.Wdf.EventLog
import WdmTest.PnpEvent.Model
import WdmTest.PnpEvent.Lifecycle
import WdmTest.PnpEvent.Readback
