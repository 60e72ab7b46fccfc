import Deepspan.Lib.Transition
import Deepspan.Lib.Crc
import Deepspan.Lib.Ledger
import Deepspan.Dispatch
import Deepspan.Submit.Results
import Deepspan.Submit.Sequence
import Deepspan.Submit.Handlers
import Deepspan.Codegen.PythonSdk
import Deepspan.Zephyr.Completion
import Deepspan.Kernel.Notify
import Deepspan.Kernel.Requests
import Deepspan.Appframework.CircuitBreaker
import Deepspan.Appframework.Tripping
import Deepspan.Lib.QueuePair
import Deepspan.Userlib.AsyncClient
import Deepspan.Userlib.Reap
import Deepspan.Userlib.SubmitAndWait
import Deepspan.Userlib.Results
import Deepspan.Lib.Block
import Deepspan.Userlib.Sqe
import Deepspan.Kernel.OutBuf
import Deepspan.Kernel.Removal
import Deepspan.Kernel.Drain
import Deepspan.Appframework.Recovery
import Deepspan.Lib.Ownership
import Deepspan.Appframework.DevicePool
import Deepspan.Appframework.SessionManager
import Deepspan.Appframework.Execution
import Deepspan.Kernel.Crc32Shash
import Deepspan.Zephyr.BesideServer
import Deepspan.Zephyr.OwnChecksums
import Deepspan.Server.DeviceId
import Deepspan.Server.Services
import Deepspan.Server.Enumerate
import Deepspan.Submit.Progress
import Deepspan.Codegen.AccelEcho
import Deepspan.Codegen.Validators
import Deepspan.Codegen.ValidatorsRight
import Deepspan.Codegen.ClientCodec
import Deepspan.Codegen.Messages
import Deepspan.Kernel.IssueFailures
import Deepspan.Userlib.FailedSubmit
import Deepspan.Appframework.Closing
import Deepspan.Checksum
import Deepspan.DmaBounds
import Deepspan.Kernel.Minors
import Deepspan.Lib.Descriptors
import Deepspan.Userlib.Handles
import Deepspan.Appframework.PoolCreate
import Deepspan.Server.Plugins
import Deepspan.Server.RpcEnds
import Deepspan.Server.Telemetry
import Deepspan.Codegen.OpcodeTables
import Deepspan.Appframework.Stack
import Deepspan.Lib.CrcPeriod
import Deepspan.TwoBitErrors
import Deepspan.Lib.Layout
import Deepspan.SharedPage
import Deepspan.PagedSystems
import Deepspan.FirmwareSim.System
import Deepspan.FirmwareSim.Results
import Deepspan.Kernel.Module
import Deepspan.Zephyr.App
import Deepspan.Zephyr.AppCalls
import Deepspan.Zephyr.AppLines
import Deepspan.Server.ResetDevice
import Deepspan.HwModelLifecycle
import Deepspan.Server.PluginCalls
