import DeviceRuntime.Lib.Safe
import DeviceRuntime.RequestAgreement
import DeviceRuntime.DeviceLifecycle
import DeviceRuntime.SerialExchange
import DeviceRuntime.CommandGrammar
import DeviceRuntime.ConfigLanguage
import DeviceRuntime.DeviceRegistry
import DeviceRuntime.ShellEvents
import DeviceRuntime.JobTable
import DeviceRuntime.Executor
import DeviceRuntime.ExecutorParent
import DeviceRuntime.ExecutorRun
import DeviceRuntime.StartupWorld
import DeviceRuntime.StartupChild
import DeviceRuntime.StartupGate
import DeviceRuntime.PipelineWiring
import DeviceRuntime.StartupSignals
import DeviceRuntime.Lib.Script
import DeviceRuntime.Lib.Lines
import DeviceRuntime.LineIndependence
import DeviceRuntime.ShellInput
import DeviceRuntime.Dispatcher
import DeviceRuntime.ReapedSignal
import DeviceRuntime.ForegroundJob
import DeviceRuntime.TerminalReturn
import DeviceRuntime.ForegroundWait
import DeviceRuntime.JobResume
import DeviceRuntime.Lib.Slots
import DeviceRuntime.ParserArrays
import DeviceRuntime.ShellConfig
import DeviceRuntime.ShellConfigLanguage
import DeviceRuntime.Hardware
import DeviceRuntime.LedControl
import DeviceRuntime.Backend
import DeviceRuntime.BackendOpen
import DeviceRuntime.RejectedArgument
import DeviceRuntime.OledText
import DeviceRuntime.Lib.Sorted
import DeviceRuntime.Monitor
import DeviceRuntime.SysfsFiles
import DeviceRuntime.MonitorSelection
import DeviceRuntime.ReceivePath
import DeviceRuntime.JobShutdown
import DeviceRuntime.ShutdownWaits
import DeviceRuntime.Lib.LinkedList
import DeviceRuntime.JobHeap
import DeviceRuntime.JobMemory
import DeviceRuntime.TableInvariant
import DeviceRuntime.Utf8
import DeviceRuntime.OledPackets
import DeviceRuntime.OledGlyph
import DeviceRuntime.DecimalNumbers
import DeviceRuntime.SysfsNumbers
import DeviceRuntime.LedTrigger
import DeviceRuntime.SerialWriteAll
import DeviceRuntime.ProcessMonitor
import DeviceRuntime.ProcessCollect
import DeviceRuntime.ParserMemory
import DeviceRuntime.ShellLifetime
import DeviceRuntime.WatchdogDevice
import DeviceRuntime.ContextStartup
import DeviceRuntime.ProcessReport
import DeviceRuntime.SystemReport
