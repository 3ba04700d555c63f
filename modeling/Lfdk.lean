import Lfdk.Words
import Lfdk.Runs
import Lfdk.SlotCache
import Lfdk.RegisterBits
import Lfdk.PciAccess
import Lfdk.MappingCache
import Lfdk.MappedPlaces
import Lfdk.ConcurrentMapping
import Lfdk.PortIsolation
import Lfdk.RegisterFrames
import Lfdk.EcamEquivalence
import Lfdk.WindowEffects
import Lfdk.ForegroundInvariant
import Lfdk.MessageBatching
import Lfdk.MessageEffects
import Lfdk.WindowLifecycle
import Lfdk.FocusPairing
import Lfdk.FocusRequests
import Lfdk.CountedLoops
import Lfdk.DriverCalls
import Lfdk.PciNames
import Lfdk.PciScan
import Lfdk.PciSurvey
import Lfdk.ScanResults
import Lfdk.ScanHistory
import Lfdk.HexEditors
import Lfdk.EditorEffects
import Lfdk.EditorWrites
import Lfdk.CmosWrites
import Lfdk.MainLoop
import Lfdk.ShippedWindows
import Lfdk.ShippedPool
import Lfdk.ShippedStart
import Lfdk.FocusDesk
import Lfdk.ScanOnce
import Lfdk.ExtendedRegisters
import Lfdk.ByteMemory
import Lfdk.MemoryAccess
import Lfdk.MemoryRange
import Lfdk.MemoryReads
import Lfdk.PortAccess
import Lfdk.DeviceFile
import Lfdk.ResultCodes
import Lfdk.MemoryWrites
import Lfdk.MmioAddress
import Lfdk.RegisterBytes
import Lfdk.WriteReadBack
import Lfdk.BulkReads
import Lfdk.RequestChecks
import Lfdk.DriverSuccess
import Lfdk.CommandSet
import Lfdk.SelectedIndex
import Lfdk.DatabaseLines
import Lfdk.LineReader
import Lfdk.NameLookup
import Lfdk.ReadErrors
import Lfdk.PcieDetection
import Lfdk.McfgTable
import Lfdk.KernelLog
import Lfdk.DigitRegister
import Lfdk.TypedDigits
import Lfdk.WriteSelfTest
import Lfdk.KeyClasses
import Lfdk.LockedSections
import Lfdk.DriverLock
import Lfdk.ConcurrentCalls
import Lfdk.HexText
import Lfdk.ShownCells
import Lfdk.StoreEditors
import Lfdk.MemoryEditing
import Lfdk.ProgramWrites
import Lfdk.RegisterPages
import Lfdk.FaithfulScreens
import Lfdk.ListPages
import Lfdk.ListScreen
import Lfdk.SelfTests
import Lfdk.CmosEditing
import Lfdk.ProgramLog
import Lfdk.CommandLine
import Lfdk.ScreenSides
