import Karphin.Lib.FinNumerals
import Karphin.JitCache.Theorems
import Karphin.NetPlay.Roster.Theorems
import Karphin.NetPlay.Desync.Theorems
import Karphin.NetPlay.StartBarrier.Theorems
import Karphin.NetPlay.Chunked.Theorems
import Karphin.NetPlay.PadSync.Theorems
import Karphin.CoreTiming.Theorems
import Karphin.NetPlay.Transfer.Theorems
import Karphin.NetPlay.OnData.Theorems
import Karphin.PPCAnalyst.Theorems
import Karphin.NetPlay.Golf.Theorems
import Karphin.DiscIO.LaggedFibonacci.Theorems
import Karphin.DiscIO.Compressed.Theorems
import Karphin.DiscIO.Purge.Theorems
import Karphin.DiscIO.Scrubber.Theorems
import Karphin.DiscIO.RVZPack.Defs
import Karphin.IOS.SharedContent.Theorems
import Karphin.DiscIO.Multithreaded.Theorems
import Karphin.InputCommon.Hotkey.Theorems
import Karphin.IOS.FS.HostBackend.Theorems.Failures
import Karphin.IOS.FS.HostBackend.Theorems.Sharing
import Karphin.IOS.FS.HostBackend.Theorems.Persistence
import Karphin.DSP.Interpreter.Theorems.Operands
import Karphin.Common.Crypto.Arithmetic
import Karphin.VideoCommon.IndexGenerator.Theorems
import Karphin.Common.IniFile.Theorems
import Karphin.Gecko.Theorems
import Karphin.PowerPC.Carry
import Karphin.PowerPC.Jit64.Signed
import Karphin.Common.Config.Theorems
import Karphin.Common.TraversalServer.Theorems
import Karphin.VideoCommon.OpcodeDecoding.Theorems
import Karphin.PowerPC.ConditionRegister
import Karphin.MMU.Access.HostReads
import Karphin.GCMemcard.SavefileFormats
import Karphin.DiscIO.WIA.Theorems
import Karphin.PPCAnalyst.BusyWait.Theorems
import Karphin.MMU.Access.RoundTrip
import Karphin.DSP.Accelerator
import Karphin.IOS.FS.HostBackend.Theorems.InUse
import Karphin.IOS.FS.NandPaths
import Karphin.Common.SettingsHandler
import Karphin.DiscIO.Wbfs
import Karphin.GCMemcard.Clearing
import Karphin.DiscIO.FileSystemGCWii
import Karphin.DSP.Interpreter.Theorems.AddressRegisters
import Karphin.DSP.Interpreter.Theorems.Sums
import Karphin.Movie.Bounds
import Karphin.Arm64Gen.MovI2R
import Karphin.State.Save
import Karphin.DiscIO.VolumeWii
import Karphin.DiscIO.Riivolution.FilePatch
