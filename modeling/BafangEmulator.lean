import BafangEmulator.Foundation.Bytes
import BafangEmulator.Foundation.Decimal
import BafangEmulator.Foundation.IntegerType
import BafangEmulator.Foundation.Table
import BafangEmulator.Foundation.Effect
import BafangEmulator.Foundation.Machine
import BafangEmulator.Foundation.Register
import BafangEmulator.Foundation.Checks
import BafangEmulator.Foundation.Prefix
import BafangEmulator.Foundation.PrefixCode
import BafangEmulator.Foundation.Format
import BafangEmulator.Foundation.CharArray
import BafangEmulator.Foundation.Code
import BafangEmulator.Foundation.CriticalSection
import BafangEmulator.Foundation.Cache
import BafangEmulator.Foundation.AppendLog
import BafangEmulator.Packet
import BafangEmulator.Profile
import BafangEmulator.TypedProfile
import BafangEmulator.ProfileText
import BafangEmulator.ProfileGrammar
import BafangEmulator.PacketBuilder
import BafangEmulator.Served
import BafangEmulator.GeneralBlock
import BafangEmulator.LoadedProfiles
import BafangEmulator.Validation
import BafangEmulator.WriteBack
import BafangEmulator.WriteOrder
import BafangEmulator.WriteOutcome
import BafangEmulator.Trace
import BafangEmulator.HexDump
import BafangEmulator.TraceLog
import BafangEmulator.SerialHandler
import BafangEmulator.Emulator
import BafangEmulator.Reception
import BafangEmulator.Buffers
import BafangEmulator.ChangedByte
import BafangEmulator.Controller
import BafangEmulator.AcknowledgedWrites
import BafangEmulator.Delivery
import BafangEmulator.Restart
import BafangEmulator.Responses
import BafangEmulator.Wedged
import BafangEmulator.Durability
import BafangEmulator.Ledger
import BafangEmulator.Stepwise
import BafangEmulator.Workers
import BafangEmulator.Serial
import BafangEmulator.Application
import BafangEmulator.GetOpt
import BafangEmulator.CommandLine
import BafangEmulator.TornSave
import BafangEmulator.Lives
