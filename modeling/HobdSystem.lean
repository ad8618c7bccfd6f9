import HobdSystem.Library.Run
import HobdSystem.Library.ByteSum
import HobdSystem.Library.Framing
import HobdSystem.Library.LittleEndian
import HobdSystem.Library.Memory
import HobdSystem.Library.Traced
import HobdSystem.Ipc
import HobdSystem.Hobd.Parser
import HobdSystem.Hobd.Deframe
import HobdSystem.Hobd.Frame
import HobdSystem.Hobd.Resync
import HobdSystem.Hobd.Msg
import HobdSystem.Hobd.RoundTrip
import HobdSystem.Mmc.File
import HobdSystem.Mmc.FileRuns
import HobdSystem.Mmc.Card
import HobdSystem.Mmc.Entry
import HobdSystem.Mmc.Server
import HobdSystem.Mmc.Actions
import HobdSystem.Dump.Reader
import HobdSystem.Dump.ReadBack
import HobdSystem.Hobd.Comm
import HobdSystem.Hobd.Moves
import HobdSystem.Hobd.Sessions
import HobdSystem.Dump.Truncated
import HobdSystem.Mmc.Counter
import HobdSystem.Hobd.Wait
import HobdSystem.Hobd.Calls
import HobdSystem.Hobd.Exchange
import HobdSystem.Hobd.Established
import HobdSystem.Hobd.Timeout
import HobdSystem.Dump.Report
import HobdSystem.Mmc.Overlap
import HobdSystem.Ecu.Emulator
import HobdSystem.Ecu.Answers
import HobdSystem.KLine.Link
import HobdSystem.KLine.Agreement
import HobdSystem.KLine.Matching
import HobdSystem.Hobd.Corruption
import HobdSystem.Hobd.Transmit
import HobdSystem.Ecu.Readable
import HobdSystem.Dump.Csv
import HobdSystem.Dump.Bounds
import HobdSystem.System.StartBarrier
import HobdSystem.Dump.Recorded
import HobdSystem.Library.Simulation
import HobdSystem.Rpc
import HobdSystem.Mmc.Client
import HobdSystem.Dump.LogFile
import HobdSystem.Dump.LogService
import HobdSystem.Hobd.Client
import HobdSystem.Hobd.Statistics
import HobdSystem.Library.Dialogue
import HobdSystem.Console.Cli
import HobdSystem.Console.Exec
import HobdSystem.Console.Lines
import HobdSystem.Console.Session
import HobdSystem.Console.Kept
import HobdSystem.Library.Blocking
import HobdSystem.System.Threads
import HobdSystem.System.HobdConforms
import HobdSystem.System.MmcConforms
import HobdSystem.System.ConsoleConforms
import HobdSystem.Library.Interleaving
import HobdSystem.Mmc.Race
