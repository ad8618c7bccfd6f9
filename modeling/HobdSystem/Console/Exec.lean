import HobdSystem.Console.Cli
import HobdSystem.Dump.Report
import HobdSystem.Hobd.Client
import HobdSystem.Library.Dialogue
import HobdSystem.Mmc.Client

/-!
# The console

The model of `console_module.c`: `console_exec`, which is called with the words of a line that was
typed in, and what it calls. It is a program that prints characters and calls functions of the
other modules (`HobdSystem.ConsoleQuery`), which are answered by other threads. What it is
answered with is not known here, and between two calls anything may happen, so it is a `Dialogue`:
the text it prints and the calls it makes, in their order, with what comes next depending on the
answers.

The console calls the functions of the other modules and does not send messages itself, so a query
is a request of `HobdSystem.Mmc.Client` or of `HobdSystem.Hobd.Client`. Each is answered with what
its function returns, which is not the same for all of them, and so the type of an answer depends
on the query.

Which words have been recognised is separated from what is then done: `HobdSystem.readLine` is the
line, and `HobdSystem.consoleExec_eq` says that `console_exec` does what it says. In the source
the two are mixed, with a number for the subcommand handed from one function to another that may
or may not have a case for it. From here on a line is one of ten things
(`HobdSystem.ConsoleLine`), and nothing behind this file looks at words again.

The functions of the source that differ in a text only are given once: a switch is shown, or set
and then shown, and a number is printed behind a label.
-/

namespace HobdSystem

open Dialogue

/-! ### Queries -/

/-- What the functions of the MMC module return. -/
def MmcRequest.Ret : MmcRequest → Type
  | .getStats => MmcStats
  | .rm => Int32
  | .getFileSize => Int32 × UInt32
  | .setState _ => UInt32
  | .getState => UInt32

/-- What they return, as an answer. -/
def MmcRequest.answer : (q : MmcRequest) → q.Ret → MmcAnswer
  | .getStats, stats => .stats stats
  | .rm, ret => .status ret
  | .getFileSize, (ret, size) => .size ret size
  | .setState _, state => .state state
  | .getState, state => .state state

/-- What the functions of the HOBD module return. -/
def HobdRequest.Ret : HobdRequest → Type
  | .getStats => HobdStats
  | _ => UInt32

/-- What they return, as an answer. -/
def HobdRequest.answer : (q : HobdRequest) → q.Ret → HobdAnswer
  | .getStats, stats => .stats stats
  | .setCommState _, flag => .flag flag
  | .getCommState, flag => .flag flag
  | .setListenOnly _, flag => .flag flag
  | .getListenOnly, flag => .flag flag

/-- What the console asks for. These are the only places where what a line does can depend on the
rest of the system. -/
inductive ConsoleQuery where
  /-- `time_server_get_time`. -/
  | getTime
  | mmc (q : MmcRequest)
  | hobd (q : HobdRequest)
  /-- `seL4_DebugDumpScheduler`. -/
  | dumpScheduler
  deriving DecidableEq, Repr

/-- What a query is answered with. -/
def ConsoleQuery.Answer : ConsoleQuery → Type
  | .getTime => UInt64
  | .mmc q => q.Ret
  | .hobd q => q.Ret
  | .dumpScheduler => Unit

/-- A program of the console. -/
abbrev Console (α : Type) : Type := Dialogue Char ConsoleQuery.Answer α

/-- A call of another module. -/
def ask (q : ConsoleQuery) : Console q.Answer := query q

/-- What the console is built with. -/
structure ConsoleConfig where
  /-- `GIT_BRANCH`. -/
  gitBranch : String
  /-- `GIT_REVISION`. -/
  gitRevision : String
  /-- `CONFIG_DEBUG_BUILD`. -/
  debugBuild : Bool

/-! ### Printing -/

/-- `console_print`. -/
def consolePrint (str : List Char) : Console Unit := tell str

/-- `console_println`. -/
def consolePrintln (str : List Char) : Console Unit := do
  consolePrint str
  tell ['\n']

/-- `snprintf` of a number, into a buffer of 64 bytes. -/
def snprintf (n : ℕ) : List Char := (fmtDec n).take 63

/-- A label and a number behind it. -/
def printField (label : String) (n : ℕ) : Console Unit := do
  consolePrint label.toList
  consolePrintln (snprintf n)

/-- The subcommands in `print_help`. -/
def printSubcmds : List CliSubcmdDesc → Console Unit
  | [] => pure ()
  | desc :: descs => do
    consolePrint "    ".toList
    consolePrint desc.subcmd.toList
    consolePrintln desc.desc.toList
    printSubcmds descs

/-- The commands in `print_help`. -/
def printCmds : List CliCmdKind → Console Unit
  | [] => pure ()
  | cmd :: cmds => do
    consolePrint (cliGetCmdStr cmd).toList
    consolePrintln (cliGetCmdDescStr cmd).toList
    printSubcmds ((cliGetSubcmdArray cmd).getD [])
    printCmds cmds

/-- `print_help`. -/
def printHelp : Console Unit := do
  consolePrintln "--- console ---".toList
  consolePrintln "commands:".toList
  printCmds CliCmdKind.all
  consolePrint "\n".toList

/-- `print_version`. -/
def printVersion (cfg : ConsoleConfig) : Console Unit := do
  consolePrintln "version information".toList
  consolePrintln ("  branch: ".toList ++ cfg.gitBranch.toList)
  consolePrintln ("  revision: ".toList ++ cfg.gitRevision.toList)

/-- `clear_console`. -/
def clearConsole : Console Unit := do
  consolePrint "\x1b[2J".toList
  consolePrint "\x1b[H".toList

/-! ### Commands -/

/-- `NS_IN_S`. -/
def nsInS : UInt64 := 1000000000

/-- `NS_IN_MINUTE`. -/
def nsInMinute : UInt64 := 60 * nsInS

/-- The time, as `handle_cli_cmd` prints it. -/
def printTime (timeNs : UInt64) : Console Unit := do
  let timeMin := timeNs / nsInMinute
  let timeSec := (timeNs - timeMin * nsInMinute) / nsInS
  consolePrint "Current time: ".toList
  consolePrint (snprintf timeNs.toNat)
  consolePrintln " ns".toList
  consolePrint "Elapsed: ".toList
  consolePrint (snprintf timeMin.toNat)
  consolePrint " min : ".toList
  consolePrint (snprintf timeSec.toNat)
  consolePrintln " sec".toList

/-- `handle_cli_cmd` for `CLI_CMD_TIME`. -/
def handleTime : Console Unit := ask .getTime >>= printTime

/-- The counters of the MMC module, as `handle_cli_cmd` prints them. -/
def printMmcStats (mmcStats : MmcStats) : Console Unit := do
  consolePrintln "MMC".toList
  printField "  timestamp: " mmcStats.timestamp.toNat
  printField "  entries_logged: " mmcStats.entriesLogged.toNat

/-- The counters of the HOBD module, as `handle_cli_cmd` prints them. -/
def printHobdStats (hobdStats : HobdStats) : Console Unit := do
  consolePrintln "HOBD".toList
  printField "  timestamp: " hobdStats.timestamp.toNat
  printField "  valid_rx_count: " hobdStats.validRxCount.toNat
  printField "  invalid_rx_count: " hobdStats.invalidRxCount.toNat
  printField "  comm_gpio_retry_count: " hobdStats.commGpioRetryCount.toNat
  printField "  comm_init_retry_count: " hobdStats.commInitRetryCount.toNat

/-- A label, and a switch that is asked for. -/
def showSwitch (label : String) (get : Console UInt32) : Console Unit := do
  consolePrint label.toList
  let state ← get
  consolePrintln (snprintf state.toNat)

/-- A switch is set, and reported. -/
def setSwitch (text label : String) (set : Console UInt32) : Console Unit := do
  consolePrintln text.toList
  let state ← set
  printField label state.toNat

/-- `handle_cli_cmd` for `CLI_CMD_INFO`. -/
def handleInfo : Console Unit := do
  consolePrintln "Information, Statistics and Metrics".toList
  ask (.mmc .getStats) >>= printMmcStats
  showSwitch "  enabled: " (ask (.mmc .getState))
  ask (.hobd .getStats) >>= printHobdStats
  showSwitch "  comm_enabled: " (ask (.hobd .getCommState))
  showSwitch "  comm_listen_only: " (ask (.hobd .getListenOnly))

/-- `handle_cli_cmd` for `CLI_CMD_DEBUG_SCHEDULER`. -/
def handleDebugScheduler (cfg : ConsoleConfig) : Console Unit :=
  if cfg.debugBuild then do
    consolePrintln "Dumping scheduler (only core 0 TCBs will be displayed?)".toList
    consolePrint "\n".toList
    let _ ← ask .dumpScheduler
    consolePrint "\n".toList
  else consolePrintln "Must be a debug build to do so".toList

/-- `handle_cli_cmd`. -/
def handleCliCmd (cfg : ConsoleConfig) (cmd : CliCmdKind) : Console Unit :=
  match cmd with
  | .help => printHelp
  | .version => printVersion cfg
  | .clear => clearConsole
  | .time => handleTime
  | .info => handleInfo
  | .debugScheduler => handleDebugScheduler cfg
  | .mmc | .hobd => do
    consolePrint (cliGetCmdStr cmd).toList
    consolePrintln ": not yet supported".toList

/-! ### Subcommands -/

/-- The size of the file, as `handle_cli_subcmd` prints it. -/
def printFileSize (status : Int32) (fileSize : UInt32) : Console Unit :=
  if status = 0 then do
    consolePrint "MMC file size: ".toList
    consolePrint (snprintf fileSize.toNat)
    consolePrintln " bytes".toList
  else consolePrintln "Failed to get MMC file size".toList

/-- What came of a removal, as `handle_cli_subcmd` prints it. -/
def printRm (status : Int32) : Console Unit :=
  if status = 0 then consolePrintln "Deleted the MMC file".toList
  else consolePrintln "Failed to delete the MMC file".toList

/-- The listen-only mode is set to the other one. -/
def toggleListenOnly (state : UInt32) : Console Unit :=
  setSwitch (if state = 0 then "Enabling listen-only mode" else "Disabling listen-only mode")
    "HOBD comms listen-only: " (ask (.hobd (.setListenOnly (if state = 0 then 1 else 0))))

/-- `handle_cli_subcmd` for `CLI_CMD_MMC`. -/
def handleMmcSubcmd : CliMmcSubcmdKind → Console Unit
  | .on => setSwitch "Enabling MMC file" "MMC status: " (ask (.mmc (.setState 1)))
  | .off => setSwitch "Disabling MMC file" "MMC status: " (ask (.mmc (.setState 0)))
  | .status => showSwitch "MMC status: " (ask (.mmc .getState))
  | .fileSize => ask (.mmc .getFileSize) >>= fun ret => printFileSize ret.1 ret.2
  | .rm => ask (.mmc .rm) >>= printRm

/-- `handle_cli_subcmd` for `CLI_CMD_HOBD`. -/
def handleHobdSubcmd : CliHobdSubcmdKind → Console Unit
  | .on => setSwitch "Enabling HOBD comms" "HOBD comms status: " (ask (.hobd (.setCommState 1)))
  | .off => setSwitch "Disabling HOBD comms" "HOBD comms status: " (ask (.hobd (.setCommState 0)))
  | .status => do
    showSwitch "HOBD comms status: " (ask (.hobd .getCommState))
    showSwitch "HOBD comms listen-only: " (ask (.hobd .getListenOnly))
  | .passive => ask (.hobd .getListenOnly) >>= toggleListenOnly

/-- `handle_cli_subcmd`. A number that is no subcommand is passed over. -/
def handleCliSubcmd (cmd : CliCmdKind) (subcmdEnum : ℕ) : Console Unit :=
  match cmd with
  | .mmc => (CliMmcSubcmdKind.all[subcmdEnum]?).elim (pure ()) handleMmcSubcmd
  | .hobd => (CliHobdSubcmdKind.all[subcmdEnum]?).elim (pure ()) handleHobdSubcmd
  | _ => pure ()

/-! ### Lines -/

/-- `console_exec`, on the words of a line. A null pointer in the place of the first one ends the
program. -/
def consoleExec (cfg : ConsoleConfig) : List (Option String) → Console Unit
  | [] => pure ()
  | none :: _ => .halt
  | some arg0 :: args => do
    consolePrint "\n".toList
    match cliIsCmd arg0 with
    | some cmd =>
      if cliGetSubcmdCount cmd = 0 then handleCliCmd cfg cmd
      else match args with
        | some arg1 :: _ =>
          match cliIsSubcmd arg1 cmd with
          | .yes subcmdEnum => handleCliSubcmd cmd subcmdEnum
          | _ => consolePrintln "Invalid subcommand/arguments".toList
        | _ => consolePrintln "Invalid subcommand/arguments".toList
    | none => do
      consolePrint arg0.toList
      consolePrintln ": command not found".toList

/-! ### What a line says -/

/-- What a line says, once its words have been looked up: a word that is no command, a command
with a second word that is missing or unknown, or one of the things that the console does. -/
inductive ConsoleLine where
  | unknown (word : String)
  | invalid
  | help
  | version
  | clear
  | time
  | info
  | debugScheduler
  | mmc (kind : CliMmcSubcmdKind)
  | hobd (kind : CliHobdSubcmdKind)
  deriving DecidableEq, Repr

/-- A subcommand is one of the words in the table. -/
def readSubcmd {κ : Type} (kinds : List κ) (descriptor : κ → CliSubcmdDesc)
    (line : κ → ConsoleLine) : List (Option String) → ConsoleLine
  | some word :: _ =>
    (kinds.find? fun kind => word == (descriptor kind).subcmd).elim .invalid line
  | _ => .invalid

/-- The line of a word and those that follow it. -/
def readLine (word : String) (words : List (Option String)) : ConsoleLine :=
  match cliIsCmd word with
  | none => .unknown word
  | some .help => .help
  | some .version => .version
  | some .clear => .clear
  | some .time => .time
  | some .info => .info
  | some .debugScheduler => .debugScheduler
  | some .mmc => readSubcmd CliMmcSubcmdKind.all mmcSubcmdDescriptor .mmc words
  | some .hobd => readSubcmd CliHobdSubcmdKind.all hobdSubcmdDescriptor .hobd words

/-- What is done for a line. -/
def ConsoleLine.perform (cfg : ConsoleConfig) : ConsoleLine → Console Unit
  | .unknown word => do
    consolePrint word.toList
    consolePrintln ": command not found".toList
  | .invalid => consolePrintln "Invalid subcommand/arguments".toList
  | .help => printHelp
  | .version => printVersion cfg
  | .clear => clearConsole
  | .time => handleTime
  | .info => handleInfo
  | .debugScheduler => handleDebugScheduler cfg
  | .mmc kind => handleMmcSubcmd kind
  | .hobd kind => handleHobdSubcmd kind

/-- A line with a subcommand. -/
theorem perform_readSubcmd {κ : Type} (cmd : CliCmdKind) {kinds : List κ}
    {descriptor : κ → CliSubcmdDesc} (line : κ → ConsoleLine) (cfg : ConsoleConfig)
    (harray : cliGetSubcmdArray cmd = some (kinds.map descriptor)) (hkinds : kinds ≠ [])
    (hhandle : ∀ idx, handleCliSubcmd cmd idx =
      (kinds[idx]?).elim (pure ()) fun kind => (line kind).perform cfg)
    (words : List (Option String)) :
    (match words with
      | some arg1 :: _ =>
        match cliIsSubcmd arg1 cmd with
        | .yes subcmdEnum => handleCliSubcmd cmd subcmdEnum
        | _ => consolePrintln "Invalid subcommand/arguments".toList
      | _ => consolePrintln "Invalid subcommand/arguments".toList) =
      (readSubcmd kinds descriptor line words).perform cfg := by
  rcases words with _ | ⟨_ | word, words⟩
  · rfl
  · rfl
  · rcases cliIsSubcmd_eq word harray hkinds with ⟨idx, kind, hyes, hidx, hkind⟩ | ⟨hmissing, hkind⟩
    · simp only [hyes, hhandle, hidx, readSubcmd, hkind]
      rfl
    · simp only [hmissing, readSubcmd, hkind]
      rfl

/-- **The line is recognised, and done**, behind an end of a line that is printed for every one.
The cases are the commands; those with subcommands are dealt with by one lemma for a table. -/
theorem consoleExec_eq (cfg : ConsoleConfig) (word : String) (words : List (Option String)) :
    consoleExec cfg (some word :: words) =
      consolePrint "\n".toList >>= fun _ => (readLine word words).perform cfg := by
  have hmmc := perform_readSubcmd .mmc .mmc cfg rfl (List.cons_ne_nil _ _) (fun _ => rfl) words
  have hhobd := perform_readSubcmd .hobd .hobd cfg rfl (List.cons_ne_nil _ _) (fun _ => rfl) words
  refine congrArg (consolePrint "\n".toList >>= ·) (funext fun _ => ?_)
  simp only [readLine]
  cases cliIsCmd word with
  | none => rfl
  | some cmd =>
    cases cmd with
    | mmc => exact hmmc
    | hobd => exact hhobd
    | _ => rfl

end HobdSystem
