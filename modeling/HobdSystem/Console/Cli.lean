import Mathlib.Data.List.Basic

/-!
# The commands of the console

The model of `cli.c`: the tables of commands and subcommands, and the functions that look a word
up in them. The console of the system is one line of text at a time, cut into words; the first
word is a command, and for two of the commands the second one is a subcommand.

A table of the source is an array of structures that ends with an entry of null pointers, and the
functions walk through it until they come to that entry. Such an array is here the list of the
entries before it, so that there is no end to run over. The kinds of commands and subcommands are
enumerations of the source, whose numbers are used as indices into the tables; here they are
inductive types, with the list of all of them in the order of their numbers.

The text of a description has blanks in front, with which the source aligns it behind the name of
the command, and is given as it is: it is printed by `help`, and what is printed is looked at
character by character in `HobdSystem.Console.Lines`.

A word is compared with the names in the tables, and what is returned for a subcommand is its
*index* (`HobdSystem.cliIsSubcmd`), which its caller then takes for a number of the enumeration.
That this is the same is a fact about two tables that are written down separately, and
`HobdSystem.cliIsSubcmd_eq` is the one lemma in which it is used: a subcommand is found at the
place of its kind.
-/

namespace HobdSystem

/-! ### Commands -/

/-- `cli_cmd_kind`. -/
inductive CliCmdKind where
  | help
  | version
  | clear
  | time
  | info
  | debugScheduler
  | mmc
  | hobd
  deriving DecidableEq, Repr

/-- `cli_mmc_subcmd_kind`. -/
inductive CliMmcSubcmdKind where
  | on
  | off
  | status
  | fileSize
  | rm
  deriving DecidableEq, Repr

/-- `cli_hobd_subcmd_kind`. -/
inductive CliHobdSubcmdKind where
  | on
  | off
  | status
  | passive
  deriving DecidableEq, Repr

/-- The commands from `CLI_CMD_HELP` up to `CLI_CMD_KIND_COUNT`. -/
def CliCmdKind.all : List CliCmdKind :=
  [.help, .version, .clear, .time, .info, .debugScheduler, .mmc, .hobd]

/-- The subcommands up to `CLI_MMC_SUBCMD_KIND_COUNT`. -/
def CliMmcSubcmdKind.all : List CliMmcSubcmdKind := [.on, .off, .status, .fileSize, .rm]

/-- The subcommands up to `CLI_HOBD_SUBCMD_KIND_COUNT`. -/
def CliHobdSubcmdKind.all : List CliHobdSubcmdKind := [.on, .off, .status, .passive]

/-! ### Tables -/

/-- `cli_subcmd_desc_s`. -/
structure CliSubcmdDesc where
  subcmd : String
  desc : String

/-- `cli_cmd_desc_s`. -/
structure CliCmdDesc where
  cmd : String
  desc : String
  subcmds : Option (List CliSubcmdDesc)

/-- An entry of `MMC_SUBCMD_DESCRIPTORS`. -/
def mmcSubcmdDescriptor : CliMmcSubcmdKind → CliSubcmdDesc
  | .on => ⟨"on", "         - enable MMC module file logging"⟩
  | .off => ⟨"off", "        - disable MMC module file logging"⟩
  | .status => ⟨"status", "     - get MMC module status"⟩
  | .fileSize => ⟨"size", "       - get the curent MMC file size"⟩
  | .rm => ⟨"rm", "         - delete the current MMC file"⟩

/-- An entry of `HOBD_SUBCMD_DESCRIPTORS`. -/
def hobdSubcmdDescriptor : CliHobdSubcmdKind → CliSubcmdDesc
  | .on => ⟨"on", "         - enable HOBD K-line comms"⟩
  | .off => ⟨"off", "        - disable HOBD K-line comms"⟩
  | .status => ⟨"status", "     - get HOBD comms module status"⟩
  | .passive => ⟨"passive", "    - toggle HOBD comms listen-only mode"⟩

/-- `MMC_SUBCMD_DESCRIPTORS`. -/
def mmcSubcmdDescriptors : List CliSubcmdDesc := CliMmcSubcmdKind.all.map mmcSubcmdDescriptor

/-- `HOBD_SUBCMD_DESCRIPTORS`. -/
def hobdSubcmdDescriptors : List CliSubcmdDesc := CliHobdSubcmdKind.all.map hobdSubcmdDescriptor

/-- `cli_get_cmd_desc`, which reads `CMD_DESCRIPTORS`. -/
def cliGetCmdDesc : CliCmdKind → CliCmdDesc
  | .help => ⟨"help", "           - print this help message", none⟩
  | .version => ⟨"version", "        - print version information", none⟩
  | .clear => ⟨"clear", "          - clear the screen", none⟩
  | .time => ⟨"time", "           - get the current time", none⟩
  | .info => ⟨"info", "           - print module info, statistics and metrics", none⟩
  | .debugScheduler => ⟨"debug-sched", "    - print the kernel scheduler information", none⟩
  | .mmc => ⟨"mmc", " <subcmd>   - MMC module and file ops", some mmcSubcmdDescriptors⟩
  | .hobd => ⟨"hobd", " <subcmd>  - HOBD and subsystems", some hobdSubcmdDescriptors⟩

/-- `cli_get_cmd_str`. -/
def cliGetCmdStr (cmd : CliCmdKind) : String := (cliGetCmdDesc cmd).cmd

/-- `cli_get_cmd_desc_str`. -/
def cliGetCmdDescStr (cmd : CliCmdKind) : String := (cliGetCmdDesc cmd).desc

/-- `cli_get_subcmd_array`. -/
def cliGetSubcmdArray (cmd : CliCmdKind) : Option (List CliSubcmdDesc) :=
  (cliGetCmdDesc cmd).subcmds

/-- `cli_get_subcmd_count`. -/
def cliGetSubcmdCount (cmd : CliCmdKind) : ℕ :=
  (cliGetSubcmdArray cmd).elim 0 List.length

/-! ### Words -/

/-- `cli_is_cmd`: the command, if there is one. -/
def cliIsCmd (str : String) : Option CliCmdKind :=
  CliCmdKind.all.find? fun cmd => str == cliGetCmdStr cmd

/-- What `cli_is_subcmd` returns. -/
inductive CliIsSubcmd where
  /-- `CLI_IS_SUBCMD_FALSE`. -/
  | no
  /-- `CLI_IS_SUBCMD_TRUE`, with the index of the subcommand. -/
  | yes (subcmdEnum : ℕ)
  /-- `CLI_IS_SUBCMD_MISSING`. -/
  | missing
  deriving DecidableEq, Repr

/-- `cli_is_subcmd`. -/
def cliIsSubcmd (str : String) (cmd : CliCmdKind) : CliIsSubcmd :=
  match ((cliGetSubcmdArray cmd).getD []).findIdx? fun desc => str == desc.subcmd with
  | some idx => .yes idx
  | none => if cliGetSubcmdCount cmd ≠ 0 then .missing else .no

/-- **A subcommand is found at the place of its kind**, and a word that is none is missing. -/
theorem cliIsSubcmd_eq {κ : Type*} (str : String) {cmd : CliCmdKind} {kinds : List κ}
    {descriptor : κ → CliSubcmdDesc} (harray : cliGetSubcmdArray cmd = some (kinds.map descriptor))
    (hkinds : kinds ≠ []) :
    (∃ idx kind, cliIsSubcmd str cmd = .yes idx ∧ kinds[idx]? = some kind ∧
      (kinds.find? fun kind => str == (descriptor kind).subcmd) = some kind) ∨
    cliIsSubcmd str cmd = .missing ∧
      (kinds.find? fun kind => str == (descriptor kind).subcmd) = none := by
  have hcount : cliGetSubcmdCount cmd ≠ 0 := by
    rw [cliGetSubcmdCount, harray, Option.elim_some, List.length_map]
    exact fun h => hkinds (List.length_eq_zero_iff.mp h)
  have hmap : (kinds.map descriptor).findIdx? (fun desc => str == desc.subcmd) =
      kinds.findIdx? fun kind => str == (descriptor kind).subcmd := List.findIdx?_map
  rw [cliIsSubcmd, harray, Option.getD_some, hmap, List.find?_eq_bind_findIdx?_getElem?]
  cases hidx : kinds.findIdx? fun kind => str == (descriptor kind).subcmd with
  | none => exact Or.inr ⟨if_pos hcount, rfl⟩
  | some idx =>
    obtain ⟨hlt, -⟩ := List.findIdx?_eq_some_iff_getElem.mp hidx
    have hkind : kinds[idx]? = some kinds[idx] := List.getElem?_eq_getElem hlt
    exact Or.inl ⟨idx, kinds[idx], rfl, hkind, hkind⟩

end HobdSystem
