import HobdSystem.Console.Exec

/-!
# What a line asks and prints

A line that is typed in at the console is a question to the other modules, or several, and a text
that is made of the answers. `HobdSystem.ConsoleLine.Prints` says which question belongs to which
line, and what the text is: the numbers in decimal, the time in minutes and seconds, the lines of
the help. It leaves the answers open, which are the business of whoever is asked.

**A line prints that, and nothing else** (`HobdSystem.talks_perform`). This is said of any world
the console may be talking to, so it is a fact about `console_module.c` alone: the other threads
may do whatever they like between two questions, and a console that asks another question, or
prints another number than the one it was given, does not pass.

The programs are first brought into a normal form, in which each of them is one text, or a text, a
question and another text. On the way the buffer of `snprintf` turns out to be large enough for any
number, and the arithmetic of the minutes and seconds turns out not to overflow.

Which questions a line can ask at all is `HobdSystem.ConsoleLine.queries`, for those who only want
to know that something is never asked.
-/

namespace HobdSystem

open Dialogue

/-! ### What is printed -/

/-- A line of text. -/
def textLine (text : String) : List Char := text.toList ++ ['\n']

/-- A label and a number. -/
def field (label : String) (n : ℕ) : List Char := label.toList ++ (fmtDec n ++ ['\n'])

/-- The help. -/
def helpText : List Char :=
  textLine "--- console ---" ++ textLine "commands:" ++
    CliCmdKind.all.flatMap (fun cmd => textLine (cliGetCmdStr cmd ++ cliGetCmdDescStr cmd) ++
      ((cliGetSubcmdArray cmd).getD []).flatMap fun desc =>
        textLine ("    " ++ desc.subcmd ++ desc.desc)) ++ ['\n']

/-- The version. -/
def versionText (cfg : ConsoleConfig) : List Char :=
  textLine "version information" ++ textLine ("  branch: " ++ cfg.gitBranch) ++
    textLine ("  revision: " ++ cfg.gitRevision)

/-- The time since the start in nanoseconds, and in minutes and seconds. -/
def timeText (ns : ℕ) : List Char :=
  "Current time: ".toList ++ fmtDec ns ++ textLine " ns" ++
    "Elapsed: ".toList ++ fmtDec (ns / 10 ^ 9 / 60) ++ " min : ".toList ++
    fmtDec (ns / 10 ^ 9 % 60) ++ textLine " sec"

/-- The counters and the flags, in the order in which they are asked for. -/
def infoText (mmc : MmcStats) (log : UInt32) (hobd : HobdStats) (enabled listenOnly : UInt32) :
    List Char :=
  textLine "Information, Statistics and Metrics" ++ textLine "MMC" ++
    field "  timestamp: " mmc.timestamp.toNat ++
    field "  entries_logged: " mmc.entriesLogged.toNat ++
    field "  enabled: " log.toNat ++ textLine "HOBD" ++
    field "  timestamp: " hobd.timestamp.toNat ++
    field "  valid_rx_count: " hobd.validRxCount.toNat ++
    field "  invalid_rx_count: " hobd.invalidRxCount.toNat ++
    field "  comm_gpio_retry_count: " hobd.commGpioRetryCount.toNat ++
    field "  comm_init_retry_count: " hobd.commInitRetryCount.toNat ++
    field "  comm_enabled: " enabled.toNat ++
    field "  comm_listen_only: " listenOnly.toNat

/-- The size of the log file. -/
def sizeText (size : ℕ) : List Char :=
  "MMC file size: ".toList ++ fmtDec size ++ textLine " bytes"

/-- **What a line asks, and what it prints.** A line that asks nothing still takes its time, in
which the world may move on. -/
def ConsoleLine.Prints {σ : Type*} (cfg : ConsoleConfig) (W : World ConsoleQuery.Answer σ)
    (t : List Char) (s s' : σ) : ConsoleLine → Prop
  | .unknown word => W.Moved s s' ∧ t = textLine (word ++ ": command not found")
  | .invalid => W.Moved s s' ∧ t = textLine "Invalid subcommand/arguments"
  | .help => W.Moved s s' ∧ t = helpText
  | .version => W.Moved s s' ∧ t = versionText cfg
  | .clear => W.Moved s s' ∧ t = "\x1b[2J\x1b[H".toList
  | .time => ∃ now : UInt64, W.Asked .getTime now s s' ∧ t = timeText now.toNat
  | .info => ∃ (mmc : MmcStats) (log : UInt32) (hobd : HobdStats) (enabled listenOnly : UInt32)
      (s₁ s₂ s₃ s₄ : σ), W.Asked (.mmc .getStats) mmc s s₁ ∧ W.Asked (.mmc .getState) log s₁ s₂ ∧
        W.Asked (.hobd .getStats) hobd s₂ s₃ ∧ W.Asked (.hobd .getCommState) enabled s₃ s₄ ∧
        W.Asked (.hobd .getListenOnly) listenOnly s₄ s' ∧
        t = infoText mmc log hobd enabled listenOnly
  | .debugScheduler =>
    if cfg.debugBuild then W.Asked .dumpScheduler () s s' ∧
      t = textLine "Dumping scheduler (only core 0 TCBs will be displayed?)" ++ ['\n', '\n']
    else W.Moved s s' ∧ t = textLine "Must be a debug build to do so"
  | .mmc .on => ∃ state : UInt32, W.Asked (.mmc (.setState 1)) state s s' ∧
      t = textLine "Enabling MMC file" ++ field "MMC status: " state.toNat
  | .mmc .off => ∃ state : UInt32, W.Asked (.mmc (.setState 0)) state s s' ∧
      t = textLine "Disabling MMC file" ++ field "MMC status: " state.toNat
  | .mmc .status => ∃ state : UInt32, W.Asked (.mmc .getState) state s s' ∧
      t = field "MMC status: " state.toNat
  | .mmc .fileSize => ∃ ret : Int32 × UInt32, W.Asked (.mmc .getFileSize) ret s s' ∧
      t = if ret.1 = 0 then sizeText ret.2.toNat else textLine "Failed to get MMC file size"
  | .mmc .rm => ∃ ret : Int32, W.Asked (.mmc .rm) ret s s' ∧
      t = if ret = 0 then textLine "Deleted the MMC file"
        else textLine "Failed to delete the MMC file"
  | .hobd .on => ∃ state : UInt32, W.Asked (.hobd (.setCommState 1)) state s s' ∧
      t = textLine "Enabling HOBD comms" ++ field "HOBD comms status: " state.toNat
  | .hobd .off => ∃ state : UInt32, W.Asked (.hobd (.setCommState 0)) state s s' ∧
      t = textLine "Disabling HOBD comms" ++ field "HOBD comms status: " state.toNat
  | .hobd .status => ∃ (enabled listenOnly : UInt32) (s₁ : σ),
      W.Asked (.hobd .getCommState) enabled s s₁ ∧
        W.Asked (.hobd .getListenOnly) listenOnly s₁ s' ∧
        t = field "HOBD comms status: " enabled.toNat ++
          field "HOBD comms listen-only: " listenOnly.toNat
  | .hobd .passive => ∃ (old new : UInt32) (s₁ : σ), W.Asked (.hobd .getListenOnly) old s s₁ ∧
      -- the mode is set to the other one, and what is printed is what it has come to be
      W.Asked (.hobd (.setListenOnly (if old = 0 then 1 else 0))) new s₁ s' ∧
        t = textLine (if old = 0 then "Enabling listen-only mode"
          else "Disabling listen-only mode") ++ field "HOBD comms listen-only: " new.toNat

theorem consolePrintln_eq (str : List Char) : consolePrintln str = tell (str ++ ['\n']) :=
  tell_bind_tell str ['\n']

/-- The buffer is large enough for any number. -/
theorem snprintf_eq {n : ℕ} (h : n < 2 ^ 64) : snprintf n = fmtDec n := by
  refine List.take_of_length_le (((Nat.length_toDigits_le_iff (by decide) (by decide)).mpr ?_).trans
    (show 20 ≤ 63 by decide))
  omega

theorem snprintf_uint64 (n : UInt64) : snprintf n.toNat = fmtDec n.toNat := snprintf_eq n.toNat_lt

theorem snprintf_uint32 (n : UInt32) : snprintf n.toNat = fmtDec n.toNat :=
  snprintf_eq (n.toNat_lt.trans (by decide))

theorem snprintf_uint16 (n : UInt16) : snprintf n.toNat = fmtDec n.toNat :=
  snprintf_eq (n.toNat_lt.trans (by decide))

theorem printField_eq {label : String} {n : ℕ} (h : snprintf n = fmtDec n) :
    printField label n = tell (field label n) := by
  rw [printField, consolePrintln_eq, h]
  exact tell_bind_tell _ _

/-- The minutes. -/
theorem toNat_minutes (now : UInt64) : (now / nsInMinute).toNat = now.toNat / 10 ^ 9 / 60 := by
  rw [UInt64.toNat_div, Nat.div_div_eq_div_mul]
  rfl

/-- The seconds that are left: the product does not overflow and the difference is not negative. -/
theorem toNat_seconds (now : UInt64) :
    ((now - now / nsInMinute * nsInMinute) / nsInS).toNat = now.toNat / 10 ^ 9 % 60 := by
  have hlt := now.toNat_lt
  have hminute : nsInMinute.toNat = 60000000000 := rfl
  have hmul : (now / nsInMinute * nsInMinute).toNat = now.toNat / 60000000000 * 60000000000 := by
    rw [UInt64.toNat_mul, UInt64.toNat_div, hminute]
    omega
  have hle : now / nsInMinute * nsInMinute ≤ now := by
    rw [UInt64.le_iff_toNat_le, hmul]
    omega
  have hsecond : nsInS.toNat = 1000000000 := rfl
  rw [UInt64.toNat_div, UInt64.toNat_sub_of_le _ _ hle, hmul, hsecond]
  omega

theorem printTime_eq (now : UInt64) : printTime now = tell (timeText now.toNat) := by
  simp only [printTime, consolePrint, consolePrintln_eq, tell_bind_tell]
  rw [snprintf_uint64, snprintf_uint64, snprintf_uint64, toNat_minutes, toNat_seconds]
  unfold timeText textLine
  simp only [List.append_assoc]

theorem printSubcmds_eq (descs : List CliSubcmdDesc) :
    printSubcmds descs = tell (descs.flatMap fun desc =>
      textLine ("    " ++ desc.subcmd ++ desc.desc)) := by
  induction descs with
  | nil => rfl
  | cons desc descs ih =>
    simp only [printSubcmds, consolePrint, consolePrintln_eq, ih, tell_bind_tell,
      List.flatMap_cons, textLine, String.toList_append, List.append_assoc]

theorem printCmds_eq (cmds : List CliCmdKind) :
    printCmds cmds = tell (cmds.flatMap fun cmd =>
      textLine (cliGetCmdStr cmd ++ cliGetCmdDescStr cmd) ++
        ((cliGetSubcmdArray cmd).getD []).flatMap fun desc =>
          textLine ("    " ++ desc.subcmd ++ desc.desc)) := by
  induction cmds with
  | nil => rfl
  | cons cmd cmds ih =>
    simp only [printCmds, consolePrint, consolePrintln_eq, printSubcmds_eq, ih, tell_bind_tell,
      List.flatMap_cons, textLine, String.toList_append, List.append_assoc]

theorem printHelp_eq : printHelp = tell helpText := by
  simp only [printHelp, consolePrint, consolePrintln_eq, printCmds_eq, tell_bind_tell, helpText,
    textLine, List.append_assoc]
  rfl

theorem printVersion_eq (cfg : ConsoleConfig) : printVersion cfg = tell (versionText cfg) := by
  simp only [printVersion, consolePrintln_eq, tell_bind_tell, versionText, textLine,
    String.toList_append, List.append_assoc]

theorem printMmcStats_eq (stats : MmcStats) : printMmcStats stats = tell (textLine "MMC" ++
    (field "  timestamp: " stats.timestamp.toNat ++
      field "  entries_logged: " stats.entriesLogged.toNat)) := by
  simp only [printMmcStats, consolePrintln_eq, printField_eq (snprintf_uint64 _),
    printField_eq (snprintf_uint32 _), tell_bind_tell, textLine]

theorem printHobdStats_eq (stats : HobdStats) : printHobdStats stats = tell (textLine "HOBD" ++
    (field "  timestamp: " stats.timestamp.toNat ++
      (field "  valid_rx_count: " stats.validRxCount.toNat ++
        (field "  invalid_rx_count: " stats.invalidRxCount.toNat ++
          (field "  comm_gpio_retry_count: " stats.commGpioRetryCount.toNat ++
            field "  comm_init_retry_count: " stats.commInitRetryCount.toNat))))) := by
  simp only [printHobdStats, consolePrintln_eq, printField_eq (snprintf_uint64 _),
    printField_eq (snprintf_uint16 _), tell_bind_tell, textLine]

theorem printFileSize_eq (status : Int32) (size : UInt32) : printFileSize status size =
    tell (if status = 0 then sizeText size.toNat else textLine "Failed to get MMC file size") := by
  unfold printFileSize
  split_ifs
  · unfold sizeText textLine
    simp only [consolePrint, consolePrintln_eq, tell_bind_tell, snprintf_uint32, List.append_assoc]
  · exact consolePrintln_eq _

theorem printRm_eq (status : Int32) : printRm status =
    tell (if status = 0 then textLine "Deleted the MMC file"
      else textLine "Failed to delete the MMC file") := by
  unfold printRm
  split_ifs
  · exact consolePrintln_eq _
  · exact consolePrintln_eq _

/-! ### Lines -/

section Lines

variable {σ : Type*} {W : World ConsoleQuery.Answer σ} {cfg : ConsoleConfig} {t : List Char}
  {s s' : σ}

theorem talks_println {text : String} {u : Unit} :
    (consolePrintln text.toList).Talks W s t u s' ↔ W.Moved s s' ∧ t = textLine text := by
  rw [consolePrintln_eq, talks_tell, and_comm]
  rfl

/-- A text, a question, and a text that depends on the answer. -/
theorem talks_tell_ask_tell (q : ConsoleQuery) {pre : List Char} {print : q.Answer → Console Unit}
    {u : Unit} {text : q.Answer → List Char} (hprint : ∀ x, print x = tell (text x)) :
    (tell pre >>= fun _ => ask q >>= print).Talks W s t u s' ↔
      ∃ x, W.Asked q x s s' ∧ t = pre ++ text x :=
  talks_tell_query_tell hprint

/-- An answer that is printed. -/
theorem talks_ask_tell (q : ConsoleQuery) {print : q.Answer → Console Unit} {u : Unit}
    {text : q.Answer → List Char} (hprint : ∀ x, print x = tell (text x)) :
    (ask q >>= print).Talks W s t u s' ↔ ∃ x, W.Asked q x s s' ∧ t = text x :=
  @talks_tell_ask_tell _ W t s s' q [] print u text hprint

/-- A switch that is reported. -/
theorem talks_showSwitch {label : String} {get : Console UInt32} {u : Unit} :
    (showSwitch label get).Talks W s t u s' ↔
      (tell label.toList >>= fun _ => get >>= fun x => tell (fmtDec x.toNat ++ ['\n'])).Talks
        W s t u s' := by
  simp only [showSwitch, consolePrint, consolePrintln_eq, snprintf_uint32]

/-- A switch that is set. -/
theorem talks_setSwitch {text label : String} {set : Console UInt32} {u : Unit} :
    (setSwitch text label set).Talks W s t u s' ↔
      (tell (textLine text) >>= fun _ => set >>= fun x => tell (field label x.toNat)).Talks
        W s t u s' := by
  simp only [setSwitch, consolePrintln_eq, printField_eq (snprintf_uint32 _), textLine]

/-- The flags of the HOBD module, which two of the lines report under names of their own. -/
theorem talks_showEnabled {label : String} {u : Unit} :
    (showSwitch label (ask (.hobd .getCommState))).Talks W s t u s' ↔
      ∃ x : UInt32, W.Asked (.hobd .getCommState) x s s' ∧ t = field label x.toNat :=
  talks_showSwitch.trans (talks_tell_ask_tell (.hobd .getCommState) fun _ => rfl)

theorem talks_showListenOnly {label : String} {u : Unit} :
    (showSwitch label (ask (.hobd .getListenOnly))).Talks W s t u s' ↔
      ∃ x : UInt32, W.Asked (.hobd .getListenOnly) x s s' ∧ t = field label x.toNat :=
  talks_showSwitch.trans (talks_tell_ask_tell (.hobd .getListenOnly) fun _ => rfl)

theorem talks_showLog {label : String} {u : Unit} :
    (showSwitch label (ask (.mmc .getState))).Talks W s t u s' ↔
      ∃ x : UInt32, W.Asked (.mmc .getState) x s s' ∧ t = field label x.toNat :=
  talks_showSwitch.trans (talks_tell_ask_tell (.mmc .getState) fun _ => rfl)

/-- The counters and the flags: five questions, one after the other. -/
theorem talks_handleInfo :
    handleInfo.Talks W s t () s' ↔ ConsoleLine.info.Prints cfg W t s s' := by
  have htext : ∀ mmc log hobd enabled listenOnly,
      infoText mmc log hobd enabled listenOnly =
        textLine "Information, Statistics and Metrics" ++
          ((textLine "MMC" ++ (field "  timestamp: " mmc.timestamp.toNat ++
            field "  entries_logged: " mmc.entriesLogged.toNat)) ++
          (field "  enabled: " log.toNat ++ ((textLine "HOBD" ++
            (field "  timestamp: " hobd.timestamp.toNat ++
              (field "  valid_rx_count: " hobd.validRxCount.toNat ++
                (field "  invalid_rx_count: " hobd.invalidRxCount.toNat ++
                  (field "  comm_gpio_retry_count: " hobd.commGpioRetryCount.toNat ++
                    field "  comm_init_retry_count: " hobd.commInitRetryCount.toNat))))) ++
          (field "  comm_enabled: " enabled.toNat ++
            field "  comm_listen_only: " listenOnly.toNat)))) := by
    intro mmc log hobd enabled listenOnly
    simp only [infoText, List.append_assoc]
  simp only [ConsoleLine.Prints, htext]
  rw [handleInfo]
  constructor
  · intro h
    obtain ⟨_, _, s₀, _, rfl, htitle, h₁⟩ := talks_bind.mp h
    obtain ⟨_, _, s₁, _, rfl, hmmc, h₂⟩ := talks_bind.mp h₁
    obtain ⟨_, _, s₂, _, rfl, hlog, h₃⟩ := talks_bind.mp h₂
    obtain ⟨_, _, s₃, _, rfl, hhobd, h₄⟩ := talks_bind.mp h₃
    obtain ⟨_, _, s₄, _, rfl, henabled, hlisten⟩ := talks_bind.mp h₄
    obtain ⟨hmoved, rfl⟩ := talks_println.mp htitle
    obtain ⟨mmc, hasked₁, rfl⟩ := (talks_ask_tell (.mmc .getStats) printMmcStats_eq).mp hmmc
    obtain ⟨log, hasked₂, rfl⟩ := talks_showLog.mp hlog
    obtain ⟨hobd, hasked₃, rfl⟩ := (talks_ask_tell (.hobd .getStats) printHobdStats_eq).mp hhobd
    obtain ⟨enabled, hasked₄, rfl⟩ := talks_showEnabled.mp henabled
    obtain ⟨listenOnly, hasked₅, rfl⟩ := talks_showListenOnly.mp hlisten
    exact ⟨mmc, log, hobd, enabled, listenOnly, s₁, s₂, s₃, s₄, hmoved.then hasked₁, hasked₂,
      hasked₃, hasked₄, hasked₅, rfl⟩
  · rintro ⟨mmc, log, hobd, enabled, listenOnly, s₁, s₂, s₃, s₄, hasked₁, hasked₂,
      hasked₃, hasked₄, hasked₅, rfl⟩
    refine talks_bind.mpr ⟨_, (), s, _, rfl, talks_println.mpr ⟨.refl, rfl⟩, ?_⟩
    refine talks_bind.mpr ⟨_, (), s₁, _, rfl,
      (talks_ask_tell (.mmc .getStats) printMmcStats_eq).mpr ⟨mmc, hasked₁, rfl⟩, ?_⟩
    refine talks_bind.mpr ⟨_, (), s₂, _, rfl, talks_showLog.mpr ⟨log, hasked₂, rfl⟩, ?_⟩
    refine talks_bind.mpr ⟨_, (), s₃, _, rfl,
      (talks_ask_tell (.hobd .getStats) printHobdStats_eq).mpr ⟨hobd, hasked₃, rfl⟩, ?_⟩
    exact talks_bind.mpr ⟨_, (), s₄, _, rfl,
      talks_showEnabled.mpr ⟨enabled, hasked₄, rfl⟩,
      talks_showListenOnly.mpr ⟨listenOnly, hasked₅, rfl⟩⟩

theorem talks_handleDebugScheduler :
    (handleDebugScheduler cfg).Talks W s t () s' ↔
      ConsoleLine.debugScheduler.Prints cfg W t s s' := by
  rw [ConsoleLine.Prints]
  unfold handleDebugScheduler
  split_ifs with hdebug
  · simp only [consolePrint, consolePrintln_eq, ← Dialogue.bind_assoc, tell_bind_tell]
    rw [Dialogue.bind_assoc]
    have hprint : ∀ _ : Unit, (tell ['\n'] : Console Unit) = tell ['\n'] := fun _ => rfl
    refine (talks_tell_ask_tell .dumpScheduler hprint).trans ?_
    constructor
    · rintro ⟨⟨⟩, hasked, rfl⟩
      exact ⟨hasked, by simp [textLine]⟩
    · rintro ⟨hasked, rfl⟩
      exact ⟨(), hasked, by simp [textLine]⟩
  · exact talks_println

theorem talks_handleMmcSubcmd (kind : CliMmcSubcmdKind) :
    (handleMmcSubcmd kind).Talks W s t () s' ↔ (ConsoleLine.mmc kind).Prints cfg W t s s' := by
  cases kind with
  | on => exact talks_setSwitch.trans (talks_tell_ask_tell (.mmc (.setState 1)) fun _ => rfl)
  | off => exact talks_setSwitch.trans (talks_tell_ask_tell (.mmc (.setState 0)) fun _ => rfl)
  | status => exact talks_showLog
  | fileSize => exact talks_ask_tell (.mmc .getFileSize) fun ret => printFileSize_eq ret.1 ret.2
  | rm => exact talks_ask_tell (.mmc .rm) printRm_eq

/-- Two questions, the second of which may depend on the answer to the first. -/
theorem talks_toggle : (handleHobdSubcmd .passive).Talks W s t () s' ↔
    (ConsoleLine.hobd .passive).Prints cfg W t s s' := by
  have htoggle : ∀ {t s s'} (old : UInt32), (toggleListenOnly old).Talks W s t () s' ↔
      ∃ new : UInt32, W.Asked (.hobd (.setListenOnly (if old = 0 then 1 else 0))) new s s' ∧
        t = textLine (if old = 0 then "Enabling listen-only mode"
          else "Disabling listen-only mode") ++ field "HOBD comms listen-only: " new.toNat := by
    intro t s s' old
    exact talks_setSwitch.trans
      (talks_tell_ask_tell (.hobd (.setListenOnly (if old = 0 then 1 else 0))) fun _ => rfl)
  constructor
  · intro h
    obtain ⟨_, old, s₁, _, rfl, hask, hset⟩ := talks_bind.mp h
    obtain ⟨rfl, hasked⟩ := talks_query.mp hask
    obtain ⟨new, hasked', rfl⟩ := (htoggle old).mp hset
    exact ⟨old, new, s₁, hasked, hasked', rfl⟩
  · rintro ⟨old, new, s₁, hasked, hasked', rfl⟩
    exact talks_bind.mpr ⟨[], old, s₁, _, rfl, talks_query.mpr ⟨rfl, hasked⟩,
      (htoggle old).mpr ⟨new, hasked', rfl⟩⟩

theorem talks_handleHobdSubcmd (kind : CliHobdSubcmdKind) :
    (handleHobdSubcmd kind).Talks W s t () s' ↔ (ConsoleLine.hobd kind).Prints cfg W t s s' := by
  cases kind with
  | on => exact talks_setSwitch.trans (talks_tell_ask_tell (.hobd (.setCommState 1)) fun _ => rfl)
  | off => exact talks_setSwitch.trans (talks_tell_ask_tell (.hobd (.setCommState 0)) fun _ => rfl)
  | status =>
    rw [handleHobdSubcmd, talks_bind]
    constructor
    · rintro ⟨_, _, s₁, _, rfl, hfirst, hsecond⟩
      obtain ⟨enabled, hasked, rfl⟩ := talks_showEnabled.mp hfirst
      obtain ⟨listenOnly, hasked', rfl⟩ := talks_showListenOnly.mp hsecond
      exact ⟨enabled, listenOnly, s₁, hasked, hasked', rfl⟩
    · rintro ⟨enabled, listenOnly, s₁, hasked, hasked', rfl⟩
      exact ⟨_, (), s₁, _, rfl, talks_showEnabled.mpr ⟨enabled, hasked, rfl⟩,
        talks_showListenOnly.mpr ⟨listenOnly, hasked', rfl⟩⟩
  | passive => exact talks_toggle

/-- **Every line asks and prints what it should**, whoever answers and whatever happens in
between. The program of a line is brought into its normal form, where texts and questions
alternate, and that form is what is said of the line. -/
theorem talks_perform (line : ConsoleLine) :
    (line.perform cfg).Talks W s t () s' ↔ line.Prints cfg W t s s' := by
  cases line with
  | unknown word =>
    rw [ConsoleLine.perform, consolePrint, consolePrintln_eq, tell_bind_tell, talks_tell, and_comm,
      ConsoleLine.Prints, textLine, String.toList_append, List.append_assoc]
  | invalid => exact talks_println
  | help =>
    rw [ConsoleLine.perform, printHelp_eq, talks_tell, and_comm]
    rfl
  | version =>
    rw [ConsoleLine.perform, printVersion_eq, talks_tell, and_comm]
    rfl
  | clear =>
    rw [ConsoleLine.perform, clearConsole, consolePrint, consolePrint, tell_bind_tell, talks_tell,
      and_comm]
    rfl
  | time => exact talks_ask_tell .getTime printTime_eq
  | info => exact talks_handleInfo
  | debugScheduler => exact talks_handleDebugScheduler
  | mmc kind => exact talks_handleMmcSubcmd kind
  | hobd kind => exact talks_handleHobdSubcmd kind

/-- **What is typed in is one of the lines**, and it is done behind the end of the line that the
console puts out itself. -/
theorem talks_consoleExec {word : String} {words : List (Option String)} :
    (consoleExec cfg (some word :: words)).Talks W s t () s' ↔
      ∃ u, t = '\n' :: u ∧ (readLine word words).Prints cfg W u s s' := by
  rw [consoleExec_eq, talks_bind]
  constructor
  · rintro ⟨_, _, s₁, u, rfl, hline, hperform⟩
    obtain ⟨rfl, hmoved⟩ := talks_tell.mp hline
    exact ⟨u, rfl, (talks_perform _).mp (hperform.of_moved hmoved)⟩
  · rintro ⟨u, rfl, hprints⟩
    exact ⟨['\n'], (), s, u, rfl, talks_tell.mpr ⟨rfl, .refl⟩, (talks_perform _).mpr hprints⟩

end Lines

end HobdSystem
