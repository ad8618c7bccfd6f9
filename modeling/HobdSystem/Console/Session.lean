import HobdSystem.Console.Lines
import HobdSystem.Dump.LogService
import HobdSystem.Hobd.Statistics

/-!
# Sessions at the console

The console in its surroundings: the MMC thread, the thread that talks to the ECU, the time server,
the FAT library, and other threads that log. All of them go on while the console handles a line, and
between the calls it makes (`HobdSystem.System.Moves`). A call of the HOBD module is answered where
the thread next receives, and every request, entry and flush is handled whole.

To whoever types at the console, the system is a panel: three switches – the K-line comms, their
listen-only mode, and the log – which only the console moves, and instruments that go on by
themselves: the clock, the counters of the two modules, the size of the file. What a question is
answered with, as a function of the switches and of what the instruments show when it is asked, is
`HobdSystem.System.reading`; what it does to the switches is `HobdSystem.Switches.after`. A log can
be switched on if the library opens the file, so that answer depends on the library as it is at
that moment.

**Whatever the others do meanwhile, a session at the console is one with such a panel**
(`HobdSystem.console_session`): every line asks and prints what it should, every number it prints
is the reading at the moment it was asked for, and the flags of the two modules are left as the
lines have set them.

That the switches do not move on their own is the point of the proof: no run of the thread changes
its flags but for a message, however the exchange with the ECU goes, and neither a flush nor an
entry switches the log off, even where the file cannot be opened again.
-/

namespace HobdSystem

open Dialogue Simulation

/-! ### The surroundings -/

/-- What the console has to do with: the time server and the FAT library, as they answer at the
moment, the registers that messages are passed in, and the two modules. -/
structure System (H : Type*) where
  /-- What `time_server_get_time` returns. -/
  time : UInt64
  fat : FatResults H
  ipc : Ipc
  mmc : MmcServer H
  hobd : CommThread

/-- Nobody calls the thread: it goes on with its round, or the timer fires, but no request of
another thread is waiting at its endpoint. -/
def CommInput.Quiet : CommInput → Prop
  | .timeout => True
  | .run r => r.message = none

/-- An entry that some thread logs, or the timer. -/
def MmcInput.Background {H : Type*} : MmcInput H → Prop
  | .request _ _ _ => False
  | _ => True

section World

variable {H : Type*} [DecidableEq H]

/-- What happens without the console. The clock goes on, and the library may answer in another way
from now on. The entries that the HOBD module logs in a move are logged in moves of the MMC
module. -/
inductive System.Moves : System H → System H → Prop
  | clock {s : System H} {time : UInt64} (h : s.time ≤ time) : Moves s { s with time := time }
  | library {s : System H} (fat : FatResults H) : Moves s { s with fat := fat }
  | hobd {s : System H} {i : CommInput} {hobd' : CommThread} (hi : i.Quiet)
      (hstep : (commStep i s.hobd).result = some hobd') : Moves s { s with hobd := hobd' }
  | mmc {s : System H} {i : MmcInput H} {o : MmcOutput} {st' : Ipc × MmcServer H}
      (hi : i.Background) (hdata : i.DataOk)
      (hstep : mmcStep i (s.ipc, s.mmc) = some (o, st')) :
      Moves s { s with ipc := st'.1, mmc := st'.2 }

/-- A call of the console is answered, by the module it is for. The HOBD module answers at the end
of a round only; the other module is as it was. -/
def System.Serves : (q : ConsoleQuery) → q.Answer → System H → System H → Prop
  | .getTime, x, s, s' => x = s.time ∧ s' = s
  | .dumpScheduler, _, s, s' => s' = s
  | .mmc q, x, s, s' => ∃ st' : Ipc × MmcServer H,
    mmcRequest q s.time s.fat (s.ipc, s.mmc) = some (q.answer x, st') ∧
      s' = { s with ipc := st'.1, mmc := st'.2 }
  | .hobd q, x, s, s' => ∃ blocking r, ∃ st' : Ipc × CommThread, s.hobd.point = .recv blocking ∧
    (q = .getStats → r.firstTime = some s.time) ∧
      hobdRequest q blocking r (s.ipc, s.hobd) = some (q.answer x, st') ∧
      s' = { s with ipc := st'.1, hobd := st'.2 }

/-- The surroundings of the console. -/
def systemWorld (H : Type*) [DecidableEq H] : World ConsoleQuery.Answer (System H) :=
  ⟨System.Moves, System.Serves⟩

/-- **A session**: lines that are typed in one after the other, and what each of them prints. -/
def ConsoleSession (cfg : ConsoleConfig) (s : System H) (lines : List (List (Option String)))
    (outs : List (List Char)) (s' : System H) : Prop :=
  Runs (fun argv t s s' => (consoleExec cfg argv).Talks (systemWorld H) s t () s') s lines outs s'

end World

/-! ### The panel -/

/-- The three switches. -/
structure Switches where
  enabled : Bool
  listenOnly : Bool
  logOn : Bool
  deriving DecidableEq, Repr

/-- A switch as the modules report it. -/
def flagWord (b : Bool) : UInt32 := if b then 1 else 0

/-- A reported switch. -/
def wordFlag (state : UInt32) : Bool := decide (state ≠ 0)

/-- What a question that has been answered has done to the switches. -/
def Switches.after (w : Switches) : (q : ConsoleQuery) → q.Answer → Switches
  | .mmc (.setState _), state => { w with logOn := wordFlag state }
  | .hobd (.setCommState _), state => { w with enabled := wordFlag state }
  | .hobd (.setListenOnly _), state => { w with listenOnly := wordFlag state }
  | _, _ => w

section Panel

variable {H : Type*} [DecidableEq H]

/-- **What a question is answered with**, with the switches in some position: the clock, the
counters, the flags, and what the library says to the calls that are made on behalf of the
question. -/
def System.reading (s : System H) (w : Switches) : (q : ConsoleQuery) → q.Answer
  | .getTime => s.time
  | .dumpScheduler => ()
  | .mmc .getStats => (⟨s.time, s.mmc.stats.entriesLogged⟩ : MmcStats)
  | .mmc .getState => flagWord w.logOn
  | .mmc (.setState state) =>
    flagWord (decide (state ≠ 0) && (s.fat.fopen s.mmc.io.handles).isSome)
  | .mmc .getFileSize =>
    ((if w.logOn then if s.mmc.io.file.ref.isSome then (0, s.fat.filelength) else (3, 0)
      else (0, 0)) : Int32 × UInt32)
  | .mmc .rm =>
    -- the file is closed, removed and opened again
    ((if w.logOn then
      if (s.fat.fopen (mmcFclose s.mmc.io).handles).isSome && decide (s.fat.remove = 0) then 0
      else 2 else 0) : Int32)
  | .hobd .getStats => s.hobd.statsAt s.time
  | .hobd .getCommState => flagWord w.enabled
  | .hobd (.setCommState state) => flagWord (decide (state ≠ 0))
  | .hobd .getListenOnly => flagWord w.listenOnly
  | .hobd (.setListenOnly state) => flagWord (decide (state ≠ 0))

/-- The system with the switches beside it: they do not move on their own, and every answer is the
reading at the moment of the question. -/
def panelWorld (H : Type*) [DecidableEq H] : World ConsoleQuery.Answer (System H × Switches) where
  moves p p' := p.1.Moves p'.1 ∧ p'.2 = p.2
  serves q x p p' := x = p.1.reading p.2 q ∧ System.Serves q x p.1 p'.1 ∧ p'.2 = p.2.after q x

/-- A line typed in at the panel. -/
def Typed (cfg : ConsoleConfig) :
    List (Option String) → List Char → System H × Switches → System H × Switches → Prop
  | [], t, p, p' => t = [] ∧ (panelWorld H).Moved p p'
  | none :: _, _, _, _ => False
  | some word :: words, t, p, p' =>
    ∃ u, t = '\n' :: u ∧ (readLine word words).Prints cfg (panelWorld H) u p p'

/-- The flags of the modules are where the switches are: those of the HOBD module as they are
reported, and the one of the log as it is for the log that the MMC module is. -/
structure Shows (start : List UInt8) (s : System H) (w : Switches) : Prop where
  enabled : s.hobd.comm.enabled.toUInt32 = flagWord w.enabled
  listenOnly : s.hobd.comm.listenOnly.toUInt32 = flagWord w.listenOnly
  log : ∃ a, IsService start s.mmc a ∧ a.on = w.logOn

/-! ### The switches stay where they are -/

/-- Only a message changes a flag. -/
theorem commStep_quiet {i : CommInput} {s s' : CommThread} (hi : i.Quiet)
    (hs' : (commStep i s).result = some s') :
    s'.comm.enabled = s.comm.enabled ∧ s'.comm.listenOnly = s.comm.listenOnly := by
  cases i with
  | timeout =>
    obtain rfl := Option.some.inj hs'
    exact ⟨rfl, rfl⟩
  | run r => exact (commMoves_of_result hs').flags fun _ _ => hi

omit [DecidableEq H] in
/-- The log stays on or off unless it is asked to change. -/
theorem does_on {i : MmcInput H} {o : MmcOutput} {a a' : LogService}
    (hi : ∀ state now r, i ≠ .request (.setState state) now r) (h : LogService.Does i o a a') :
    a'.on = a.on := by
  cases i with
  | request q now r =>
    cases q with
    | setState state => exact absurd rfl (hi state now r)
    | getStats | getState | getFileSize => rw [h.2]
    | rm =>
      simp only [LogService.Does] at h
      split_ifs at h
      · obtain ⟨opened, -, rfl⟩ := h
        rfl
      · rw [h.2]
  | log q =>
    obtain ⟨-, -, -, h⟩ := h
    split_ifs at h
    · rw [h.2]
      rfl
    · rw [h]
  | hardFlush r =>
    simp only [LogService.Does] at h
    split_ifs at h
    · obtain ⟨opened, -, rfl⟩ := h
      rfl
    · rw [h.2]

variable {start : List UInt8}

theorem Shows.move {s s' : System H} {w : Switches} (h : Shows start s w) (hmove : s.Moves s') :
    Shows start s' w := by
  cases hmove with
  | clock hle => exact ⟨h.enabled, h.listenOnly, h.log⟩
  | library fat => exact ⟨h.enabled, h.listenOnly, h.log⟩
  | hobd hi hstep =>
    obtain ⟨hen, hlisten⟩ := commStep_quiet hi hstep
    exact ⟨by rw [← h.enabled, ← hen], by rw [← h.listenOnly, ← hlisten], h.log⟩
  | mmc hi hdata hstep =>
    obtain ⟨a, ha, hon⟩ := h.log
    obtain ⟨a', hdoes, ha'⟩ := ha.step s.ipc _ hdata hstep
    refine ⟨h.enabled, h.listenOnly, a', ha', (does_on (fun state now r => ?_) hdoes).trans hon⟩
    rintro rfl
    exact hi.elim

/-! ### Answers -/

theorem MmcRequest.answer_inj {q : MmcRequest} {x y : q.Ret} (h : q.answer x = q.answer y) :
    x = y := by
  cases q with
  | getStats => exact MmcAnswer.stats.inj h
  | rm => exact MmcAnswer.status.inj h
  | getFileSize =>
    obtain ⟨hret, hsize⟩ := MmcAnswer.size.inj h
    exact Prod.ext hret hsize
  | setState state => exact MmcAnswer.state.inj h
  | getState => exact MmcAnswer.state.inj h

theorem HobdRequest.answer_inj {q : HobdRequest} {x y : q.Ret} (h : q.answer x = q.answer y) :
    x = y := by
  cases q with
  | getStats => exact HobdAnswer.stats.inj h
  | setCommState state => exact HobdAnswer.flag.inj h
  | getCommState => exact HobdAnswer.flag.inj h
  | setListenOnly state => exact HobdAnswer.flag.inj h
  | getListenOnly => exact HobdAnswer.flag.inj h

/-- What the MMC module answers is the reading. -/
theorem Shows.perform_mmc {s : System H} {w : Switches} (h : Shows start s w) (q : MmcRequest) :
    (q.perform s.time s.fat s.mmc).1 = q.answer (s.reading w (.mmc q)) := by
  obtain ⟨a, ha, hon⟩ := h.log
  cases q with
  | getStats => rfl
  | getState =>
    change MmcAnswer.state (mmcFileGetEnabled s.mmc.io.file) = _
    rw [ha.log.getEnabled, hon]
    rfl
  | setState state => exact ha.perform_setState state s.time s.fat
  | getFileSize =>
    rw [ha.perform_getFileSize, hon, ← ha.log.ref_eq]
    change _ = (MmcRequest.answer .getFileSize
      (if w.logOn then if s.mmc.io.file.ref.isSome then (0, s.fat.filelength) else (3, 0)
        else (0, 0) : Int32 × UInt32))
    cases w.logOn <;> cases s.mmc.io.file.ref.isSome <;> rfl
  | rm =>
    rw [ha.perform_rm, hon]
    rfl

@[simp] theorem wordFlag_flagWord (b : Bool) : wordFlag (flagWord b) = b := by
  cases b <;> rfl

/-- **A request of the MMC module** is answered with the reading, and moves the switch of the
log if it is one to do so. -/
theorem Shows.mmc {s s' : System H} {w : Switches} (h : Shows start s w) {q : MmcRequest}
    {x : q.Ret} (hserve : System.Serves (.mmc q) x s s') :
    x = s.reading w (.mmc q) ∧ Shows start s' (w.after (.mmc q) x) := by
  obtain ⟨st', hcall, rfl⟩ := hserve
  obtain ⟨a, ha, hon⟩ := h.log
  obtain ⟨ipc', heq⟩ := mmcRequest_eq s.time s.fat s.ipc s.mmc q
  obtain ⟨hx, rfl⟩ := Prod.mk.inj (Option.some.inj (heq.symm.trans hcall))
  have hreading : x = s.reading w (.mmc q) :=
    MmcRequest.answer_inj (hx.symm.trans (h.perform_mmc q))
  obtain ⟨a', hdoes, ha'⟩ := ha.request q s.time s.fat
  refine ⟨hreading, ?_⟩
  cases q with
  | setState state =>
    refine ⟨h.enabled, h.listenOnly, a', ha', ?_⟩
    have hstate : (x : UInt32) = flagWord a'.on := by
      have hanswer : MmcAnswer.state (mmcFileGetEnabled (stateSetReq state s.fat s.mmc).2.io.file) =
          .state x := hx
      exact (MmcAnswer.state.inj hanswer).symm.trans ha'.log.getEnabled
    change a'.on = wordFlag x
    rw [hstate, wordFlag_flagWord]
  | getStats | getState | getFileSize | rm =>
    exact ⟨h.enabled, h.listenOnly, a', ha', (does_on (by simp) hdoes).trans hon⟩

theorem toUInt32_desiredFlag (state : UInt32) :
    (desiredFlag state).toUInt32 = flagWord (decide (state ≠ 0)) := by
  by_cases h : state = 0
  · rw [desiredFlag, if_pos h, h]
    rfl
  · rw [desiredFlag, if_neg h, decide_eq_true h]
    rfl

/-- What the HOBD module answers is the reading. -/
theorem Shows.perform_hobd {s : System H} {w : Switches} (h : Shows start s w) (q : HobdRequest) :
    (q.perform s.time s.hobd).1 = q.answer (s.reading w (.hobd q)) := by
  cases q with
  | getStats => rfl
  | getCommState => exact congrArg HobdAnswer.flag h.enabled
  | getListenOnly => exact congrArg HobdAnswer.flag h.listenOnly
  | setCommState state => exact congrArg HobdAnswer.flag (toUInt32_desiredFlag state)
  | setListenOnly state => exact congrArg HobdAnswer.flag (toUInt32_desiredFlag state)

/-- **A request of the HOBD module** is answered with the reading, and moves a switch if it is one
to do so. -/
theorem Shows.hobd {s s' : System H} {w : Switches} (h : Shows start s w) {q : HobdRequest}
    {x : q.Ret} (hserve : System.Serves (.hobd q) x s s') :
    x = s.reading w (.hobd q) ∧ Shows start s' (w.after (.hobd q) x) := by
  obtain ⟨blocking, r, st', -, hnow, hcall, rfl⟩ := hserve
  obtain ⟨ipc', heq⟩ := hobdRequest_eq blocking r s.ipc s.hobd q hnow
  obtain ⟨hx, rfl⟩ := Prod.mk.inj (Option.some.inj (heq.symm.trans hcall))
  have hreading : x = s.reading w (.hobd q) :=
    HobdRequest.answer_inj (hx.symm.trans (h.perform_hobd q))
  refine ⟨hreading, ?_⟩
  subst hreading
  cases q with
  | getStats => exact ⟨h.enabled, h.listenOnly, h.log⟩
  | getCommState => exact ⟨h.enabled, h.listenOnly, h.log⟩
  | getListenOnly => exact ⟨h.enabled, h.listenOnly, h.log⟩
  | setCommState state =>
    refine ⟨(toUInt32_desiredFlag state).trans ?_, h.listenOnly, h.log⟩
    exact congrArg flagWord (wordFlag_flagWord _).symm
  | setListenOnly state =>
    refine ⟨h.enabled, (toUInt32_desiredFlag state).trans ?_, h.log⟩
    exact congrArg flagWord (wordFlag_flagWord _).symm

/-- **The system does nothing that the panel does not show**: what happens on its own moves no
switch, every answer is the reading of the panel, and a switch is afterwards where the answer says
it is. -/
theorem simulates_panel : (systemWorld H).Simulates (panelWorld H)
    fun s p => p.1 = s ∧ Shows start s p.2 where
  moves := by
    rintro _ s' ⟨s, w⟩ ⟨rfl, h⟩ hmove
    exact ⟨(s', w), .single ⟨hmove, rfl⟩, rfl, h.move hmove⟩
  serves := by
    rintro q x _ s' ⟨s, w⟩ ⟨rfl, h⟩ hserve
    have hanswer : x = s.reading w q ∧ Shows start s' (w.after q x) := by
      cases q with
      | getTime =>
        obtain ⟨hx, rfl⟩ := hserve
        exact ⟨hx, h⟩
      | dumpScheduler =>
        obtain rfl : s' = s := hserve
        exact ⟨rfl, h⟩
      | mmc q => exact h.mmc hserve
      | hobd q => exact h.hobd hserve
    exact ⟨(s', w.after q x), ⟨hanswer.1, hserve, rfl⟩, rfl, hanswer.2⟩

/-! ### Lines -/

/-- One line. -/
theorem typed_of_talks {cfg : ConsoleConfig} {p p' : System H × Switches}
    {argv : List (Option String)} {t : List Char}
    (htalk : (consoleExec cfg argv).Talks (panelWorld H) p t () p') : Typed cfg argv t p p' := by
  rcases argv with _ | ⟨_ | word, words⟩
  · obtain ⟨rfl, -, hmoved⟩ := talks_pure.mp htalk
    exact ⟨rfl, hmoved⟩
  · exact (talks_halt.mp htalk).elim
  · exact talks_consoleExec.mp htalk

theorem ConsoleSession.typed {cfg : ConsoleConfig} {s s' : System H} {w : Switches}
    {lines : List (List (Option String))} {outs : List (List Char)}
    (h : ConsoleSession cfg s lines outs s') (hw : Shows start s w) :
    ∃ w', Runs (Typed cfg) (s, w) lines outs (s', w') ∧ Shows start s' w' := by
  have hstep : ∀ {argv t s s'} {p : System H × Switches}, p.1 = s ∧ Shows start s p.2 →
      (consoleExec cfg argv).Talks (systemWorld H) s t () s' →
      ∃ p', Typed cfg argv t p p' ∧ p'.1 = s' ∧ Shows start s' p'.2 := by
    intro argv t s s' p hR htalk
    obtain ⟨p', htalk', hR'⟩ := htalk.simulate simulates_panel hR
    exact ⟨p', typed_of_talks htalk', hR'⟩
  obtain ⟨⟨_, w'⟩, hruns, rfl, hw'⟩ :=
    h.refines (R := fun s p => p.1 = s ∧ Shows start s p.2) (a := (s, w)) hstep ⟨rfl, hw⟩
  exact ⟨w', hruns, hw'⟩

end Panel

/-! ### The result -/

section Results

variable {H : Type*} [DecidableEq H]

/-- Both modules have started, on a card that holds the entries of earlier starts. -/
structure System.Starts (earlier : List MmcEntry) (s : System H) : Prop where
  hobd : ∃ r, (obdCommThreadStart r hobdModuleInit).result = some s.hobd
  mmc : ∃ mediaAttached rOpen rMarker now msgRxBuffer io, io.calls = [] ∧
    mmcThreadStart mediaAttached rOpen rMarker now msgRxBuffer io = some s.mmc
  wellFormed : ∀ e ∈ earlier, e.WellFormed

theorem System.Starts.shows {earlier : List MmcEntry} {s : System H} (h : s.Starts earlier) :
    Shows (earlier.flatMap MmcEntry.bytes) s ⟨false, true, true⟩ := by
  obtain ⟨r, hhobd⟩ := h.hobd
  obtain ⟨_, _, _, _, _, _, hcalls, hmmc⟩ := h.mmc
  obtain ⟨hcomm, -⟩ := (obdCommThreadStart_emits r).2 s.hobd hhobd
  exact ⟨by rw [hcomm]; rfl, by rw [hcomm]; rfl, _,
    isService_mmcThreadStart hmmc h.wellFormed hcalls, rfl⟩

/-- **A session at the console is one with a panel.** Let both modules start, and let lines be typed
in at the console. Whatever comes in on the K-line meanwhile, whoever logs, whenever a timer fires
and whatever the FAT library answers, each line asks what it should and prints the text for the
answers; each answer is the reading at the moment of the question, with the three switches as the
lines before have left them; and the flags of the two modules are left as the switches are. -/
theorem console_session (cfg : ConsoleConfig) (earlier : List MmcEntry) (s s' : System H)
    (hs : s.Starts earlier) (lines : List (List (Option String))) (outs : List (List Char))
    (h : ConsoleSession cfg s lines outs s') :
    ∃ w, Runs (Typed cfg) (s, ⟨false, true, true⟩) lines outs (s', w) ∧
      s'.hobd.comm.enabled.toUInt32 = flagWord w.enabled ∧
      s'.hobd.comm.listenOnly.toUInt32 = flagWord w.listenOnly ∧
      mmcFileGetEnabled s'.mmc.io.file = flagWord w.logOn := by
  obtain ⟨w, hruns, hw⟩ := h.typed hs.shows
  obtain ⟨a, ha, hon⟩ := hw.log
  refine ⟨w, hruns, hw.enabled, hw.listenOnly, ?_⟩
  rw [ha.log.getEnabled, hon]
  rfl

/-! ### A session -/

/-- Entries and flushes are moves of the system. -/
theorem moved_of_exec {s : System H} {is : List (MmcInput H)} {os : List MmcOutput}
    {st' : Ipc × MmcServer H} (his : ∀ i ∈ is, i.Background ∧ i.DataOk)
    (h : exec mmcStep (s.ipc, s.mmc) is = some (os, st')) :
    (systemWorld H).Moved s { s with ipc := st'.1, mmc := st'.2 } := by
  induction is generalizing s os with
  | nil =>
    obtain ⟨-, rfl⟩ := Prod.mk.inj (Option.some.inj h)
    exact .refl
  | cons i is ih =>
    obtain ⟨o, st₁, os', hstep, hrest, -⟩ := exec_cons_eq_some.mp h
    obtain ⟨hi, hdata⟩ := his i List.mem_cons_self
    exact .head (.mmc hi hdata hstep)
      (ih (s := { s with ipc := st₁.1, mmc := st₁.2 })
        (fun j hj => his j (List.mem_cons_of_mem i hj)) hrest)

/-- A step that answers a request serves the console. -/
theorem serves_of_mmcStep {s : System H} {q : MmcRequest} {x : q.Ret} {o : MmcOutput}
    {st' : Ipc × MmcServer H}
    (h : mmcStep (.request q s.time s.fat) (s.ipc, s.mmc) = some (o, st'))
    (hx : o.answer = some (q.answer x)) :
    System.Serves (.mmc q) x s { s with ipc := st'.1, mmc := st'.2 } := by
  obtain ⟨⟨answer, st⟩, hnext, heq⟩ := Option.map_eq_some_iff.mp h
  obtain ⟨rfl, rfl⟩ := Prod.mk.inj heq
  obtain ⟨⟨answer', st''⟩, hrequest, heq⟩ := Option.map_eq_some_iff.mp hnext
  obtain ⟨rfl, rfl⟩ := Prod.mk.inj heq
  obtain rfl := Option.some.inj hx
  exact ⟨_, hrequest, rfl⟩

end Results

/-- A line that switches the log, after some entries and flushes. -/
theorem talks_setLog {H : Type*} [DecidableEq H] {cfg : ConsoleConfig} {s : System H}
    {is : List (MmcInput H)} {os : List MmcOutput} {st₁ st₂ : Ipc × MmcServer H} {o : MmcOutput}
    {state x : UInt32} {words : List (Option String)} {t : List Char}
    (his : ∀ i ∈ is, i.Background ∧ i.DataOk)
    (hrun : exec mmcStep (s.ipc, s.mmc) is = some (os, st₁))
    (hstep : mmcStep (.request (.setState state) s.time s.fat) st₁ = some (o, st₂))
    (hanswer : o.answer = some (.state x))
    (hline : ∀ s' : System H, (systemWorld H).Asked (.mmc (.setState state)) x s s' →
      (readLine "mmc" words).Prints cfg (systemWorld H) t s s') :
    (consoleExec cfg (some "mmc" :: words)).Talks (systemWorld H) s ('\n' :: t) ()
      { s with ipc := st₂.1, mmc := st₂.2 } :=
  talks_consoleExec.mpr ⟨t, rfl, hline _ ⟨_, _, moved_of_exec his hrun,
    serves_of_mmcStep (s := { s with ipc := st₁.1, mmc := st₁.2 }) hstep hanswer, .refl⟩⟩

/-- A heartbeat is logged, and the timer fires. -/
def heartbeatFlushed : List (MmcInput ℕ) := [.log heartbeatRequest, .hardFlush (fatOk 0)]

theorem heartbeatFlushed_background : ∀ i ∈ heartbeatFlushed, i.Background ∧ i.DataOk := by
  simp [heartbeatFlushed, MmcInput.Background, MmcInput.DataOk, heartbeatRequest]

/-- A minute after the start, the log is switched off and on and the time is asked for. -/
def minuteLines : List (List (Option String)) :=
  [[some "mmc", some "off"], [some "mmc", some "on"], [some "time"]]

/-- What is printed. -/
def minuteOuts : List (List Char) :=
  ["\nDisabling MMC file\nMMC status: 0\n".toList, "\nEnabling MMC file\nMMC status: 1\n".toList,
    "\nCurrent time: 60000000000 ns\nElapsed: 1 min : 0 sec\n".toList]

/-- Heartbeats are logged and flushed before the log is switched off and after it is switched on. -/
theorem exists_session (cfg : ConsoleConfig) : ∃ s s' : System ℕ, s.Starts [] ∧
    ConsoleSession cfg s minuteLines minuteOuts s' := by
  let ipc : Ipc := ⟨Vector.replicate 4 0, Vector.replicate 120 0⟩
  obtain ⟨hobd, hhobd⟩ : ∃ hobd, (obdCommThreadStart ⟨0, 0, 0⟩ hobdModuleInit).result =
      some hobd := ⟨_, rfl⟩
  have hrun : ((mmcThreadStart true (fatOk 0) (fatOk 12) 0 (Vector.replicate 120 0) blankIo).bind
      fun mmc => (exec mmcStep (ipc, mmc) heartbeatFlushed).bind fun x₁ =>
        (mmcStep (.request (.setState 0) 60000000000 (fatOk 0)) x₁.2).bind fun x₂ =>
          (mmcStep (.request (.setState 1) 60000000000 (fatOk 0)) x₂.2).bind fun x₃ =>
            (exec mmcStep x₃.2 heartbeatFlushed).map fun _ => (x₂.1.answer, x₃.1.answer)) =
      some (some (.state 0), some (.state 1)) := by
    decide +kernel
  obtain ⟨mmc, hmmc, hrun⟩ := Option.bind_eq_some_iff.mp hrun
  obtain ⟨⟨os₁, st₁⟩, hrun₁, hrun⟩ := Option.bind_eq_some_iff.mp hrun
  obtain ⟨⟨o₂, st₂⟩, hstep₂, hrun⟩ := Option.bind_eq_some_iff.mp hrun
  obtain ⟨⟨o₃, st₃⟩, hstep₃, hrun⟩ := Option.bind_eq_some_iff.mp hrun
  obtain ⟨⟨os₄, st₄⟩, hrun₄, heq⟩ := Option.map_eq_some_iff.mp hrun
  obtain ⟨hoff, hon⟩ := Prod.mk.inj heq
  let s : System ℕ := ⟨60000000000, fatOk 0, ipc, mmc, hobd⟩
  let s₂ : System ℕ := { s with ipc := st₂.1, mmc := st₂.2 }
  let s₃ : System ℕ := { s with ipc := st₃.1, mmc := st₃.2 }
  let s₄ : System ℕ := { s with ipc := st₄.1, mmc := st₄.2 }
  have hline₂ : (consoleExec cfg [some "mmc", some "off"]).Talks (systemWorld ℕ) s
      "\nDisabling MMC file\nMMC status: 0\n".toList () s₂ :=
    talks_setLog (s := s) heartbeatFlushed_background hrun₁ hstep₂ hoff
      fun _ hasked => ⟨(0 : UInt32), hasked, rfl⟩
  have hline₃ : (consoleExec cfg [some "mmc", some "on"]).Talks (systemWorld ℕ) s₂
      "\nEnabling MMC file\nMMC status: 1\n".toList () s₃ :=
    talks_setLog (s := s₂) (List.forall_mem_nil _) rfl hstep₃ hon
      fun _ hasked => ⟨(1 : UInt32), hasked, rfl⟩
  have hmoved : (systemWorld ℕ).Moved s₃ s₄ :=
    moved_of_exec (s := s₃) heartbeatFlushed_background hrun₄
  have hserve : System.Serves .getTime (60000000000 : UInt64) s₄ s₄ := ⟨rfl, rfl⟩
  have hline₄ : (consoleExec cfg [some "time"]).Talks (systemWorld ℕ) s₃
      "\nCurrent time: 60000000000 ns\nElapsed: 1 min : 0 sec\n".toList () s₄ :=
    talks_consoleExec.mpr ⟨_, rfl, (60000000000 : UInt64), ⟨s₄, s₄, hmoved, hserve, .refl⟩, rfl⟩
  exact ⟨s, s₄, ⟨⟨_, hhobd⟩, ⟨_, _, _, _, _, _, rfl, hmmc⟩, by simp⟩,
    .cons hline₂ (.cons hline₃ (.cons hline₄ (.nil s₄)))⟩

/-- What is true of that session. -/
theorem console_session_switched : ∃ s s' : System ℕ, s.Starts [] ∧
    ConsoleSession ⟨"master", "1", true⟩ s minuteLines minuteOuts s' ∧
    ∃ w, Runs (Typed ⟨"master", "1", true⟩) (s, ⟨false, true, true⟩) minuteLines minuteOuts
        (s', w) ∧
      s'.hobd.comm.enabled.toUInt32 = flagWord w.enabled ∧
      s'.hobd.comm.listenOnly.toUInt32 = flagWord w.listenOnly ∧
      mmcFileGetEnabled s'.mmc.io.file = flagWord w.logOn := by
  obtain ⟨s, s', hs, h⟩ := exists_session ⟨"master", "1", true⟩
  exact ⟨s, s', hs, h, console_session _ [] s s' hs _ _ h⟩

end HobdSystem
