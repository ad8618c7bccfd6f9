import HobdSystem.Hobd.Sessions
import HobdSystem.System.Threads

/-!
# The thread that talks to the ECU does what its skeleton says

`HobdSystem.Skeleton.obdCommThreadLoop` is what the thread is taken for where the threads of the
system wait for each other: the locks it takes and the messages it sends and receives, with all
else forgotten. It was read off the source, as the model of `HobdSystem.Hobd.Thread` was, and that
no thread deadlocks says something about the system only if the two agree. **Every run of the
thread is one of its skeleton** (`HobdSystem.hobd_conforms`): what it does on the way, as the
other threads see it, is what a thread with that program can perform on its own.

`HobdSystem.CommAction.acts` is what an action of the thread is to the others. A call of the time
server takes the lock of the time manager and gives it back, a log call sends a message to the MMC
thread after it has asked for the time, and most actions are nothing to them. The place of the
thread in its loop is a stack of programs that are left to do (`HobdSystem.CommPoint.stack`), and
so a move of the thread has to lead from one such stack to another.

The moves are those of the table of `HobdSystem.Hobd.Moves`, and there is one case for each line
of it (`HobdSystem.CommMoves.performs`). A line has the actions of a whole move, in their order,
and the skeleton is led through its choices to perform them; where the skeleton has a loop, as in
the wait for a response, a move goes round it once or leaves it.

What is received has come through the endpoint, with a label (`HobdSystem.CommInput.Labelled`).
The thread itself also takes a message without one, as nothing, and that is not in the skeleton.
-/

namespace HobdSystem

open Blocking Traced

/-! ### Actions -/

/-- What an action is to the other threads. The time is asked for before each entry is logged, by
`mmc_log_entry_data` if it is not given one and by its caller otherwise, and before the counters are
sent. -/
def CommAction.acts : CommAction → List (Act Mutex Message)
  | .registerRelCb _ | .deregisterCb => tmActs
  | .log _ => tmActs ++ [.send .entryLog]
  | .request label word => ((hobdRequestOf label word).map fun q => .got (.hobd q)).toList
  | .reply r => if r.label = hobdIpcMsgTypeStatsResp then tmActs ++ [.reply] else [.reply]
  | .gpioNew | .gpioClr | .gpioSet | .mdelay _ | .serialConfigure .. | .putchar _ => []

/-- What is left to do in the skeleton at a point of the thread. -/
def CommPoint.stack : CommPoint → List (Item Mutex Message)
  | .top => []
  | .wait _ =>
    [.run Skeleton.commStopTimeout, .run (.star Skeleton.commRecvMsg),
      .run (Skeleton.opt Skeleton.timeServerGetTime), .run Skeleton.respFound, .run (.recv false)]
  | .listen =>
    [.run Skeleton.commStopTimeout,
      .run (Skeleton.opt (.seq Skeleton.timeServerGetTime Skeleton.newHobdMsgCallback)),
      .run (.recv false)]
  | .recv blocking => [.run (.recv blocking)]

/-- What is received has come through the endpoint, with a label. -/
def CommInput.Labelled : CommInput → Prop
  | .timeout => True
  | .run r => ∀ m ∈ r.message, m.badge ≠ 0 ∧ m.label ≠ 0

/-! ### Its calls -/

theorem does_commStartTimeout :
    Does systemNet .hobd Skeleton.commStartTimeout (startTimer.flatMap CommAction.acts) :=
  (does_tm _).seq (does_tm _)

theorem does_newHobdMsgCallback :
    Does systemNet .hobd Skeleton.newHobdMsgCallback [.send .entryLog] :=
  does_skip.seq (does_send _)

/-- Of a message that is transmitted the others see that it is logged. -/
theorem acts_transmit (dataSize : UInt16) (msg : List UInt8) (now : UInt64) :
    (transmit dataSize msg now).flatMap CommAction.acts = tmActs ++ [.send .entryLog] := by
  have hbytes : ((msgIn msg).map CommAction.putchar).flatMap CommAction.acts = [] :=
    List.flatMap_eq_nil_iff.mpr (by simp [CommAction.acts])
  rw [transmit, List.flatMap_append, hbytes]
  rfl

theorem does_transmit (dataSize : UInt16) (msg : List UInt8) (now : UInt64) :
    Does systemNet .hobd (Skeleton.mmcLogEntryData false false)
      ((transmit dataSize msg now).flatMap CommAction.acts) := by
  rw [acts_transmit]
  exact (does_tm _).seq (does_send _)

theorem does_sendEcuDiagMessages (r : CommResults) (tx : List UInt8) :
    Does systemNet .hobd Skeleton.sendEcuDiagMessages
      ((queryActs r tx .sendEcuInit).flatMap CommAction.acts) := by
  have hdelay : [CommAction.mdelay 1].flatMap CommAction.acts = [] := rfl
  rw [queryActs, List.flatMap_append, List.flatMap_append, hdelay, List.nil_append]
  exact (does_transmit _ _ _).seq (does_transmit _ _ _)

section Moves

variable {k : List (Item Mutex Message)} {as : List (Act Mutex Message)}

/-- A round of an active thread. -/
theorem performs_active
    (h : Performs systemNet .hobd [.run Skeleton.commUpdateState, .run (.recv false)] as k) :
    Performs systemNet .hobd [] as k :=
  .tau .again (.tau (.left ..) (.tau (.seq ..) (.tau (.left ..) h)))

/-- A wait begins. -/
theorem performs_enterWait (w : RespWait) :
    Performs systemNet .hobd
      [.run Skeleton.commWaitForResp, .run Skeleton.respFound, .run (.recv false)]
      (startTimer.flatMap CommAction.acts) (CommPoint.wait w).stack :=
  .tau (.seq ..) (.tau (.more ..) (.tau (.seq ..) (does_commStartTimeout _)))

/-- **The queries of a state**, and the wait behind them. -/
theorem performs_asks (r : CommResults) (tx : List UInt8) {state : CommStateKind} {w : RespWait}
    (hawaits : state.awaits = some w) :
    Performs systemNet .hobd [.run Skeleton.commUpdateState, .run (.recv false)]
      ((queryActs r tx state ++ startTimer).flatMap CommAction.acts) (CommPoint.wait w).stack := by
  rw [List.flatMap_append]
  cases state with
  | gpioInit => exact absurd hawaits (by simp [CommStateKind.awaits])
  | sendEcuInit =>
    refine .tau (.left ..) (.tau (.seq ..) ((does_sendEcuDiagMessages r tx).then ?_))
    exact .tau (.seq ..) (performs_enterWait w)
  | sendReq0 | sendReq1 =>
    refine .tau (.right ..) (.tau (.left ..) (.tau (.seq ..) ((does_transmit _ _ _).then ?_)))
    exact .tau (.seq ..) (performs_enterWait w)

/-- **A request is answered** as the skeleton answers it. -/
theorem performs_answered (blocking : Bool) {label word : UInt32} {q : HobdRequest}
    (hq : hobdRequestOf label word = some q) (now : UInt64) (s : CommThread) :
    Performs systemNet .hobd [.run (.recv blocking)]
      ([CommAction.request label word, .reply (q.reply now s)].flatMap CommAction.acts)
      (q.perform now s).2.point.stack := by
  have hgot : (CommAction.request label word).acts = [.got (.hobd q)] := by
    rw [CommAction.acts, hq]
    rfl
  rw [List.flatMap_cons, hgot]
  refine .act (.got blocking (Message.hobd q) [] rfl) ?_
  cases q with
  | getStats => exact (does_tm _).seq does_reply []
  | setCommState | getCommState | setListenOnly | getListenOnly => exact does_reply []

/-- **A move of the table is one of the skeleton**, from the place where the thread is to the place
it comes to. -/
theorem CommMoves.performs {r : CommResults} {s s' : CommThread} {t : List CommAction}
    (h : CommMoves r s t (some s')) (hr : ∀ m ∈ r.message, m.badge ≠ 0 ∧ m.label ≠ 0) :
    Performs systemNet .hobd s.point.stack (t.flatMap CommAction.acts) s'.point.stack := by
  cases h with
  | disabled hpoint =>
    rw [hpoint]
    exact .tau .again (.tau (.right ..) (.nil _))
  | listens hpoint =>
    rw [hpoint]
    refine .tau .again (.tau (.left ..) (.tau (.seq ..) (.tau (.right ..) (.tau (.seq ..) ?_))))
    exact .tau (.seq ..) (does_commStartTimeout _)
  | pulses hpoint =>
    rw [hpoint]
    exact performs_active (does_skip.right.right _)
  | asks w hpoint hactive hawaits =>
    rw [hpoint]
    exact performs_active (performs_asks r _ hawaits)
  | responded w hpoint =>
    rw [hpoint]
    exact (does_tm _).then (does_star_nil.then
      ((does_tm _).left.then (does_newHobdMsgCallback.left _)))
  | passedOver w hpoint =>
    rw [hpoint]
    exact (does_tm _).then (.tau (.more ..) (.tau (.seq ..) (does_commStartTimeout _)))
  | gaveUp w hpoint =>
    rw [hpoint]
    exact (does_tm _).then (does_star_nil.then (does_skip.right.then (does_skip.right _)))
  | waited => exact .nil _
  | heard hpoint =>
    rw [hpoint]
    exact (does_tm _).then (((does_tm _).seq does_newHobdMsgCallback).left _)
  | unheard hpoint =>
    rw [hpoint]
    exact (does_tm _).then (does_skip.right _)
  | listened => exact .nil _
  | blocked => exact .nil _
  | polled blocking hpoint hm hreturned =>
    -- what has come through the endpoint has a label, so nothing has
    cases hmessage : r.message with
    | some m => exact absurd (hr m hmessage) (hm m hmessage)
    | none =>
      obtain rfl : blocking = false := by
        cases blocking with
        | false => rfl
        | true => exact absurd hmessage (hreturned rfl)
      rw [hpoint]
      exact .poll (.gotNothing []) (.nil _)
  | answered blocking m q hpoint hm hlabelled hq =>
    rw [hpoint]
    exact performs_answered blocking hq _ s

end Moves

/-! ### Its runs -/

/-- The thread does what its skeleton does from one place to another. -/
abbrev HobdFollows (k : List (Item Mutex Message)) (x : Traced CommAction CommThread) : Prop :=
  Follows systemNet .hobd CommAction.acts k x fun s => s.point.stack

/-- **A move of the thread is one of its skeleton**: the line of the table says what it does, and
the skeleton can do that from the point where the thread is. -/
theorem follows_commStep {input : CommInput} (hin : input.Labelled) (s : CommThread) :
    HobdFollows s.point.stack (commStep input s) := by
  cases input with
  | timeout => exact follows_pure (.nil _)
  | run r => exact fun s' hs' => (commMoves_of_result hs').performs hin

/-- What `obd_comm_thread_fn` does in front of its loop: it waits for the start and asks the time
server for an identifier. -/
def hobdStartActs : List (Act Mutex Message) := .lock .sysReady :: .unlock .sysReady :: tmActs

theorem performs_hobdStart :
    Performs systemNet .hobd [.run (systemNet.start .hobd)] hobdStartActs [] :=
  (does_skip.hold Mutex.sysReady).seq (does_tm _) []

theorem follows_obdCommThreadStart (r : StartResults) :
    HobdFollows [] (obdCommThreadStart r hobdModuleInit) := by
  intro s hs
  obtain ⟨p, hp⟩ : ∃ p, hobdParserInit (List.replicate 512 0) 512 = some p := ⟨_, rfl⟩
  obtain ⟨htrace, hs⟩ := (takes_obdCommThreadStart r hp).whole s hs
  obtain rfl := Option.some.inj hs
  rw [htrace]
  exact .nil _

/-- **A run of the thread is one of its skeleton.** Whatever the calls it makes are answered with
and whenever the timer fires: it takes the mutexes, sends entries and receives and answers requests
in an order in which its skeleton does. -/
theorem hobd_conforms (r : StartResults) (is : List CommInput) (his : ∀ i ∈ is, i.Labelled)
    {s : CommThread} (hs : (commRun r is).result = some s) :
    Performs systemNet .hobd [.run (systemNet.start .hobd)]
      (hobdStartActs ++ (commRun r is).trace.flatMap CommAction.acts) s.point.stack := by
  have hrun : HobdFollows [] (commRun r is) :=
    (follows_obdCommThreadStart r).run fun i hi s => follows_commStep (his i hi) s
  exact performs_hobdStart.trans (hrun s hs)

/-- The console switches the thread on. -/
theorem hobd_conforms_wakeUp :
    ∃ s, (commRun ⟨0, 0, 0⟩ wakeUpRun).result = some s ∧
      Performs systemNet .hobd [.run (systemNet.start .hobd)]
        (hobdStartActs ++ [.got (.hobd (.setListenOnly 0)), .reply,
          .got (.hobd (.setCommState 1)), .reply]) s.point.stack := by
  have hlabels : hobdmodBaseBadge ≠ 0 ∧ ipcMsgTypeListenOnlySetReq ≠ 0 ∧
      ipcMsgTypeCommStateSetReq ≠ 0 := by
    decide
  have hlabelled : ∀ i ∈ wakeUpRun, i.Labelled := by
    simp [wakeUpRun, quietLine, modeRequest, CommInput.Labelled, hlabels]
  exact ⟨_, rfl, hobd_conforms ⟨0, 0, 0⟩ wakeUpRun hlabelled rfl⟩

end HobdSystem
