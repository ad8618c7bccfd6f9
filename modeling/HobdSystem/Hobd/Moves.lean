import HobdSystem.Hobd.Calls
import HobdSystem.Hobd.Client

/-!
# What a move of the thread does

The thread that talks to the ECU is a loop around a few calls, and everything that is proved of it
is proved along its moves: what it does to the line, what it says and hears, what it logs, what it
counts, what the other threads see of it. So what a move does is said once, and in full.
`HobdSystem.CommMoves` is the table of the moves: what has to be the case for a move to be made, the
actions it takes, in their order, and the state it comes to. The table has one line for each way
through the loop from one `HobdSystem.CommPoint` to the next, and **a move of the thread is one of
the table** (`HobdSystem.takes_commStep`).

What is proved in other modules about the moves is proved by going through the table, and the
functions of `hobd_module.c` are not looked into again. If one of them changes, its lemma here
changes and the lines of the table that it is used in, and the other modules have those lines to
look at.

## Programs that end

Most of the calls may fail, and then the program ends. A line of the table is about a move that goes
through to its end; a program that ends on the way has taken the first of the actions of a line, and
this is what `Traced.Takes` says. The program ends in any case on a request that it does not know,
and this is a line of its own, the one without a state.

The time server answers with a time or the program ends. In the table the time is
`r.firstTime.getD 0`, and the zero is never seen in a state that a program has come to.
-/

namespace HobdSystem

open Traced

/-! ### What is transmitted and logged -/

/-- A message is transmitted, and then logged without a time of arrival. -/
def transmit (dataSize : UInt16) (msg : List UInt8) (now : UInt64) : List CommAction :=
  (msgIn msg).map .putchar ++ [.log ⟨mmcEntryTypeHobdMsg, dataSize, none, msg, now⟩]

/-- The call that logs a message as received, with the time of its arrival. -/
def receivedCall (msg : List UInt8) (time : UInt64) : LogCall :=
  ⟨mmcEntryTypeHobdMsg, (headerSize msg).toUInt16, some time, msg, time⟩

/-- A message is logged as received. -/
def logReceived (msg : List UInt8) (time : UInt64) : CommAction := .log (receivedCall msg time)

/-- The transmit buffer with the message that wakes the ECU up. -/
def wakeUpMsg (tx : List UInt8) : List UInt8 :=
  (hobdMsgNoData hobdMsgTypeWakeUp hobdMsgSubtypeWakeUp tx).2

/-- The transmit buffer with the query that opens a session. -/
def initMsg (tx : List UInt8) : List UInt8 :=
  (hobdMsg hobdMsgTypeQuery hobdMsgSubtypeInit 1 (putData [hobdInitData] tx)).2

/-- The transmit buffer after the queries of a state of the exchange. -/
def queryTx (tx : List UInt8) : CommStateKind → List UInt8
  | .gpioInit => tx
  | .sendEcuInit => initMsg (wakeUpMsg tx)
  | .sendReq0 => commFillMsgSubgroub10Query tx
  | .sendReq1 => commFillMsgSubgroubD1Query tx

/-- What transmits the queries of a state. A session is opened with two messages and a pause
between them. -/
def queryActs (r : CommResults) (tx : List UInt8) : CommStateKind → List CommAction
  | .gpioInit => []
  | .sendEcuInit =>
    transmit hobdMsgHeadercsSize.toUInt16 (wakeUpMsg tx) (r.firstTime.getD 0) ++ ([.mdelay 1] ++
      transmit (hobdMsgHeadercsSize.toUInt16 + 1) (initMsg (wakeUpMsg tx)) (r.secondTime.getD 0))
  | state => transmit (headerSize (queryTx tx state)).toUInt16 (queryTx tx state)
      (r.firstTime.getD 0)

/-- What the thread waits for after that. -/
def CommStateKind.awaits : CommStateKind → Option RespWait
  | .gpioInit => none
  | .sendEcuInit => some ⟨hobdMsgSubtypeInit, .sendReq0, .gpioInit⟩
  | .sendReq0 => some ⟨hobdMsgSubtypeTableSubgroup, .sendReq1, .sendEcuInit⟩
  | .sendReq1 => some ⟨hobdMsgSubtypeTableSubgroup, .sendReq0, .sendEcuInit⟩

/-- The thread when the queries of its state have been sent. Only a session that is opened starts on
a parser that is reset, and is counted. -/
def CommThread.queried (s : CommThread) : CommThread :=
  { s with
    parser := if s.comm.state = .sendEcuInit then hobdParserReset s.parser else s.parser
    txBuffer := queryTx s.txBuffer s.comm.state
    stats.commInitRetryCount :=
      s.stats.commInitRetryCount + if s.comm.state = .sendEcuInit then 1 else 0 }

/-- The thread may drive the line: it is enabled, and not told only to listen. -/
def Active (s : CommThread) : Prop := s.comm.enabled ≠ 0 ∧ s.comm.listenOnly = 0

instance (s : CommThread) : Decidable (Active s) := inferInstanceAs (Decidable (_ ∧ _))

/-- The request of a label, and of the word that is sent with it. -/
def hobdRequestOf (label word : UInt32) : Option HobdRequest :=
  if label = hobdIpcMsgTypeStatsReq then some .getStats
  else if label = ipcMsgTypeCommStateReq then some .getCommState
  else if label = ipcMsgTypeCommStateSetReq then some (.setCommState word)
  else if label = ipcMsgTypeListenOnlyReq then some .getListenOnly
  else if label = ipcMsgTypeListenOnlySetReq then some (.setListenOnly word)
  else none

/-- The reply to a request. -/
def HobdRequest.reply (q : HobdRequest) (now : UInt64) (s : CommThread) : IpcReply :=
  match q with
  | .getStats => ⟨hobdIpcMsgTypeStatsResp, (s.statsAt now).words⟩
  | .setCommState state => ⟨ipcMsgTypeCommStateResp, [(desiredFlag state).toUInt32]⟩
  | .getCommState => ⟨ipcMsgTypeCommStateResp, [s.comm.enabled.toUInt32]⟩
  | .setListenOnly state => ⟨ipcMsgTypeListenOnlyResp, [(desiredFlag state).toUInt32]⟩
  | .getListenOnly => ⟨ipcMsgTypeListenOnlyResp, [s.comm.listenOnly.toUInt32]⟩

/-! ### The table -/

/-- **What a move of the thread does**: when it is made, the actions it takes and the state it comes
to. There is no state where the program ends on a request that it does not know. -/
inductive CommMoves (r : CommResults) (s : CommThread) :
    List CommAction → Option CommThread → Prop
  /-- Communication is disabled, and the thread goes to wait for a request. -/
  | disabled (point : s.point = .top) (enabled : s.comm.enabled = 0) :
    CommMoves r s [] (some { s with point := .recv true })
  /-- The thread only listens, and begins to. -/
  | listens (point : s.point = .top) (enabled : s.comm.enabled ≠ 0)
    (listenOnly : s.comm.listenOnly ≠ 0) :
    CommMoves r s startTimer (some { s with comm := s.comm.untimed, point := .listen })
  /-- The ECU is woken up. -/
  | pulses (point : s.point = .top) (active : Active s) (state : s.comm.state = .gpioInit) :
    CommMoves r s (initPulse ++ [.serialConfigure hobdKlineBaud 8 1])
      (some { s with
        comm.state := .sendEcuInit, stats.commGpioRetryCount := s.stats.commGpioRetryCount + 1,
        point := .recv false })
  /-- The queries of the state are sent, and the thread begins to wait for the response. -/
  | asks (w : RespWait) (point : s.point = .top) (active : Active s)
    (awaits : s.comm.state.awaits = some w) :
    CommMoves r s (queryActs r s.txBuffer s.comm.state ++ startTimer)
      (some { s.queried with comm := s.comm.untimed, point := .wait w })
  /-- The response is found, and the exchange goes on to its next state. -/
  | responded (w : RespWait) (point : s.point = .wait w)
    (found : (pollUart r.getchar s.parser).1 = true)
    (response : IsResponse w.subtype (pollUart r.getchar s.parser).2.rxBuffer) :
    CommMoves r s
      [.deregisterCb, logReceived (pollUart r.getchar s.parser).2.rxBuffer (r.firstTime.getD 0)]
      (some { s with
        parser := (pollUart r.getchar s.parser).2, comm := { s.comm.untimed with state := w.found },
        point := .recv false })
  /-- A message that is not the response is passed over. -/
  | passedOver (w : RespWait) (point : s.point = .wait w)
    (found : (pollUart r.getchar s.parser).1 = true)
    (response : ¬IsResponse w.subtype (pollUart r.getchar s.parser).2.rxBuffer) :
    CommMoves r s (.deregisterCb :: startTimer)
      (some { s with parser := (pollUart r.getchar s.parser).2, comm := s.comm.untimed })
  /-- The timer ends the wait, and the exchange falls back. -/
  | gaveUp (w : RespWait) (point : s.point = .wait w)
    (found : (pollUart r.getchar s.parser).1 = false) (flag : s.comm.timeoutSignaled ≠ 0) :
    CommMoves r s [.deregisterCb]
      (some { s with
        parser := (pollUart r.getchar s.parser).2
        comm := { s.comm.untimed with state := w.notFound }, point := .recv false })
  /-- The wait goes on. -/
  | waited (w : RespWait) (point : s.point = .wait w)
    (found : (pollUart r.getchar s.parser).1 = false) (flag : s.comm.timeoutSignaled = 0) :
    CommMoves r s [] (some { s with parser := (pollUart r.getchar s.parser).2 })
  /-- A thread that only listens has heard a message. -/
  | heard (point : s.point = .listen) (found : (pollUart r.getchar s.parser).1 = true) :
    CommMoves r s
      [.deregisterCb, logReceived (pollUart r.getchar s.parser).2.rxBuffer (r.firstTime.getD 0)]
      (some { s with
        parser := (pollUart r.getchar s.parser).2, comm := s.comm.untimed, point := .recv false })
  /-- The timer ends the round of a thread that only listens. -/
  | unheard (point : s.point = .listen) (found : (pollUart r.getchar s.parser).1 = false)
    (flag : s.comm.timeoutSignaled ≠ 0) :
    CommMoves r s [.deregisterCb]
      (some { s with
        parser := (pollUart r.getchar s.parser).2, comm := s.comm.untimed, point := .recv false })
  /-- The thread goes on listening. -/
  | listened (point : s.point = .listen) (found : (pollUart r.getchar s.parser).1 = false)
    (flag : s.comm.timeoutSignaled = 0) :
    CommMoves r s [] (some { s with parser := (pollUart r.getchar s.parser).2 })
  /-- A disabled thread waits for a request. -/
  | blocked (point : s.point = .recv true) (message : r.message = none) : CommMoves r s [] (some s)
  /-- There is no request, and the next round begins. -/
  | polled (blocking : Bool) (point : s.point = .recv blocking)
    (message : ∀ m ∈ r.message, ¬(m.badge ≠ 0 ∧ m.label ≠ 0))
    (returned : blocking = true → r.message ≠ none) :
    CommMoves r s [] (some { s with point := .top })
  /-- A request is accepted, carried out and answered. -/
  | answered (blocking : Bool) (m : IpcMessage) (q : HobdRequest) (point : s.point = .recv blocking)
    (message : r.message = some m) (labelled : m.badge ≠ 0 ∧ m.label ≠ 0)
    (request : hobdRequestOf m.label m.ipc.getMR0 = some q) :
    CommMoves r s
      [.request m.label m.ipc.getMR0, .reply (q.reply (r.firstTime.getD 0) s)]
      (some (q.perform (r.firstTime.getD 0) s).2)
  /-- A request that is not known ends the program. -/
  | refused (blocking : Bool) (m : IpcMessage) (point : s.point = .recv blocking)
    (message : r.message = some m) (labelled : m.badge ≠ 0 ∧ m.label ≠ 0)
    (request : hobdRequestOf m.label m.ipc.getMR0 = none) :
    CommMoves r s [.request m.label m.ipc.getMR0] none

/-- **The lines of the table for a thread that waits for a response**: it is found, another
message is passed over, the timer has fired, or nothing has happened yet. -/
theorem CommMoves.of_wait {r : CommResults} {s : CommThread} {t : List CommAction}
    {o : Option CommThread} (h : CommMoves r s t o) {w : RespWait} (hpoint : s.point = .wait w) :
    (pollUart r.getchar s.parser).1 = true ∧
        IsResponse w.subtype (pollUart r.getchar s.parser).2.rxBuffer ∧
        t = [.deregisterCb,
          logReceived (pollUart r.getchar s.parser).2.rxBuffer (r.firstTime.getD 0)] ∧
        o = some { s with
          parser := (pollUart r.getchar s.parser).2
          comm := { s.comm.untimed with state := w.found }, point := .recv false } ∨
      (pollUart r.getchar s.parser).1 = true ∧
        ¬IsResponse w.subtype (pollUart r.getchar s.parser).2.rxBuffer ∧
        t = .deregisterCb :: startTimer ∧
        o = some { s with parser := (pollUart r.getchar s.parser).2, comm := s.comm.untimed } ∨
      (pollUart r.getchar s.parser).1 = false ∧ s.comm.timeoutSignaled ≠ 0 ∧
        t = [.deregisterCb] ∧
        o = some { s with
          parser := (pollUart r.getchar s.parser).2
          comm := { s.comm.untimed with state := w.notFound }, point := .recv false } ∨
      (pollUart r.getchar s.parser).1 = false ∧ s.comm.timeoutSignaled = 0 ∧
        t = [] ∧ o = some { s with parser := (pollUart r.getchar s.parser).2 } := by
  have hw : ∀ {w'}, s.point = .wait w' → w' = w :=
    fun h' => CommPoint.wait.inj (h'.symm.trans hpoint)
  cases h with
  | responded w' hpoint' hfound hresp =>
    obtain rfl := hw hpoint'
    exact Or.inl ⟨hfound, hresp, rfl, rfl⟩
  | passedOver w' hpoint' hfound hresp =>
    obtain rfl := hw hpoint'
    exact Or.inr (Or.inl ⟨hfound, hresp, rfl, rfl⟩)
  | gaveUp w' hpoint' hfound hflag =>
    obtain rfl := hw hpoint'
    exact Or.inr (Or.inr (Or.inl ⟨hfound, hflag, rfl, rfl⟩))
  | waited w' hpoint' hfound hflag => exact Or.inr (Or.inr (Or.inr ⟨hfound, hflag, rfl, rfl⟩))
  | _ => simp_all

/-! ### The functions -/

theorem takes_logEntryData (call : LogCall) : Takes (logEntryData call) [.log call] (some ()) :=
  (takes_require _).bind (takes_emit _)

theorem takes_logTxMsg (time : Option UInt64) (dataSize : UInt16) (msg : List UInt8) :
    Takes (logTxMsg time dataSize msg)
      [.log ⟨mmcEntryTypeHobdMsg, dataSize, none, msg, time.getD 0⟩] (some ()) :=
  (takes_getD _ _).bind (takes_logEntryData _)

section Exchange

variable (r : CommResults) {s : CommThread} (hlisten : s.comm.listenOnly = 0)

include hlisten

/-- A message is transmitted and logged, in front of something else. -/
theorem takes_transmit {α : Type} (time : Option UInt64) (dataSize : UInt16) (msg : List UInt8)
    {k : Traced CommAction α} {u : List CommAction} {o : Option α} (hk : Takes k u o) :
    Takes (do commSendMsg msg s.comm; logTxMsg time dataSize msg; k)
      (transmit dataSize msg (time.getD 0) ++ u) o := by
  rw [transmit, List.append_assoc]
  exact (takes_commSendMsg hlisten msg).bind ((takes_logTxMsg time dataSize msg).bind hk)

theorem takes_sendEcuDiagMessages :
    Takes (sendEcuDiagMessages r s) (queryActs r s.txBuffer .sendEcuInit)
      (some { s with
        parser := hobdParserReset s.parser, txBuffer := queryTx s.txBuffer .sendEcuInit }) := by
  rw [queryActs, ← List.append_nil (transmit (hobdMsgHeadercsSize.toUInt16 + 1) _ _)]
  exact takes_transmit hlisten _ _ _ <| Takes.bind (takes_emit [CommAction.mdelay 1]) <|
    takes_transmit hlisten _ _ _ <| takes_pure _

theorem takes_sendTableReq {table : UInt8} {state : CommStateKind}
    (htable : table = hobdTable10 ∧ state = .sendReq0 ∨ table = hobdTableD1 ∧ state = .sendReq1) :
    Takes (sendTableReq table r s) (queryActs r s.txBuffer state)
      (some { s with txBuffer := queryTx s.txBuffer state }) := by
  have htx : (if table = hobdTable10 then some (commFillMsgSubgroub10Query s.txBuffer)
      else if table = hobdTableD1 then some (commFillMsgSubgroubD1Query s.txBuffer) else none) =
      some (queryTx s.txBuffer state) := by
    rcases htable with ⟨rfl, rfl⟩ | ⟨rfl, rfl⟩
    · exact if_pos rfl
    · exact (if_neg (by decide)).trans (if_pos rfl)
  have hacts : queryActs r s.txBuffer state =
      transmit (headerSize (queryTx s.txBuffer state)).toUInt16 (queryTx s.txBuffer state)
        (r.firstTime.getD 0) ++ [] := by
    rw [List.append_nil]
    rcases htable with ⟨-, rfl⟩ | ⟨-, rfl⟩ <;> rfl
  unfold sendTableReq
  rw [htx, hacts]
  exact (takes_some _).bind <| takes_transmit hlisten _ _ _ <| takes_pure _

omit hlisten in
theorem takes_enterWait (w : RespWait) (s : CommThread) :
    Takes (enterWait w r s) startTimer
      (some { s with comm := s.comm.untimed, point := .wait w }) :=
  (takes_commRecvMsgEnter r (by decide) s.comm).bind (takes_pure _)

/-- **The pulse.** -/
theorem takes_commUpdateState_pulse (hstate : s.comm.state = .gpioInit) :
    Takes (commUpdateState r s) (initPulse ++ [.serialConfigure hobdKlineBaud 8 1])
      (some { s with
        comm.state := .sendEcuInit, stats.commGpioRetryCount := s.stats.commGpioRetryCount + 1,
        point := .recv false }) := by
  simp only [commUpdateState, hstate]
  exact (takes_commEcuInitSeq hlisten r).bind (takes_pure _)

/-- **A step of the exchange behind the pulse**: the queries of the state are sent, and the thread
goes to wait. -/
theorem takes_commUpdateState {w : RespWait} (hawaits : s.comm.state.awaits = some w) :
    Takes (commUpdateState r s) (queryActs r s.txBuffer s.comm.state ++ startTimer)
      (some { s.queried with comm := s.comm.untimed, point := .wait w }) := by
  unfold commUpdateState CommThread.queried
  cases hs : s.comm.state with
  | gpioInit =>
    rw [hs] at hawaits
    exact absurd hawaits (by simp [CommStateKind.awaits])
  | sendEcuInit =>
    rw [hs] at hawaits
    obtain rfl := Option.some.inj hawaits
    simp only [if_true]
    have hsend := takes_sendEcuDiagMessages r hlisten
    generalize queryTx s.txBuffer .sendEcuInit = tx at hsend ⊢
    exact hsend.bind (takes_enterWait r _ _)
  | sendReq0 =>
    rw [hs] at hawaits
    obtain rfl := Option.some.inj hawaits
    simp only [reduceCtorEq, if_false, UInt16.add_zero]
    exact (takes_sendTableReq r hlisten (Or.inl ⟨rfl, rfl⟩)).bind (takes_enterWait r _ _)
  | sendReq1 =>
    rw [hs] at hawaits
    obtain rfl := Option.some.inj hawaits
    simp only [reduceCtorEq, if_false, UInt16.add_zero]
    exact (takes_sendTableReq r hlisten (Or.inr ⟨rfl, rfl⟩)).bind (takes_enterWait r _ _)

end Exchange

section Moves

variable (r : CommResults) (s : CommThread)

/-- **From the head of the loop**: the flags and the state of the exchange decide which line of
the table it is. -/
theorem takes_loopHead (hpoint : s.point = .top) :
    ∃ t o, CommMoves r s t o ∧ Takes (loopHead r s) t o := by
  unfold loopHead
  split_ifs with hen hlisten
  · by_cases hstate : s.comm.state = .gpioInit
    · exact ⟨_, _, .pulses hpoint ⟨hen, hlisten⟩ hstate,
        takes_commUpdateState_pulse r hlisten hstate⟩
    · obtain ⟨w, hw⟩ : ∃ w, s.comm.state.awaits = some w := by
        cases hs : s.comm.state with
        | gpioInit => exact absurd hs hstate
        | sendEcuInit => exact ⟨_, rfl⟩
        | sendReq0 => exact ⟨_, rfl⟩
        | sendReq1 => exact ⟨_, rfl⟩
      exact ⟨_, _, .asks w hpoint ⟨hen, hlisten⟩ hw, takes_commUpdateState r hlisten hw⟩
  · exact ⟨_, _, .listens hpoint hen hlisten,
      (takes_commRecvMsgEnter r (by decide) s.comm).bind (takes_pure _)⟩
  · exact ⟨_, _, .disabled hpoint (not_not.mp hen), takes_pure _⟩

/-- **In the wait for a response**: a byte is read if there is one, and what it completes, and
then the timer, decide which line it is. -/
theorem takes_waitForResp {w : RespWait} (hpoint : s.point = .wait w) :
    ∃ t o, CommMoves r s t o ∧ Takes (waitForResp w r s) t o := by
  have huse : (1 : UInt32) ≠ 0 := by decide
  cases hfound : (pollUart r.getchar s.parser).1 with
  | true =>
    by_cases hresp : IsResponse w.subtype (pollUart r.getchar s.parser).2.rxBuffer
    · exact ⟨_, _, .responded w hpoint hfound hresp,
        (takes_commWaitForRespRound_found huse hfound hresp).bind <|
          (takes_logEntryData _).bind <| takes_pure _⟩
    · exact ⟨_, _, .passedOver w hpoint hfound hresp,
        (takes_commWaitForRespRound_passedOver huse hfound hresp).bind <| takes_pure _⟩
  | false =>
    by_cases hflag : s.comm.timeoutSignaled = 0
    · exact ⟨_, _, .waited w hpoint hfound hflag,
        (takes_commWaitForRespRound_goesOn hfound hflag).bind <| takes_pure _⟩
    · exact ⟨_, _, .gaveUp w hpoint hfound hflag,
        (takes_commWaitForRespRound_timedOut huse hfound hflag).bind <| takes_pure _⟩

/-- **In a thread that only listens**: every message is logged, of whatever kind, and the round
ends with it or with the timer. -/
theorem takes_listenForMsg (hpoint : s.point = .listen) :
    ∃ t o, CommMoves r s t o ∧ Takes (listenForMsg r s) t o := by
  have huse : (1 : UInt32) ≠ 0 := by decide
  cases hfound : (pollUart r.getchar s.parser).1 with
  | true =>
    exact ⟨_, _, .heard hpoint hfound,
      (takes_commRecvMsgRound_found huse hfound).bind <| (takes_getD _ _).bind <|
        (takes_logEntryData _).bind <| takes_pure _⟩
  | false =>
    by_cases hflag : s.comm.timeoutSignaled = 0
    · exact ⟨_, _, .listened hpoint hfound hflag,
        (takes_commRecvMsgRound_goesOn hfound hflag).bind <| takes_pure _⟩
    · exact ⟨_, _, .unheard hpoint hfound hflag,
        (takes_commRecvMsgRound_timedOut huse hfound hflag).bind <| takes_pure _⟩

/-- A request is carried out and answered, or it is not known. -/
theorem takes_handleRequest (label word : UInt32) :
    (∃ q, hobdRequestOf label word = some q ∧
        Takes (handleRequest label word r { s with point := .top })
          [.request label word, .reply (q.reply (r.firstTime.getD 0) s)]
          (some (q.perform (r.firstTime.getD 0) s).2)) ∨
      hobdRequestOf label word = none ∧
        Takes (handleRequest label word r { s with point := .top }) [.request label word] none := by
  unfold hobdRequestOf handleRequest
  split_ifs
  · exact Or.inl ⟨.getStats, rfl, (takes_emit _).bind <| (takes_getD _ 0).bind <|
      (takes_emit _).bind <| takes_pure _⟩
  · exact Or.inl ⟨.getCommState, rfl, (takes_emit _).bind <| (takes_emit _).bind <| takes_pure _⟩
  · exact Or.inl ⟨.setCommState word, rfl,
      (takes_emit _).bind <| (takes_emit _).bind <| takes_pure _⟩
  · exact Or.inl ⟨.getListenOnly, rfl, (takes_emit _).bind <| (takes_emit _).bind <| takes_pure _⟩
  · exact Or.inl ⟨.setListenOnly word, rfl,
      (takes_emit _).bind <| (takes_emit _).bind <| takes_pure _⟩
  · exact Or.inr ⟨rfl, (takes_emit _).bind <| takes_ofOption fun _ ha => absurd ha (by simp)⟩

/-- **At the end of a round**: there is a request or there is none, and a request with a label
that is not known ends the program. -/
theorem takes_recvRequest {blocking : Bool} (hpoint : s.point = .recv blocking) :
    ∃ t o, CommMoves r s t o ∧ Takes (recvRequest blocking r s) t o := by
  unfold recvRequest
  cases hm : r.message with
  | none =>
    cases blocking with
    | true => exact ⟨_, _, .blocked hpoint hm, takes_pure _⟩
    | false => exact ⟨_, _, .polled false hpoint (by simp [hm]) (by simp), takes_pure _⟩
  | some m =>
    dsimp only
    split_ifs with hlabelled
    · rcases takes_handleRequest r s m.label m.ipc.getMR0 with ⟨q, hq, htakes⟩ | ⟨hq, htakes⟩
      · exact ⟨_, _, .answered blocking m q hpoint hm hlabelled hq, (takes_require _).bind htakes⟩
      · exact ⟨_, _, .refused blocking m hpoint hm hlabelled hq, (takes_require _).bind htakes⟩
    · refine ⟨_, _, .polled blocking hpoint ?_ (by simp [hm]), takes_pure _⟩
      intro m' hm'
      obtain rfl : m = m' := Option.some.inj (hm.symm.trans hm')
      exact hlabelled

/-- **A move of the thread is one of the table.** This is the one place where the functions of the
thread are walked through; what is said of runs is said of the table. -/
theorem takes_commStep : ∃ t o, CommMoves r s t o ∧ Takes (commStep (.run r) s) t o := by
  cases hpoint : s.point with
  | top => simpa only [commStep, hpoint] using takes_loopHead r s hpoint
  | wait w => simpa only [commStep, hpoint] using takes_waitForResp r s hpoint
  | listen => simpa only [commStep, hpoint] using takes_listenForMsg r s hpoint
  | recv blocking => simpa only [commStep, hpoint] using takes_recvRequest r s hpoint

variable {r s}

/-- A move of a program that goes on is one of the table, from its first action to its last. -/
theorem commMoves_of_result {s' : CommThread} (hs' : (commStep (.run r) s).result = some s') :
    CommMoves r s (commStep (.run r) s).trace (some s') := by
  obtain ⟨t, o, hmoves, htakes⟩ := takes_commStep r s
  obtain ⟨htrace, rfl⟩ := htakes.whole s' hs'
  rwa [htrace]

/-- An action is one of a move of the table, whether the program ends in the move or not. -/
theorem exists_commMoves_of_mem {a : CommAction} (ha : a ∈ (commStep (.run r) s).trace) :
    ∃ t o, CommMoves r s t o ∧ a ∈ t := by
  obtain ⟨t, o, hmoves, htakes⟩ := takes_commStep r s
  exact ⟨t, o, hmoves, htakes.start.subset ha⟩

end Moves

/-! ### The start -/

/-- **What `obd_comm_thread_fn` does in front of its loop**, and the state it begins in: disabled,
set to listen only, and with its counters at zero. -/
theorem takes_obdCommThreadStart (r : StartResults) {p : HobdParser}
    (hp : hobdParserInit (List.replicate 512 0) 512 = some p) :
    Takes (obdCommThreadStart r hobdModuleInit)
      [.gpioNew, .serialConfigure hobdKlineBaud 8 1]
      (some ⟨hobdModuleInit, p, List.replicate 256 0, ⟨0, 0, 0, 0, 0⟩, .top⟩) := by
  have hserial : Takes (configureSerial r.serialConfigure) [.serialConfigure hobdKlineBaud 8 1]
      (some ()) := (takes_emit _).bind (takes_require _)
  unfold obdCommThreadStart
  rw [hp]
  exact (takes_require _).bind <| (takes_getD (some p) p).bind <| (takes_emit _).bind <|
    (takes_require _).bind <| hserial.bind <| takes_pure _

end HobdSystem
