import HobdSystem.Hobd.Thread
import HobdSystem.Rpc

/-!
# The HOBD module as the other threads see it

The model of the functions of `hobd_module.c` that other threads call. Each makes one call to the
thread that talks to the ECU, which answers at the end of a round: while it is disabled it waits
there, and otherwise it looks once in every round. The functions that set a flag and those that
read one have the same shape, and so there is one definition for a call that is answered with a
flag (`HobdSystem.hobdFlagCall`), with each function as a case of it.

**A call returns**, whatever state the thread is in, and what a function returns is what its
handler has in hand (`HobdSystem.hobdRequest_eq`). `HobdSystem.HobdRequest.perform` is what a
request comes to without any messages: the answer, and the thread after it. So the registers, the
words, the labels and the checks of both sides are dealt with here, and nowhere else in the
development is a request anything but a `HobdSystem.HobdRequest`. Only the counters need the time
server, and only their function can fail to return.

A caller may have to wait until the thread comes to the end of its round, and that takes as long
as the wait for a response does. That it comes there at all is not a matter of this file: see
`HobdSystem.System.Threads` for the threads that wait for each other.
-/

namespace HobdSystem

open Traced

/-! ### The functions -/

/-- The reply an action is. -/
def CommAction.reply? : CommAction → Option IpcReply
  | .reply x => some x
  | _ => none

/-- The end of a round, as it answers a message. -/
def hobdServe (blocking : Bool) (r : CommResults) (m : IpcMessage) (s : CommThread) :
    Option (Option IpcReply × CommThread) :=
  let round := recvRequest blocking { r with message := some m } s
  round.result.map fun s => (round.trace.findSome? CommAction.reply?, s)

section Client

variable (blocking : Bool) (r : CommResults) (st : Ipc × CommThread)

/-- A call to the thread, which answers it at the end of a round. -/
def hobdCall (request response : UInt32) (args : List UInt32) (respLength : ℕ) :
    Option (Ipc × CommThread) :=
  checkedCall (hobdServe blocking r) hobdmodBaseBadge request response args respLength st

/-- The `hobd_stats_s` that some words are in memory. -/
def HobdStats.ofWords (words : List UInt32) : HobdStats where
  timestamp := UInt64.ofNat ((words.getD 0 0).toNat + 2 ^ 32 * (words.getD 1 0).toNat)
  validRxCount := (words.getD 2 0).toUInt16
  invalidRxCount := (words.getD 2 0 >>> 16).toUInt16
  commGpioRetryCount := (words.getD 3 0).toUInt16
  commInitRetryCount := (words.getD 3 0 >>> 16).toUInt16

/-- `hobd_get_stats`, into the memory of a `hobd_stats_s`. -/
def hobdGetStats (stats : Vector UInt32 4) : Option (HobdStats × Ipc × CommThread) :=
  (hobdCall blocking r st hobdIpcMsgTypeStatsReq hobdIpcMsgTypeStatsResp [] 4).bind fun st =>
    (sel4MrRecv st.1 4 stats).map fun stats => (.ofWords stats.toList, st)

/-- A call that is answered with one of the flags. -/
def hobdFlagCall (request response : UInt32) (args : List UInt32) :
    Option (UInt32 × Ipc × CommThread) :=
  (hobdCall blocking r st request response args 1).bind fun st =>
    (st.1.getMR 0).map fun flag => (flag, st)

/-- `hobd_set_comm_state`. -/
def hobdSetCommState (state : UInt32) : Option (UInt32 × Ipc × CommThread) :=
  hobdFlagCall blocking r st ipcMsgTypeCommStateSetReq ipcMsgTypeCommStateResp [state]

/-- `hobd_get_comm_state`. -/
def hobdGetCommState : Option (UInt32 × Ipc × CommThread) :=
  hobdFlagCall blocking r st ipcMsgTypeCommStateReq ipcMsgTypeCommStateResp []

/-- `hobd_set_listen_only`. -/
def hobdSetListenOnly (state : UInt32) : Option (UInt32 × Ipc × CommThread) :=
  hobdFlagCall blocking r st ipcMsgTypeListenOnlySetReq ipcMsgTypeListenOnlyResp [state]

/-- `hobd_get_listen_only`. -/
def hobdGetListenOnly : Option (UInt32 × Ipc × CommThread) :=
  hobdFlagCall blocking r st ipcMsgTypeListenOnlyReq ipcMsgTypeListenOnlyResp []

end Client

/-! ### Requests -/

/-- What another thread can ask for, by the functions of the module. Each of them is a call to the
endpoint of the thread, with at most one word. -/
inductive HobdRequest where
  | getStats
  | setCommState (state : UInt32)
  | getCommState
  | setListenOnly (state : UInt32)
  | getListenOnly
  deriving DecidableEq, Repr

/-- What the functions return. -/
inductive HobdAnswer where
  | stats (stats : HobdStats)
  | flag (flag : UInt32)
  deriving DecidableEq, Repr

/-- The function for a request. -/
def hobdRequest (q : HobdRequest) (blocking : Bool) (r : CommResults) (st : Ipc × CommThread) :
    Option (HobdAnswer × Ipc × CommThread) :=
  match q with
  | .getStats =>
    (hobdGetStats blocking r st (Vector.replicate 4 0)).map fun x => (.stats x.1, x.2)
  | .setCommState state => (hobdSetCommState blocking r st state).map fun x => (.flag x.1, x.2)
  | .getCommState => (hobdGetCommState blocking r st).map fun x => (.flag x.1, x.2)
  | .setListenOnly state => (hobdSetListenOnly blocking r st state).map fun x => (.flag x.1, x.2)
  | .getListenOnly => (hobdGetListenOnly blocking r st).map fun x => (.flag x.1, x.2)

/-- The counters at some time. -/
def CommThread.statsAt (now : UInt64) (s : CommThread) : HobdStats :=
  { s.stats with
    timestamp := now, validRxCount := s.parser.validCount, invalidRxCount := s.parser.invalidCount }

/-- The thread starts over: it goes back to the pulse, on a parser that is reset, so that a frame
that was open is forgotten. -/
def CommThread.startOver (s : CommThread) : CommThread :=
  { s with parser := hobdParserReset s.parser, comm.state := .gpioInit, point := .top }

/-- A request done in the thread itself, without messages. -/
def HobdRequest.perform (q : HobdRequest) (now : UInt64) (s : CommThread) :
    HobdAnswer × CommThread :=
  match q with
  | .getStats => (.stats (s.statsAt now), { s with stats := s.statsAt now, point := .top })
  | .setCommState state =>
    (.flag (desiredFlag state).toUInt32,
      CommThread.startOver { s with comm.enabled := desiredFlag state })
  | .getCommState => (.flag s.comm.enabled.toUInt32, { s with point := .top })
  | .setListenOnly state =>
    (.flag (desiredFlag state).toUInt32,
      CommThread.startOver { s with comm.listenOnly := desiredFlag state })
  | .getListenOnly => (.flag s.comm.listenOnly.toUInt32, { s with point := .top })

section Spec

variable (blocking : Bool) (r : CommResults) (ipc : Ipc) (s : CommThread)

/-- **The counters arrive as they were sent.** The time stamp goes as two words and the four
counters as two to a word, and the caller takes them apart again. -/
theorem ofWords_words (stats : HobdStats) : HobdStats.ofWords stats.words = stats := by
  obtain ⟨timestamp, valid, invalid, gpio, init⟩ := stats
  simp only [HobdStats.ofWords, HobdStats.words, List.getD_cons_zero, List.getD_cons_succ,
    ofNat_words, (toUInt16_halves _ _).1, (toUInt16_halves _ _).2]

/-- **A call to the thread returns** with the reply of the handler. The requests differ in what
their handler does; what they share is the way there and back, and that is done here once. -/
theorem hobdCall_spec (request response : UInt32) (args words : List UInt32) (respLength : ℕ)
    {s' : CommThread} (hargs : args.length ≤ 4) (hwords : words.length = respLength)
    (hshort : respLength ≤ 4) (hrequest : request ≠ 0)
    (hhandle : ∀ (m : IpcMessage), (∀ i < args.length, m.ipc.word i = args[i]?) →
      handleRequest request m.ipc.getMR0 { r with message := some m } { s with point := .top } =
        ⟨[.request request m.ipc.getMR0, .reply ⟨response, words⟩], some s'⟩) :
    ∃ ipc', hobdCall blocking r (ipc, s) request response args respLength = some (ipc', s') ∧
      ∀ i < respLength, ipc'.word i = words[i]? := by
  refine checkedCall_spec ipc hargs hwords hshort fun ipc' hword => ?_
  have hround := hhandle ⟨hobdmodBaseBadge, request, UInt32.ofNat args.length, ipc'⟩ hword
  simp only [hobdServe, recvRequest]
  rw [if_pos ⟨by decide, hrequest⟩, decide_true, require_true_bind, hround]
  rfl

theorem hobdGetStats_eq {now : UInt64} (hnow : r.firstTime = some now) (stats : Vector UInt32 4) :
    ∃ ipc', hobdGetStats blocking r (ipc, s) stats =
      some (s.statsAt now, ipc', { s with stats := s.statsAt now, point := .top }) := by
  have hhandle : ∀ m : IpcMessage, handleRequest hobdIpcMsgTypeStatsReq m.ipc.getMR0
      { r with message := some m } { s with point := .top } =
      ⟨[.request hobdIpcMsgTypeStatsReq m.ipc.getMR0,
        .reply ⟨hobdIpcMsgTypeStatsResp, (s.statsAt now).words⟩],
        some { s with stats := s.statsAt now, point := .top }⟩ := by
    intro m
    have htime : ({ r with message := some m } : CommResults).firstTime = some now := hnow
    rw [handleRequest, if_pos rfl, hobdStatsReq, htime]
    rfl
  obtain ⟨ipc', hcall, hword⟩ := hobdCall_spec blocking r ipc s hobdIpcMsgTypeStatsReq
    hobdIpcMsgTypeStatsResp [] (s.statsAt now).words 4 (by decide) rfl (by decide) (by decide)
    fun m _ => hhandle m
  have hlen : (s.statsAt now).words.length = 4 := rfl
  obtain ⟨stats', hrecv, hlist⟩ := sel4MrRecv_of_word 4 hlen (by decide) hword stats
  refine ⟨ipc', ?_⟩
  rw [hobdGetStats, hcall, Option.bind_some, hrecv, Option.map_some, hlist, ofWords_words]

/-- A call that is answered with one of the flags. -/
theorem hobdFlagCall_spec (request response : UInt32) (args : List UInt32) {flag : UInt8}
    {s' : CommThread} (hargs : args.length ≤ 4) (hrequest : request ≠ 0)
    (hhandle : ∀ (m : IpcMessage), (∀ i < args.length, m.ipc.word i = args[i]?) →
      handleRequest request m.ipc.getMR0 { r with message := some m } { s with point := .top } =
        ⟨[.request request m.ipc.getMR0, .reply ⟨response, [flag.toUInt32]⟩], some s'⟩) :
    ∃ ipc', hobdFlagCall blocking r (ipc, s) request response args =
      some (flag.toUInt32, ipc', s') := by
  obtain ⟨ipc', hcall, hword⟩ := hobdCall_spec blocking r ipc s request response args
    [flag.toUInt32] 1 hargs rfl (by decide) hrequest hhandle
  refine ⟨ipc', ?_⟩
  rw [hobdFlagCall, hcall, Option.bind_some, getMR_eq_word _ (by omega), hword 0 (by omega)]
  rfl

theorem hobdSetCommState_eq (state : UInt32) :
    ∃ ipc', hobdSetCommState blocking r (ipc, s) state = some ((desiredFlag state).toUInt32, ipc',
      CommThread.startOver { s with comm.enabled := desiredFlag state }) :=
  hobdFlagCall_spec blocking r ipc s ipcMsgTypeCommStateSetReq ipcMsgTypeCommStateResp [state]
    (by simp) (by decide) fun m hword => by
      rw [getMR0_of_word (hword 0 (by simp))]
      rfl

theorem hobdGetCommState_eq :
    ∃ ipc', hobdGetCommState blocking r (ipc, s) = some (s.comm.enabled.toUInt32, ipc',
      { s with point := .top }) :=
  hobdFlagCall_spec blocking r ipc s ipcMsgTypeCommStateReq ipcMsgTypeCommStateResp []
    (by decide) (by decide) fun _ _ => rfl

theorem hobdSetListenOnly_eq (state : UInt32) :
    ∃ ipc', hobdSetListenOnly blocking r (ipc, s) state = some ((desiredFlag state).toUInt32, ipc',
      CommThread.startOver { s with comm.listenOnly := desiredFlag state }) :=
  hobdFlagCall_spec blocking r ipc s ipcMsgTypeListenOnlySetReq ipcMsgTypeListenOnlyResp [state]
    (by simp) (by decide) fun m hword => by
      rw [getMR0_of_word (hword 0 (by simp))]
      rfl

theorem hobdGetListenOnly_eq :
    ∃ ipc', hobdGetListenOnly blocking r (ipc, s) = some (s.comm.listenOnly.toUInt32, ipc',
      { s with point := .top }) :=
  hobdFlagCall_spec blocking r ipc s ipcMsgTypeListenOnlyReq ipcMsgTypeListenOnlyResp []
    (by decide) (by decide) fun _ _ => rfl

/-- **A request is answered as if it were done in place**, by a thread that is at the end of a
round. The message registers are used on the way, and nothing is known of what they hold
afterwards. -/
theorem hobdRequest_eq (q : HobdRequest) {now : UInt64}
    (hnow : q = .getStats → r.firstTime = some now) :
    ∃ ipc', hobdRequest q blocking r (ipc, s) =
      some ((q.perform now s).1, ipc', (q.perform now s).2) := by
  cases q with
  | getStats =>
    obtain ⟨ipc', h⟩ := hobdGetStats_eq blocking r ipc s (hnow rfl) (Vector.replicate 4 0)
    exact ⟨ipc', by rw [hobdRequest, h]; rfl⟩
  | setCommState state =>
    obtain ⟨ipc', h⟩ := hobdSetCommState_eq blocking r ipc s state
    exact ⟨ipc', by rw [hobdRequest, h]; rfl⟩
  | getCommState =>
    obtain ⟨ipc', h⟩ := hobdGetCommState_eq blocking r ipc s
    exact ⟨ipc', by rw [hobdRequest, h]; rfl⟩
  | setListenOnly state =>
    obtain ⟨ipc', h⟩ := hobdSetListenOnly_eq blocking r ipc s state
    exact ⟨ipc', by rw [hobdRequest, h]; rfl⟩
  | getListenOnly =>
    obtain ⟨ipc', h⟩ := hobdGetListenOnly_eq blocking r ipc s
    exact ⟨ipc', by rw [hobdRequest, h]; rfl⟩

end Spec

end HobdSystem
