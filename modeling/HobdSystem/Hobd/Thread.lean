import HobdSystem.Hobd.Comm

/-!
# The thread that talks to the ECU

The model of `obd_comm_thread_fn` and of what it calls in `hobd_module.c`. A round of its loop
does one of three things: it takes one step of the exchange with the ECU
(`HobdSystem.commUpdateState`), it listens for a message, or, when communication is disabled, it
does nothing. Then it receives a request, if there is one. Only a disabled thread waits for a
request.

A round can take any time, so the thread moves from one `HobdSystem.CommPoint` to the next: the
head of the loop, the two places where it polls the UART, and the place where it receives.
`HobdSystem.commStep` is one such move. The thread of the time server may call `timeout_cb`
between any two of them. It is only this thread that writes the mode and the state of the
exchange.

The exchange has four states. In `COMM_STATE_GPIO_INIT` the ECU is woken up with a pulse on the
line; in `COMM_STATE_SEND_ECU_INIT` a session is opened with two messages; in the last two the
tables of the ECU are asked for, one after the other, over and over. Each of them but the first
transmits and then waits for a response, and a response that does not come leads back: to the
pulse from the opening of a session, and to the opening from a query for a table. A request that
sets one of the flags starts all of this over.

What is in here is the source and nothing else. What a move of the thread can do, in one table
with a line for every outcome, is in `HobdSystem.Hobd.Moves`, and all that is proved of the thread
is proved from there.
-/

namespace HobdSystem

open Traced

/-! ### Labels -/

/-- `HOBDMOD_BASE_BADGE`, which is the badge of the endpoint. -/
def hobdmodBaseBadge : UInt32 := 0x23

/-- `IPC_MSG_TYPE_STATS_REQ` of this module. -/
def hobdIpcMsgTypeStatsReq : UInt32 := ipcMsgTypeId hobdmodBaseBadge 1

/-- `IPC_MSG_TYPE_STATS_RESP` of this module. -/
def hobdIpcMsgTypeStatsResp : UInt32 := ipcMsgTypeId hobdmodBaseBadge 2

/-- `IPC_MSG_TYPE_COMM_STATE_REQ`. -/
def ipcMsgTypeCommStateReq : UInt32 := ipcMsgTypeId hobdmodBaseBadge 3

/-- `IPC_MSG_TYPE_COMM_STATE_SET_REQ`. -/
def ipcMsgTypeCommStateSetReq : UInt32 := ipcMsgTypeId hobdmodBaseBadge 4

/-- `IPC_MSG_TYPE_COMM_STATE_RESP`. -/
def ipcMsgTypeCommStateResp : UInt32 := ipcMsgTypeId hobdmodBaseBadge 5

/-- `IPC_MSG_TYPE_LISTEN_ONLY_REQ`. -/
def ipcMsgTypeListenOnlyReq : UInt32 := ipcMsgTypeId hobdmodBaseBadge 6

/-- `IPC_MSG_TYPE_LISTEN_ONLY_SET_REQ`. -/
def ipcMsgTypeListenOnlySetReq : UInt32 := ipcMsgTypeId hobdmodBaseBadge 7

/-- `IPC_MSG_TYPE_LISTEN_ONLY_RESP`. -/
def ipcMsgTypeListenOnlyResp : UInt32 := ipcMsgTypeId hobdmodBaseBadge 8

/-! ### The state of the thread -/

/-- `hobd_stats_s`. -/
structure HobdStats where
  timestamp : UInt64
  validRxCount : UInt16
  invalidRxCount : UInt16
  commGpioRetryCount : UInt16
  commInitRetryCount : UInt16
  deriving DecidableEq, Repr

/-- The four words `hobd_stats_s` is sent as. -/
def HobdStats.words (stats : HobdStats) : List UInt32 :=
  [stats.timestamp.toUInt32, (stats.timestamp >>> 32).toUInt32,
    stats.validRxCount.toUInt32 ||| stats.invalidRxCount.toUInt32 <<< 16,
    stats.commGpioRetryCount.toUInt32 ||| stats.commInitRetryCount.toUInt32 <<< 16]

/-- What the thread waits for in `comm_wait_for_resp`, and the state it goes on to: the one if the
response is found, the other if the timer fires first. -/
structure RespWait where
  subtype : UInt8
  found : CommStateKind
  notFound : CommStateKind
  deriving DecidableEq, Repr

/-- Where the thread is between two moves. These are the places where the source can stay for any
time: it polls the UART there, or receives, or has just come round. -/
inductive CommPoint where
  /-- At the head of the loop. -/
  | top
  /-- In `comm_wait_for_resp`. -/
  | wait (w : RespWait)
  /-- In the `comm_recv_msg` of a thread that only listens. -/
  | listen
  /-- At the end of a round: in `seL4_Recv`, or in `seL4_NBRecv`. -/
  | recv (blocking : Bool)
  deriving DecidableEq, Repr

/-- What the thread keeps: `g_comm`, the parser with its buffer, the transmit buffer, and the
counters. -/
structure CommThread where
  comm : Comm
  parser : HobdParser
  txBuffer : List UInt8
  stats : HobdStats
  point : CommPoint

/-! ### The exchange with the ECU -/

/-- `new_hobd_msg_callback`. -/
def newHobdMsgCallback (msg : List UInt8) (rxTimestamp : UInt64) : Traced CommAction Unit :=
  logEntryData ⟨mmcEntryTypeHobdMsg, (headerSize msg).toUInt16, some rxTimestamp, msg, rxTimestamp⟩

/-- A transmitted message is logged, with the time of the log call. -/
def logTxMsg (time : Option UInt64) (dataSize : UInt16) (msg : List UInt8) :
    Traced CommAction Unit := do
  let now ← ofOption time
  logEntryData ⟨mmcEntryTypeHobdMsg, dataSize, none, msg, now⟩

/-- `send_ecu_diag_messages`. -/
def sendEcuDiagMessages (r : CommResults) (s : CommThread) : Traced CommAction CommThread := do
  let s := { s with parser := hobdParserReset s.parser }
  let wakeUp := (hobdMsgNoData hobdMsgTypeWakeUp hobdMsgSubtypeWakeUp s.txBuffer).2
  commSendMsg wakeUp s.comm
  logTxMsg (r.firstTime) hobdMsgHeadercsSize.toUInt16 wakeUp
  emit [.mdelay 1]
  let init := (hobdMsg hobdMsgTypeQuery hobdMsgSubtypeInit 1 (putData [hobdInitData] wakeUp)).2
  commSendMsg init s.comm
  logTxMsg (r.secondTime) (hobdMsgHeadercsSize.toUInt16 + 1) init
  return { s with txBuffer := init }

/-- `send_table_req`, which has no other tables. -/
def sendTableReq (table : UInt8) (r : CommResults) (s : CommThread) :
    Traced CommAction CommThread := do
  let tx ← ofOption (if table = hobdTable10 then some (commFillMsgSubgroub10Query s.txBuffer)
    else if table = hobdTableD1 then some (commFillMsgSubgroubD1Query s.txBuffer) else none)
  commSendMsg tx s.comm
  logTxMsg (r.firstTime) (headerSize tx).toUInt16 tx
  return { s with txBuffer := tx }

/-- `comm_wait_for_resp` is called. -/
def enterWait (w : RespWait) (r : CommResults) (s : CommThread) :
    Traced CommAction CommThread := do
  let comm ← commRecvMsgEnter 1 r s.comm
  return { s with comm := comm, point := .wait w }

/-- `comm_update_state`, up to the wait for the response. -/
def commUpdateState (r : CommResults) (s : CommThread) : Traced CommAction CommThread :=
  match s.comm.state with
  | .gpioInit => do
    commEcuInitSeq r s.comm
    return { s with
      comm.state := .sendEcuInit, stats.commGpioRetryCount := s.stats.commGpioRetryCount + 1,
      point := .recv false }
  | .sendEcuInit => do
    let s ← sendEcuDiagMessages r s
    -- without a response the ECU is woken up again
    enterWait ⟨hobdMsgSubtypeInit, .sendReq0, .gpioInit⟩ r
      { s with stats.commInitRetryCount := s.stats.commInitRetryCount + 1 }
  | .sendReq0 => do
    let s ← sendTableReq hobdTable10 r s
    enterWait ⟨hobdMsgSubtypeTableSubgroup, .sendReq1, .sendEcuInit⟩ r s
  | .sendReq1 => do
    let s ← sendTableReq hobdTableD1 r s
    enterWait ⟨hobdMsgSubtypeTableSubgroup, .sendReq0, .sendEcuInit⟩ r s

/-- `comm_update_state` in the wait for the response, and behind it. -/
def waitForResp (w : RespWait) (r : CommResults) (s : CommThread) :
    Traced CommAction CommThread := do
  let (poll, parser, comm) ← commWaitForRespRound w.subtype 1 r s.parser s.comm
  match poll with
  | .goesOn => return { s with parser := parser, comm := comm }
  | .timedOut =>
    return { s with
      parser := parser, comm := { comm with state := w.notFound }, point := .recv false }
  | .found rxTimestamp => do
    newHobdMsgCallback parser.rxBuffer rxTimestamp
    return { s with
      parser := parser, comm := { comm with state := w.found }, point := .recv false }

/-- The `comm_recv_msg` of a thread that only listens, and what is behind it. -/
def listenForMsg (r : CommResults) (s : CommThread) : Traced CommAction CommThread := do
  let (poll, parser, comm) ← commRecvMsgRound 1 r s.parser s.comm
  match poll with
  | .goesOn => return { s with parser := parser, comm := comm }
  | .timedOut => return { s with parser := parser, comm := comm, point := .recv false }
  | .found () => do
    let timestamp ← ofOption (r.firstTime)
    newHobdMsgCallback parser.rxBuffer timestamp
    return { s with parser := parser, comm := comm, point := .recv false }

/-! ### Requests -/

/-- The request for the counters. -/
def hobdStatsReq (r : CommResults) (s : CommThread) : Traced CommAction CommThread := do
  let now ← ofOption (r.firstTime)
  let stats := { s.stats with
    timestamp := now, validRxCount := s.parser.validCount, invalidRxCount := s.parser.invalidCount }
  emit [.reply ⟨hobdIpcMsgTypeStatsResp, stats.words⟩]
  return { s with stats := stats }

/-- A request for one of the flags. -/
def flagReq (label : UInt32) (flag : UInt8) (s : CommThread) : Traced CommAction CommThread := do
  emit [.reply ⟨label, [flag.toUInt32]⟩]
  return s

/-- The flag a request asks for. -/
def desiredFlag (desiredState : UInt32) : UInt8 := if desiredState = 0 then 0 else 1

/-- A request that has set one of the flags: the exchange starts over. -/
def flagSetReq (label : UInt32) (flag : UInt8) (s : CommThread) :
    Traced CommAction CommThread := do
  emit [.reply ⟨label, [flag.toUInt32]⟩]
  return { s with parser := hobdParserReset s.parser, comm.state := .gpioInit }

/-- The request to enable or disable communication. -/
def commStateSetReq (desiredState : UInt32) (s : CommThread) : Traced CommAction CommThread :=
  flagSetReq ipcMsgTypeCommStateResp (desiredFlag desiredState)
    { s with comm.enabled := desiredFlag desiredState }

/-- The request to listen only, or not to. -/
def listenOnlySetReq (desiredState : UInt32) (s : CommThread) : Traced CommAction CommThread :=
  flagSetReq ipcMsgTypeListenOnlyResp (desiredFlag desiredState)
    { s with comm.listenOnly := desiredFlag desiredState }

/-- The handler of a request, picked by its label. A foreign label ends the program. -/
def handleRequest (label word : UInt32) (r : CommResults) (s : CommThread) :
    Traced CommAction CommThread := do
  emit [.request label word]
  if label = hobdIpcMsgTypeStatsReq then hobdStatsReq r s
  else if label = ipcMsgTypeCommStateReq then flagReq ipcMsgTypeCommStateResp s.comm.enabled s
  else if label = ipcMsgTypeCommStateSetReq then commStateSetReq word s
  else if label = ipcMsgTypeListenOnlyReq then
    flagReq ipcMsgTypeListenOnlyResp s.comm.listenOnly s
  else if label = ipcMsgTypeListenOnlySetReq then listenOnlySetReq word s
  else ofOption none

/-- The end of a round. Without a message the badge is zero, and `seL4_Recv` does not
return. -/
def recvRequest (blocking : Bool) (r : CommResults) (s : CommThread) :
    Traced CommAction CommThread :=
  match r.message with
  | none => pure (if blocking then s else { s with point := .top })
  | some m =>
    -- any other badge ends the program
    if m.badge ≠ 0 ∧ m.label ≠ 0 then do
      require (m.badge = hobdmodBaseBadge)
      handleRequest m.label m.ipc.getMR0 r { s with point := .top }
    else pure { s with point := .top }

/-! ### The loop -/

/-- The head of the loop. -/
def loopHead (r : CommResults) (s : CommThread) : Traced CommAction CommThread :=
  if s.comm.enabled ≠ 0 then
    if s.comm.listenOnly = 0 then commUpdateState r s
    else do
      let comm ← commRecvMsgEnter 1 r s.comm
      return { s with comm := comm, point := .listen }
  else pure { s with point := .recv true }

/-- What makes the system move. -/
inductive CommInput where
  /-- The timer calls `timeout_cb`. -/
  | timeout
  /-- The thread goes on. -/
  | run (r : CommResults)

/-- One move of the system: the thread goes on from the point where it is, or the timer calls
`timeout_cb`, which does not move the thread. -/
def commStep : CommInput → CommThread → Traced CommAction CommThread
  | .timeout, s => pure { s with comm := timeoutCb s.comm }
  | .run r, s =>
    match s.point with
    | .top => loopHead r s
    | .wait w => waitForResp w r s
    | .listen => listenForMsg r s
    | .recv blocking => recvRequest blocking r s

/-- `g_comm` after `hobd_module_init`. -/
def hobdModuleInit : Comm := ⟨0, 1, .gpioInit, 0⟩

/-- What the calls `obd_comm_thread_fn` makes in front of its loop are answered with. -/
structure StartResults where
  allocId : Int32
  gpioNew : Int32
  serialConfigure : Int32

/-- `obd_comm_thread_fn` up to its loop, on buffers that are zero as static ones are. -/
def obdCommThreadStart (r : StartResults) (comm : Comm) : Traced CommAction CommThread := do
  require (r.allocId = 0)
  let parser ← ofOption (hobdParserInit (List.replicate 512 0) 512)
  emit [.gpioNew]
  require (r.gpioNew = 0)
  if comm.listenOnly ≠ 0 then configureSerial r.serialConfigure else pure ()
  return ⟨{ comm with state := .gpioInit }, parser, List.replicate 256 0, ⟨0, 0, 0, 0, 0⟩, .top⟩

/-- What the system has done after some moves, and the state it is in. -/
def commRun (r : StartResults) (is : List CommInput) : Traced CommAction CommThread :=
  run commStep (obdCommThreadStart r hobdModuleInit) is

end HobdSystem
