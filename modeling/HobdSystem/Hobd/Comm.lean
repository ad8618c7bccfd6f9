import HobdSystem.Hobd.Msg
import HobdSystem.Library.Traced
import HobdSystem.Mmc.Entry

/-!
# Driving and reading the K-line

The model of `comm.c`. The thread that talks to the ECU drives the K-line in two ways: it pulls
the line low and lets it go again through a GPIO, to wake the ECU up, and it puts bytes on the
UART. What it does is a trace of `HobdSystem.CommAction`, and what the calls it makes are answered
with is a `HobdSystem.CommResults`. `ZF_LOGF_IF` and `assert` end the program.

The answers are data, and nothing is assumed about them: a GPIO may refuse to change, the time
server may fail, the UART may have a byte or none. They are collected in one structure for each
move of the thread, so that a run of the thread is a function of a list, and so that a theorem
about every list is a theorem about everything the devices and the other threads can do.

A call of `comm_recv_msg` polls the UART until a message is complete or the timer has called
`timeout_cb`, for as long as it takes. There is no bound on the number of rounds, and a definition
that ran them all would need one. So there is one definition for what the call does before its
loop and one for a round of the loop, and the thread stays where it is while the answer is
`HobdSystem.Poll.goesOn`. The same holds for `comm_wait_for_resp`, whose loop is around that loop:
a message that is not the response leaves the inner loop and enters it once more, with the timer
started again.

Two things are worth a look in the source. `comm_recv_msg` looks at the flag of the timer *after*
it has polled the UART, so a message that is complete wins over a timeout in the same round. And
the two functions that fill in a query for a table pass on the size of a pointer where the size of
the data is meant (`HobdSystem.fillTableQuery`).
-/

namespace HobdSystem

open Traced

/-! ### The state of the communication -/

/-- `comm_state_kind`. -/
inductive CommStateKind where
  | gpioInit
  | sendEcuInit
  | sendReq0
  | sendReq1
  deriving DecidableEq, Repr

/-- `comm_s`, without the handles of the devices and the identifier of the timer. -/
structure Comm where
  enabled : UInt8
  listenOnly : UInt8
  state : CommStateKind
  timeoutSignaled : UInt32
  deriving DecidableEq, Repr

/-- What the thread does, as far as anyone else can see it: to its devices, the timer, the callers
of its endpoint and the log. -/
inductive CommAction where
  /-- `gpio_new`. -/
  | gpioNew
  /-- `gpio_clr`, on the K-line. -/
  | gpioClr
  /-- `gpio_set`, on the K-line. -/
  | gpioSet
  /-- `ps_mdelay`. -/
  | mdelay (ms : UInt32)
  /-- `serial_configure`, without parity. -/
  | serialConfigure (bps charSize stopBits : UInt32)
  /-- `ps_cdev_putchar`. -/
  | putchar (byte : UInt8)
  /-- `time_server_register_rel_cb`. -/
  | registerRelCb (ns : UInt64)
  /-- `time_server_deregister_cb`. -/
  | deregisterCb
  /-- `mmc_log_entry_data`. -/
  | log (call : LogCall)
  /-- A request is accepted. -/
  | request (label word : UInt32)
  /-- `seL4_Reply`. -/
  | reply (r : IpcReply)

/-- What the calls the thread makes between two points of its loop are answered with. A move makes
each of these calls at most once, but for the time server, which it may ask twice. -/
structure CommResults where
  gpioClr : Int32
  gpioSet : Int32
  serialConfigure : Int32
  /-- The byte the UART has, or a negative number. -/
  getchar : Int32
  /-- The two calls of `comm_start_timeout`. -/
  restartCb : Int32
  registerRelCb : Int32
  /-- The call at the end of `comm_recv_msg`. -/
  deregisterCb : Int32
  /-- What the time server answers, the first and the second time it is asked. -/
  getTime : Fin 2 → Option UInt64
  /-- What is received on the endpoint. -/
  message : Option IpcMessage

/-- The first answer of the time server. -/
def CommResults.firstTime (r : CommResults) : Option UInt64 := r.getTime 0

/-- Its second answer. -/
def CommResults.secondTime (r : CommResults) : Option UInt64 := r.getTime 1

/-- `COMM_RX_NO_DATA_TIMEOUT_NS`. -/
def commRxNoDataTimeoutNs : UInt64 := 400 * 1000000

/-- `HOBD_KLINE_BAUD`. -/
def hobdKlineBaud : UInt32 := 10400

/-- `HOBD_INIT_DATA`. -/
def hobdInitData : UInt8 := 0xF0

/-- `HOBD_TABLE_10`. -/
def hobdTable10 : UInt8 := 0x10

/-- `HOBD_TABLE_D1`. -/
def hobdTableD1 : UInt8 := 0xD1

/-- `MMC_ENTRY_TYPE_HOBD_MSG`. -/
def mmcEntryTypeHobdMsg : UInt16 := 0x0100

/-- `mmc_log_entry_data`, as the caller sees it. -/
def logEntryData (call : LogCall) : Traced CommAction Unit := do
  require (decide call.SizeOk)
  emit [.log call]

/-! ### The timer -/

/-- `timeout_cb`, which the thread of the time server runs. -/
def timeoutCb (comm : Comm) : Comm := { comm with timeoutSignaled := 1 }

/-- `comm_get_timeout`. -/
def commGetTimeout (comm : Comm) : UInt32 := comm.timeoutSignaled

/-- `comm_stop_timeout`. -/
def commStopTimeout (err : Int32) (comm : Comm) : Traced CommAction Comm := do
  emit [.deregisterCb]
  require (err = 0)
  return { comm with timeoutSignaled := 0 }

/-- `comm_start_timeout`. -/
def commStartTimeout (r : CommResults) (comm : Comm) : Traced CommAction Comm := do
  let comm ← commStopTimeout r.restartCb comm
  emit [.registerRelCb commRxNoDataTimeoutNs]
  require (r.registerRelCb = 0)
  return comm

/-! ### Driving the line -/

/-- A change of the GPIO, unless the thread only listens. -/
def gpioChange (a : CommAction) (err : Int32) (comm : Comm) : Traced CommAction Unit :=
  if comm.listenOnly = 0 then do
    emit [a]
    require (err = 0)
  else pure ()

/-- `comm_gpio_init_seq`. -/
def commGpioInitSeq (r : CommResults) (comm : Comm) : Traced CommAction Unit := do
  gpioChange .gpioClr r.gpioClr comm
  emit [.mdelay 70]
  gpioChange .gpioSet r.gpioSet comm
  emit [.mdelay 120]

/-- The UART is set up for the K-line. -/
def configureSerial (err : Int32) : Traced CommAction Unit := do
  emit [.serialConfigure hobdKlineBaud 8 1]
  require (err = 0)

/-- `comm_ecu_init_seq`. -/
def commEcuInitSeq (r : CommResults) (comm : Comm) : Traced CommAction Unit := do
  commGpioInitSeq r comm
  configureSerial r.serialConfigure

/-- `comm_send_msg`, on the message at the start of a buffer. -/
def commSendMsg (buffer : List UInt8) (comm : Comm) : Traced CommAction Unit :=
  if comm.listenOnly = 0 then emit ((buffer.take (headerSize buffer).toNat).map .putchar)
  else pure ()

/-- The size of a pointer on the target. -/
def sizeofPointer : UInt8 := 4

/-- A query for a table, from its first byte on. The size that is passed on is the size of
the pointer `query` and not of what it points to. -/
def fillTableQuery (table count : UInt8) (buffer : List UInt8) : List UInt8 :=
  (hobdMsg hobdMsgTypeQuery hobdMsgSubtypeTableSubgroup sizeofPointer
    (putData [table, 0, count] buffer)).2

/-- `comm_fill_msg_subgroub_10_query`. -/
def commFillMsgSubgroub10Query (buffer : List UInt8) : List UInt8 :=
  fillTableQuery hobdTable10 0x80 buffer

/-- `comm_fill_msg_subgroub_d1_query`. -/
def commFillMsgSubgroubD1Query (buffer : List UInt8) : List UInt8 :=
  fillTableQuery hobdTableD1 0x06 buffer

/-! ### Reading the line -/

/-- Where a loop stands after a round: it goes round once more, or it is left with a timeout or
with what it was looking for. -/
inductive Poll (α : Type) where
  | goesOn
  | timedOut
  | found (a : α)

/-- `comm_recv_msg` in front of its loop. -/
def commRecvMsgEnter (useTimeout : UInt32) (r : CommResults) (comm : Comm) :
    Traced CommAction Comm :=
  if useTimeout ≠ 0 then commStartTimeout r comm else pure comm

/-- `comm_recv_msg` behind its loop. -/
def commRecvMsgLeave (useTimeout : UInt32) (r : CommResults) (comm : Comm) :
    Traced CommAction Comm :=
  if useTimeout ≠ 0 then commStopTimeout r.deregisterCb comm else pure comm

/-- What a round of `comm_recv_msg` does with the UART: whether a message is complete, and the
parser. A negative answer is no byte, and the parser is left alone then. -/
def pollUart (data : Int32) (parser : HobdParser) : Bool × HobdParser :=
  if 0 ≤ data then
    let (status, parser) := hobdParserParseByte data.toUInt32.toUInt8 parser
    (status = .none, parser)
  else (false, parser)

/-- A round of `comm_recv_msg`. The message is the one in the buffer of the parser. -/
def commRecvMsgRound (useTimeout : UInt32) (r : CommResults) (parser : HobdParser)
    (comm : Comm) : Traced CommAction (Poll Unit × HobdParser × Comm) :=
  let (found, parser) := pollUart r.getchar parser
  -- a message that is complete is returned, also if the timer has fired
  if found then do
    let comm ← commRecvMsgLeave useTimeout r comm
    return (.found (), parser, comm)
  else if useTimeout ≠ 0 ∧ commGetTimeout comm ≠ 0 then do
    let comm ← commRecvMsgLeave useTimeout r comm
    return (.timedOut, parser, comm)
  else pure (.goesOn, parser, comm)

/-- A round of `comm_wait_for_resp`: what a round of `comm_recv_msg` comes to. A message that
is not the response is passed over and the next one is awaited, and the time of the response
is asked for. -/
def commWaitForRespRound (subtype : UInt8) (useTimeout : UInt32) (r : CommResults)
    (parser : HobdParser) (comm : Comm) :
    Traced CommAction (Poll UInt64 × HobdParser × Comm) := do
  let (poll, parser, comm) ← commRecvMsgRound useTimeout r parser comm
  match poll with
  | .goesOn => pure (.goesOn, parser, comm)
  | .timedOut => pure (.timedOut, parser, comm)
  | .found () =>
    if headerType parser.rxBuffer = hobdMsgTypeResponse ∧
        headerSubtype parser.rxBuffer = subtype then do
      let rxTimestamp ← ofOption (r.firstTime)
      return (.found rxTimestamp, parser, comm)
    else do
      let comm ← commRecvMsgEnter useTimeout r comm
      return (.goesOn, parser, comm)

end HobdSystem
