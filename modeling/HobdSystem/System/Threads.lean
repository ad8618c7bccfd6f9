import HobdSystem.Hobd.Client
import HobdSystem.Library.Blocking
import HobdSystem.Mmc.Client
import Mathlib.Order.Basic

/-!
# The threads of the system

What the six threads do as far as they can make each other wait: `main`, which receives faults, the
time server, the system, MMC and HOBD threads, and the console. Each function of the source that
takes a mutex, sends or receives is a program of `HobdSystem.Skeleton` under its own name, with its
conditions left open. What does not wait is not there: delays, the UART, the wait for a flag, which
is looked at over and over again.

The FAT library is not part of the source. It is given `fatio_lock` and `fatio_unlock` to call, so a
call of the library is assumed to take and give back `g_fs_mutex` some number of times, one after
the other, and to do nothing else that waits (`HobdSystem.Skeleton.fatCall`).

A thread that faults is stopped for good. `thread_create` gives every thread the endpoint of `main`
for its faults, and `main` logs what it receives there and never replies. The thread may have any
mutex when it faults, and may have been called by another one, so whoever comes to wait for it then
waits for ever. A failed assertion stops a thread in the same way. The threads run from the
beginning, so this says nothing of a call to a thread that has not been started yet.

Three mutexes and three endpoints are waited for, and they can be ranked: **no thread of the system
ever waits for one that waits for it** (`HobdSystem.system_does_not_deadlock`), so that only a fault
can hold a thread up for good. It matters that the callbacks of the time server, which run while it
has its mutex, call nothing that takes that mutex again, and that the heartbeat is sent without
waiting.
-/

namespace HobdSystem

open Blocking

/-- The threads. -/
inductive ThreadId where
  /-- `main`. -/
  | root
  /-- `time_server_thread_fn`. -/
  | timeServer
  /-- `sys_thread_fn`. -/
  | sys
  /-- `mmc_thread_fn`. -/
  | mmc
  /-- `obd_comm_thread_fn`. -/
  | hobd
  /-- `console_thread_fn`. -/
  | console
  deriving DecidableEq, Repr

/-- The mutexes. -/
inductive Mutex where
  /-- `g_sys_ready_mutex`. -/
  | sysReady
  /-- `g_tm_mutex`. -/
  | tm
  /-- `g_fs_mutex`. -/
  | fs
  deriving DecidableEq, Repr

/-- What a thread can receive. -/
inductive Message where
  /-- A fault, on `global_fault_ep`. -/
  | fault
  /-- The interrupt of the timer, on `g_timer_ntfn`. -/
  | timerIrq
  /-- The interrupt of the UART, on `g_cdev_ntfn`. -/
  | uartIrq
  /-- `IPC_MSG_TYPE_TIMEOUT`. -/
  | timeout
  /-- `IPC_MSG_TYPE_ENTRY_LOG`. -/
  | entryLog
  | mmc (q : MmcRequest)
  | hobd (q : HobdRequest)
  deriving DecidableEq, Repr

/-- A piece of the program of a thread. -/
abbrev Skeleton : Type := Prog Mutex Message

namespace Skeleton

open Prog

/-- Some programs, one after the other. -/
def seqs : List Skeleton → Skeleton
  | [] => .skip
  | [p] => p
  | p :: ps => .seq p (seqs ps)

/-- One of some programs, or none. -/
def choices : List Skeleton → Skeleton
  | [] => .skip
  | p :: ps => .choice p (choices ps)

/-- Perhaps. -/
def opt (p : Skeleton) : Skeleton := .choice p .skip

/-! ### The time server -/

/-- `time_server_get_time`. -/
def timeServerGetTime : Skeleton := .hold .tm .skip

/-- `time_server_alloc_id`. -/
def timeServerAllocId : Skeleton := .hold .tm .skip

/-- `time_server_register_periodic_cb`. -/
def timeServerRegisterPeriodicCb : Skeleton := .hold .tm .skip

/-- `time_server_register_rel_cb`. -/
def timeServerRegisterRelCb : Skeleton := .hold .tm .skip

/-- `time_server_deregister_cb`. -/
def timeServerDeregisterCb : Skeleton := .hold .tm .skip

/-- `time_server_module_init`. -/
def timeServerModuleInit : Skeleton := .hold .tm .skip

/-! ### The file -/

/-- A call of the FAT library, through `fatio_lock` and `fatio_unlock`. -/
def fatCall : Skeleton := .star (.hold .fs .skip)

/-- `mmc_fopen`. -/
def mmcFopen : Skeleton := fatCall

/-- `mmc_fclose`. -/
def mmcFclose : Skeleton := opt fatCall

/-- `mmc_file_open`. -/
def mmcFileOpen : Skeleton := opt mmcFopen

/-- `mmc_file_set_enabled`. -/
def mmcFileSetEnabled : Skeleton := opt (.choice (opt mmcFclose) mmcFopen)

/-- `mmc_file_rm`. -/
def mmcFileRm : Skeleton := opt (seqs [mmcFclose, fatCall, mmcFopen])

/-- `mmc_file_flush`. -/
def mmcFileFlush : Skeleton := opt (.choice (.seq mmcFclose mmcFopen) fatCall)

/-- `mmc_file_write`. -/
def mmcFileWrite : Skeleton := opt fatCall

/-- `write_mmc_entry`. -/
def writeMmcEntry (hardFlush : Bool) : Skeleton :=
  .seq mmcFileWrite (if hardFlush then mmcFileFlush else .skip)

/-! ### Callbacks -/

/-- `hard_flush_timeout_cb`. -/
def hardFlushTimeoutCb : Skeleton := mmcFileFlush

/-- `timeout_cb` of the system module. -/
def sysTimeoutCb : Skeleton := .nbSend .timeout

/-- `timeout_cb` of `comm.c`. -/
def commTimeoutCb : Skeleton := .skip

/-- `tm_update`, which calls what is registered. -/
def tmUpdate : Skeleton :=
  .star (choices [hardFlushTimeoutCb, sysTimeoutCb, commTimeoutCb])

/-! ### The MMC module -/

/-- `mmc_log_entry_data`. -/
def mmcLogEntryData (timestamp nonblocking : Bool) : Skeleton :=
  .seq (if timestamp then .skip else timeServerGetTime)
    (if nonblocking then .nbSend .entryLog else .send .entryLog)

/-- `mmc_thread_fn` up to its loop. -/
def mmcThreadStart : Skeleton :=
  seqs [fatCall, mmcFileOpen, timeServerAllocId, timeServerRegisterPeriodicCb, timeServerGetTime,
    writeMmcEntry true]

/-- A request in the loop of `mmc_thread_fn`. -/
def mmcRequest : MmcRequest → Skeleton
  | .getStats => .seq timeServerGetTime .reply
  | .getFileSize => .reply
  | .rm => .seq mmcFileRm .reply
  | .getState => .reply
  | .setState _ => seqs [mmcFileSetEnabled, opt mmcFileSetEnabled, .reply]

/-! ### The HOBD module -/

/-- `system_module_wait_for_start`. -/
def systemModuleWaitForStart : Skeleton := .hold .sysReady .skip

/-- `comm_stop_timeout`. -/
def commStopTimeout : Skeleton := timeServerDeregisterCb

/-- `comm_start_timeout`. -/
def commStartTimeout : Skeleton := .seq commStopTimeout timeServerRegisterRelCb

/-- `comm_recv_msg`, with a timeout. -/
def commRecvMsg : Skeleton := .seq commStartTimeout commStopTimeout

/-- `comm_wait_for_resp`, with a timeout. -/
def commWaitForResp : Skeleton := .seq (.star commRecvMsg) (opt timeServerGetTime)

/-- `new_hobd_msg_callback`. -/
def newHobdMsgCallback : Skeleton := mmcLogEntryData true false

/-- `send_ecu_diag_messages`. -/
def sendEcuDiagMessages : Skeleton :=
  .seq (mmcLogEntryData false false) (mmcLogEntryData false false)

/-- `send_table_req`. -/
def sendTableReq : Skeleton := mmcLogEntryData false false

/-- The end of a wait for a response. -/
def respFound : Skeleton := opt newHobdMsgCallback

/-- `comm_update_state`. -/
def commUpdateState : Skeleton :=
  choices [seqs [sendEcuDiagMessages, commWaitForResp, respFound],
    seqs [sendTableReq, commWaitForResp, respFound]]

/-- `obd_comm_thread_fn` up to its loop. -/
def obdCommThreadStart : Skeleton := .seq systemModuleWaitForStart timeServerAllocId

/-- A round that only listens. -/
def listenRound : Skeleton := .seq commRecvMsg (opt (.seq timeServerGetTime newHobdMsgCallback))

/-- A round of the loop of `obd_comm_thread_fn`. -/
def obdCommThreadLoop : Skeleton :=
  .choice (.seq (.choice commUpdateState listenRound) (.recv false)) (.recv true)

/-- A request in the loop of `obd_comm_thread_fn`. -/
def hobdRequest : HobdRequest → Skeleton
  | .getStats => .seq timeServerGetTime .reply
  | .getCommState | .setCommState _ | .getListenOnly | .setListenOnly _ => .reply

/-! ### The system module, the console, and `main` -/

/-- `sys_thread_fn` up to its loop. -/
def sysThreadStart : Skeleton :=
  .hold .sysReady (.seq timeServerAllocId timeServerRegisterPeriodicCb)

/-- `handle_cli_cmd`. -/
def handleCliCmd : Skeleton :=
  choices [timeServerGetTime,
    seqs [.call (.mmc .getStats), .call (.mmc .getState), .call (.hobd .getStats),
      .call (.hobd .getCommState), .call (.hobd .getListenOnly)]]

/-- `handle_cli_subcmd`. -/
def handleCliSubcmd : Skeleton :=
  choices [.call (.mmc (.setState 1)), .call (.mmc (.setState 0)), .call (.mmc .getState),
    .call (.mmc .getFileSize), .call (.mmc .rm),
    .call (.hobd (.setCommState 1)), .call (.hobd (.setCommState 0)),
    .seq (.call (.hobd .getCommState)) (.call (.hobd .getListenOnly)),
    .seq (.call (.hobd .getListenOnly))
      (.choice (.call (.hobd (.setListenOnly 1))) (.call (.hobd (.setListenOnly 0))))]

/-- `console_exec`. -/
def consoleExec : Skeleton := choices [handleCliCmd, handleCliSubcmd]

end Skeleton

/-- The threads, and who receives what. -/
def systemNet : Net ThreadId Mutex Message where
  start
    | .root => Skeleton.timeServerModuleInit
    | .sys => Skeleton.sysThreadStart
    | .mmc => Skeleton.mmcThreadStart
    | .hobd => Skeleton.obdCommThreadStart
    | .timeServer | .console => .skip
  body
    | .hobd => Skeleton.obdCommThreadLoop
    | .root | .timeServer | .sys | .mmc | .console => .recv true
  handler
    | .fault => Skeleton.mmcLogEntryData false true
    | .timerIrq => .hold .tm Skeleton.tmUpdate
    | .uartIrq => Skeleton.opt Skeleton.consoleExec
    | .timeout => Skeleton.mmcLogEntryData false true
    | .entryLog => Skeleton.writeMmcEntry false
    | .mmc q => Skeleton.mmcRequest q
    | .hobd q => Skeleton.hobdRequest q
  owner
    | .fault => .root
    | .timerIrq => .timeServer
    | .uartIrq => .console
    | .timeout => .sys
    | .entryLog | .mmc _ => .mmc
    | .hobd _ => .hobd
  outside
    | .timerIrq | .uartIrq => true
    | .fault | .timeout | .entryLog | .mmc _ | .hobd _ => false
  fault
    | .fault => true
    | .timerIrq | .uartIrq | .timeout | .entryLog | .mmc _ | .hobd _ => false

/-! ### Rounds -/

/-- The mutex of the time server is taken and given back. -/
def tmActs : List (Act Mutex Message) := [.lock .tm, .unlock .tm]

theorem does_tm (i : ThreadId) : Does systemNet i (.hold .tm .skip) tmActs :=
  does_skip.hold Mutex.tm

/-- The place at the head of a loop that waits for a message. -/
def atRecv : List (Item Mutex Message) := [.run (.recv true)]

/-- A program is done, and the loop begins once more. -/
theorem performs_atRecv {i : ThreadId} {p : Skeleton} {as : List (Act Mutex Message)}
    (hbody : systemNet.body i = .recv true) (h : Does systemNet i p as) :
    Performs systemNet i [.run p] as atRecv := by
  have hagain : Performs systemNet i [] [] [.run (systemNet.body i)] := .tau .again (.nil _)
  rw [hbody] at hagain
  rw [← List.append_nil as]
  exact h.then hagain

/-- A message is received at the head of the loop, and handled. -/
theorem performs_round {i : ThreadId} {msg : Message} {as : List (Act Mutex Message)}
    (howner : systemNet.owner msg = i) (hbody : systemNet.body i = .recv true)
    (h : Does systemNet i (systemNet.handler msg) as) :
    Performs systemNet i atRecv (.got msg :: as) atRecv :=
  .act (.got true msg [] howner) (performs_atRecv hbody h)

/-! ### Ranks -/

/-- Whoever has a mutex waits only for mutexes with a smaller number. -/
def Mutex.rank : Mutex → ℕ
  | .fs => 0
  | .tm => 1
  | .sysReady => 2

/-- Whoever is there to receive waits only for mutexes, and for threads with a smaller number. -/
def ThreadId.rank : ThreadId → ℕ
  | .mmc => 3
  | .hobd => 4
  | .root | .timeServer | .sys | .console => 5

/-- **The threads keep to the ranks.** -/
def systemRanking : Ranking systemNet ℕ where
  lock := Mutex.rank
  thread := ThreadId.rank
  start_ordered i := by cases i <;> rfl
  body_ordered i := by cases i <;> rfl
  handler_ordered m := by
    rcases m with _ | _ | _ | _ | _ | q | q
    case mmc => cases q <;> rfl
    case hobd => cases q <;> rfl
    all_goals rfl

/-- **The threads do not deadlock.** However they have run, whatever interrupts there were and
whichever threads have faulted: a thread waits for a message, or it can go on, or it waits for a
mutex, a receiver or a reply at the beginning of a chain of threads that ends with one that can go
on or has faulted. As long as no thread has faulted, it ends with one that can go on. -/
theorem system_does_not_deadlock {s : State ThreadId Mutex Message} (h : Reachable systemNet s)
    (i : ThreadId) : s.Waiting i ∨ ∃ t, Relation.ReflTransGen (Waits systemNet s) i t ∧
      (CanStep systemNet s t ∨ s.life t ≠ .running) :=
  exists_canStep_of_reachable systemRanking h i

/-- The system thread has its mutex and has faulted, and the HOBD thread has come to wait for the
start. -/
def faultedState : State ThreadId Mutex Message :=
  (((systemNet.init.put .sys
    [.run (.seq Skeleton.timeServerAllocId Skeleton.timeServerRegisterPeriodicCb),
      .release .sysReady]).setHolder .sysReady (some .sys)).put .hobd
    [.run Skeleton.systemModuleWaitForStart, .run Skeleton.timeServerAllocId]).setLife .sys
      .faulting

/-- The HOBD thread waits for the system thread, which does not go on. -/
theorem system_does_not_deadlock_faulted :
    Waits systemNet faultedState .hobd .sys ∧ faultedState.life .sys = .faulting ∧
      (faultedState.Waiting .hobd ∨ ∃ t, Relation.ReflTransGen (Waits systemNet faultedState)
        .hobd t ∧ (CanStep systemNet faultedState t ∨ faultedState.life t ≠ .running)) := by
  have hreach : Reachable systemNet faultedState :=
    .tail (.tail (.tail .refl ⟨some .sys, .lock ⟨rfl, rfl⟩ (.lock ..) rfl⟩)
      ⟨some .hobd, .tau ⟨rfl, rfl⟩ (.seq ..)⟩) ⟨none, .fault ⟨rfl, rfl⟩⟩
  exact ⟨.lock ⟨rfl, rfl⟩ rfl rfl, rfl, system_does_not_deadlock hreach .hobd⟩

end HobdSystem
