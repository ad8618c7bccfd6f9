import HobdSystem.Library.Traced
import HobdSystem.Mmc.Server

/-!
# What the MMC thread does, in its order

`HobdSystem.mmcThreadStep` says what a request comes to. To the other threads it also matters in
which order things are done on the way: that the time is asked for before the counters are sent, and
that the work on the file is over when the caller is answered. So here is `mmc_thread_fn` once more,
function by function and in the order of the source, as a program that leaves a trace.

The calls of the FAT library need not be traced again. The functions of `mmc_file.c` have them on
record, each at the place where it is made, and a function that is called by the thread leaves those
it has added to the record (`HobdSystem.onFile`). With each of them goes its number, so that an
assumption about what the library does may be another one for every call.

Without its actions **the traced thread is the one of `HobdSystem.mmcThreadStep`**, with the same
replies (`HobdSystem.result_traceMmcThreadStep`), and its start is the one it was
(`HobdSystem.result_traceMmcThreadStart`). So what is proved of the actions is not proved of another
program.
-/

namespace HobdSystem

open Traced

variable {H : Type}

/-- What the MMC thread does that concerns other threads or the FAT library. -/
inductive MmcAction (H : Type) where
  /-- `fl_attach_media`. -/
  | attachMedia
  /-- A call of the FAT library on the file, and how many there were before it. -/
  | fatCall (c : Issued H) (k : ℕ)
  /-- `time_server_alloc_id`. -/
  | allocId
  /-- `time_server_register_periodic_cb`. -/
  | registerPeriodicCb
  /-- `time_server_get_time`. -/
  | getTime
  /-- `seL4_Recv` has returned, with a label and a first word. -/
  | recv (label word : UInt32)
  /-- `seL4_Reply`. -/
  | reply (m : IpcReply)

/-! ### Functions of the thread -/

/-- A function of `mmc_file.c` is called, and calls the library. -/
def onFile {α : Type} (f : FileIo H → α × FileIo H) (io : FileIo H) :
    Traced (MmcAction H) (α × FileIo H) := do
  emit (((newCalls io (f io).2).zipIdx io.calls.length).map fun x => .fatCall x.1 x.2)
  return f io

/-- A request is answered. -/
def answer (reply : IpcReply) (s : MmcServer H) :
    Traced (MmcAction H) (Option IpcReply × MmcServer H) := do
  emit [.reply reply]
  return (some reply, s)

/-- The request for the counters. -/
def traceStatsReq (now : UInt64) (s : MmcServer H) :
    Traced (MmcAction H) (Option IpcReply × MmcServer H) := do
  emit [.getTime]
  answer (statsReq now s).1 (statsReq now s).2

variable [DecidableEq H]

/-- `write_mmc_entry`. -/
def traceWriteMmcEntry (mem : List UInt8) (hardFlush : UInt32) (r : FatResults H) (io : FileIo H) :
    Traced (MmcAction H) (FileIo H) := do
  let (err, io) ← onFile (mmcFileWrite mem 1 (mmcEntryTotalSize (entryAt mem)).toUInt32 r) io
  require (err = .ok)
  if hardFlush ≠ 0 then
    let (_, io) ← onFile (mmcFileFlush 1 r) io
    return io
  else return io

/-- `hard_flush_timeout_cb`, which runs in the thread of the time server. -/
def traceHardFlushTimeoutCb (r : FatResults H) (s : MmcServer H) :
    Traced (MmcAction H) (MmcServer H) := do
  let (_, io) ← onFile (mmcFileFlush 1 r) s.io
  return { s with io := io }

/-- `mmc_thread_fn` up to its loop. The functions for the mutex are attached behind `fl_init`, so
the first call of the library that can take it is the one that attaches the media. -/
def traceMmcThreadStart (mediaAttached : Bool) (rOpen rMarker : FatResults H) (now : UInt64)
    (msgRxBuffer : Vector UInt32 120) (io : FileIo H) : Traced (MmcAction H) (MmcServer H) := do
  let io := mmcFileInit io
  emit [.attachMedia]
  require mediaAttached
  let (err, io) ← onFile (mmcFileOpen rOpen) io
  require (err = .ok)
  emit [.allocId]
  emit [.registerPeriodicCb]
  emit [.getTime]
  let beginEntryMarker : MmcEntry := ⟨mmcEntryTypeBeginFlag, 0, now, []⟩
  let io ← traceWriteMmcEntry beginEntryMarker.bytes 1 rMarker io
  return countEntry ⟨io, ⟨now, 0⟩, msgRxBuffer⟩

/-- The request to log an entry, which is not answered. -/
def traceEntryLog (m : IpcMessage) (r : FatResults H) (s : MmcServer H) :
    Traced (MmcAction H) (Option IpcReply × MmcServer H) := do
  let msgRxBuffer ← ofOption (sel4MrRecv m.ipc m.length s.msgRxBuffer)
  let mem := wordsBytes msgRxBuffer.toList
  require ((entryAt mem).type ≠ mmcEntryTypeInvalid)
  require ((entryAt mem).size.toUInt32 ≤ mmcEntryDataSizeMax)
  let io ← traceWriteMmcEntry mem 0 r s.io
  return (none, countEntry { s with io := io, msgRxBuffer := msgRxBuffer })

/-- The request to remove the file. -/
def traceRmFileReq (r : FatResults H) (s : MmcServer H) :
    Traced (MmcAction H) (Option IpcReply × MmcServer H) := do
  let (cmdStatus, io) ← onFile (mmcFileRm r) s.io
  answer ⟨ipcMsgTypeRmFileResp, [cmdStatus.toUInt32]⟩
    { s with io := io, stats.entriesLogged := 0 }

/-- The file is disabled if it could not be brought into the state that was asked for. -/
def traceDisable (err : MmcFileErr) (r : FatResults H) (io : FileIo H) :
    Traced (MmcAction H) (FileIo H) :=
  if err ≠ .ok then do
    let (_, io) ← onFile (mmcFileSetEnabled 0 r) io
    return io
  else pure io

/-- The request to set the state. -/
def traceStateSetReq (desiredState : UInt32) (r : FatResults H) (s : MmcServer H) :
    Traced (MmcAction H) (Option IpcReply × MmcServer H) := do
  let (err, io) ← onFile (mmcFileSetEnabled desiredState r) s.io
  let io ← traceDisable err r io
  answer ⟨ipcMsgTypeStateResp, [mmcFileGetEnabled io.file]⟩ { s with io := io }

/-- One round of the loop of `mmc_thread_fn`. -/
def traceMmcThreadStep (m : IpcMessage) (now : UInt64) (r : FatResults H) (s : MmcServer H) :
    Traced (MmcAction H) (Option IpcReply × MmcServer H) := do
  emit [.recv m.label m.ipc.getMR0]
  require (m.badge = mmcmodBaseBadge)
  if m.label = ipcMsgTypeStatsReq then traceStatsReq now s
  else if m.label = ipcMsgTypeEntryLog then traceEntryLog m r s
  else if m.label = ipcMsgTypeFileSizeReq then answer (fileSizeReq r s) s
  else if m.label = ipcMsgTypeRmFileReq then traceRmFileReq r s
  else if m.label = ipcMsgTypeStateReq then answer (stateReq s) s
  else if m.label = ipcMsgTypeStateSetReq then traceStateSetReq m.ipc.getMR0 r s
  else ofOption none

/-! ### They are the functions they were -/

section Result

omit [DecidableEq H] in
theorem result_onFile_bind {α β : Type} (f : FileIo H → α × FileIo H) (io : FileIo H)
    (g : α × FileIo H → Traced (MmcAction H) β) :
    (onFile f io >>= g).result = (g (f io)).result := rfl

variable (r : FatResults H) (s : MmcServer H)

theorem result_traceWriteMmcEntry (mem : List UInt8) (hardFlush : UInt32) (io : FileIo H) :
    (traceWriteMmcEntry mem hardFlush r io).result = writeMmcEntry mem hardFlush r io := by
  rw [traceWriteMmcEntry, result_onFile_bind]
  simp only [result_bind, bind_result_require, decide_eq_true_eq, writeMmcEntry, ite_not]
  split_ifs <;> rfl

theorem result_traceMmcThreadStart (mediaAttached : Bool) (rOpen rMarker : FatResults H)
    (now : UInt64) (msgRxBuffer : Vector UInt32 120) (io : FileIo H) :
    (traceMmcThreadStart mediaAttached rOpen rMarker now msgRxBuffer io).result =
      mmcThreadStart mediaAttached rOpen rMarker now msgRxBuffer io := by
  cases mediaAttached with
  | false => rfl
  | true =>
    rw [traceMmcThreadStart, emit_bind, require_true_bind]
    dsimp only
    rw [result_onFile_bind, result_bind, bind_result_require]
    simp only [emit_bind, result_bind, decide_eq_true_eq, result_traceWriteMmcEntry, mmcThreadStart,
      Bool.true_eq_false, if_false, ite_not, result_pure, Option.map_eq_bind, Function.comp_def]

theorem result_traceEntryLog (m : IpcMessage) :
    (traceEntryLog m r s).result = (entryLog m r s).map fun s => (none, s) := by
  simp only [traceEntryLog, result_bind, bind_result_require, decide_eq_true_eq,
    result_traceWriteMmcEntry, entryLog, Option.map_bind, result_pure, ite_not, gt_iff_lt]
  refine Option.bind_congr fun msgRxBuffer _ => ?_
  dsimp only [Function.comp]
  split_ifs with htype hle hgt hgt
  · rfl
  · exact absurd hgt (UInt32.not_lt.mpr hle)
  · rw [Option.map_map, Option.map_eq_bind]
    rfl
  · rfl
  · exact absurd (UInt32.not_lt.mp hgt) hle

theorem result_traceStateSetReq (desiredState : UInt32) :
    (traceStateSetReq desiredState r s).result =
      some (some (stateSetReq desiredState r s).1, (stateSetReq desiredState r s).2) := by
  rw [traceStateSetReq, result_onFile_bind]
  simp only [stateSetReq, traceDisable]
  split_ifs
  · rfl
  · rfl

/-- **The traced thread is the thread**, with the same replies and the same states. The functions
are written a second time with their actions, and this is what ties them to the first. -/
theorem result_traceMmcThreadStep (m : IpcMessage) (now : UInt64) :
    (traceMmcThreadStep m now r s).result = mmcThreadStep m now r s := by
  rw [traceMmcThreadStep, emit_bind, result_bind, bind_result_require]
  unfold mmcThreadStep
  simp only [decide_eq_true_eq, ite_not]
  split_ifs
  · rfl
  · exact result_traceEntryLog r s m
  · rfl
  · rfl
  · rfl
  · exact result_traceStateSetReq r s _
  · rfl
  · rfl

end Result

end HobdSystem
