import HobdSystem.Library.Run
import HobdSystem.Mmc.Entry
import HobdSystem.Mmc.File

/-!
# The MMC server

The model of `mmc_thread_fn`: the thread initialises and opens the log file, writes a marker to it
and then answers requests, one after the other, while a timer flushes the file in between. A
request is one handler here, and `HobdSystem.mmcThreadStep` picks the handler by the label as the
loop does. Where the thread ends the program – a foreign badge or label, an entry it cannot
accept, a write that fails – there is no next state.

Requests and flushes are events here, and each is one step: this is the thread with the timer kept
apart from it. The two share the file, and what happens if they overlap is the subject of
`HobdSystem.Mmc.Sharing` and of the files behind it.

The loop means to be in one of two states: the file is enabled and open, or it is disabled and
closed (`HobdSystem.Settled`). A state request keeps to that whatever the library answers, since a
change that fails disables the file. **A hard flush and a removal do not**: they close the file
and open it again, and a file that cannot be opened again stays enabled. The next entry then ends
the program. `HobdSystem.enabledMeansOpen_iff` says that this is the only way to lose the
property: a run keeps it exactly if the library opens the file again after the marker and at every
flush and removal of an enabled file.

`HobdSystem.mmcThreadStep_cases` is the form in which the handlers are used elsewhere: a removal
removes the file, a state request sets the state, and every other request leaves the file as it
is.
-/

namespace HobdSystem

open Run

variable {H : Type*} [DecidableEq H]

/-! ### Labels -/

/-- `MMCMOD_BASE_BADGE`, which is the badge of the endpoint. -/
def mmcmodBaseBadge : UInt32 := 0x22

/-- `IPC_MSG_TYPE_ENTRY_LOG`. -/
def ipcMsgTypeEntryLog : UInt32 := ipcMsgTypeId mmcmodBaseBadge 1

/-- `IPC_MSG_TYPE_STATS_REQ`. -/
def ipcMsgTypeStatsReq : UInt32 := ipcMsgTypeId mmcmodBaseBadge 2

/-- `IPC_MSG_TYPE_STATS_RESP`. -/
def ipcMsgTypeStatsResp : UInt32 := ipcMsgTypeId mmcmodBaseBadge 3

/-- `IPC_MSG_TYPE_RM_FILE_REQ`. -/
def ipcMsgTypeRmFileReq : UInt32 := ipcMsgTypeId mmcmodBaseBadge 4

/-- `IPC_MSG_TYPE_RM_FILE_RESP`. -/
def ipcMsgTypeRmFileResp : UInt32 := ipcMsgTypeId mmcmodBaseBadge 5

/-- `IPC_MSG_TYPE_FILE_SIZE_REQ`. -/
def ipcMsgTypeFileSizeReq : UInt32 := ipcMsgTypeId mmcmodBaseBadge 6

/-- `IPC_MSG_TYPE_FILE_SIZE_RESP`. -/
def ipcMsgTypeFileSizeResp : UInt32 := ipcMsgTypeId mmcmodBaseBadge 7

/-- `IPC_MSG_TYPE_STATE_REQ`. -/
def ipcMsgTypeStateReq : UInt32 := ipcMsgTypeId mmcmodBaseBadge 8

/-- `IPC_MSG_TYPE_STATE_SET_REQ`. -/
def ipcMsgTypeStateSetReq : UInt32 := ipcMsgTypeId mmcmodBaseBadge 9

/-- `IPC_MSG_TYPE_STATE_RESP`. -/
def ipcMsgTypeStateResp : UInt32 := ipcMsgTypeId mmcmodBaseBadge 10

/-! ### The thread -/

/-- `mmc_stats_s`. -/
structure MmcStats where
  timestamp : UInt64
  entriesLogged : UInt32
  deriving DecidableEq, Repr

/-- What the thread keeps: the file, the counters and the array it receives entries in. -/
structure MmcServer (H : Type*) where
  io : FileIo H
  stats : MmcStats
  msgRxBuffer : Vector UInt32 120

/-- `write_mmc_entry`, on the entry at the start of some memory. The program ends if the
write fails; the answer of the flush is not looked at. -/
def writeMmcEntry (mem : List UInt8) (hardFlush : UInt32) (r : FatResults H) (io : FileIo H) :
    Option (FileIo H) :=
  let entrySizeBytes := mmcEntryTotalSize (entryAt mem)
  let (err, io) := mmcFileWrite mem 1 entrySizeBytes.toUInt32 r io
  if err ≠ .ok then none
  else if hardFlush ≠ 0 then some (mmcFileFlush 1 r io).2
  else some io

/-- `hard_flush_timeout_cb`. -/
def hardFlushTimeoutCb (r : FatResults H) (s : MmcServer H) : MmcServer H :=
  { s with io := (mmcFileFlush 1 r s.io).2 }

/-- One more entry, if the file is enabled. -/
def countEntry (s : MmcServer H) : MmcServer H :=
  if s.io.file.enabled ≠ 0 then
    { s with stats.entriesLogged := s.stats.entriesLogged + 1 }
  else s

/-- `mmc_thread_fn` up to its loop. The program ends if the media functions cannot be
attached, the file cannot be opened or the marker cannot be written. -/
def mmcThreadStart (mediaAttached : Bool) (rOpen rMarker : FatResults H) (now : UInt64)
    (msgRxBuffer : Vector UInt32 120) (io : FileIo H) : Option (MmcServer H) :=
  if mediaAttached = false then none
  else
    let (err, io) := mmcFileOpen rOpen (mmcFileInit io)
    if err ≠ .ok then none
    else
      let beginEntryMarker : MmcEntry := ⟨mmcEntryTypeBeginFlag, 0, now, []⟩
      (writeMmcEntry beginEntryMarker.bytes 1 rMarker io).map fun io =>
        countEntry ⟨io, ⟨now, 0⟩, msgRxBuffer⟩

/-- The request for the counters. -/
def statsReq (now : UInt64) (s : MmcServer H) : IpcReply × MmcServer H :=
  let s := { s with stats.timestamp := now }
  (⟨ipcMsgTypeStatsResp, [now.toUInt32, (now >>> 32).toUInt32, s.stats.entriesLogged]⟩, s)

/-- The request to log an entry, which is not answered. -/
def entryLog (m : IpcMessage) (r : FatResults H) (s : MmcServer H) : Option (MmcServer H) :=
  (sel4MrRecv m.ipc m.length s.msgRxBuffer).bind fun msgRxBuffer =>
    let mem := wordsBytes msgRxBuffer.toList
    if (entryAt mem).type = mmcEntryTypeInvalid then none
    else if (entryAt mem).size.toUInt32 > mmcEntryDataSizeMax then none
    else (writeMmcEntry mem 0 r s.io).map fun io =>
      countEntry { s with io := io, msgRxBuffer := msgRxBuffer }

/-- The request for the size of the file. -/
def fileSizeReq (r : FatResults H) (s : MmcServer H) : IpcReply :=
  let (cmdStatus, fileSize) := mmcFileSize r s.io.file
  ⟨ipcMsgTypeFileSizeResp, [cmdStatus.toUInt32, fileSize]⟩

/-- The request to remove the file. The counter is cleared before it is known whether the
file goes. -/
def rmFileReq (r : FatResults H) (s : MmcServer H) : IpcReply × MmcServer H :=
  let (cmdStatus, io) := mmcFileRm r s.io
  (⟨ipcMsgTypeRmFileResp, [cmdStatus.toUInt32]⟩,
    { s with io := io, stats.entriesLogged := 0 })

/-- The request for the state. -/
def stateReq (s : MmcServer H) : IpcReply :=
  ⟨ipcMsgTypeStateResp, [mmcFileGetEnabled s.io.file]⟩

/-- The request to set the state. A change that fails disables the file. -/
def stateSetReq (desiredState : UInt32) (r : FatResults H) (s : MmcServer H) :
    IpcReply × MmcServer H :=
  let (err, io) := mmcFileSetEnabled desiredState r s.io
  let io := if err ≠ .ok then (mmcFileSetEnabled 0 r io).2 else io
  (⟨ipcMsgTypeStateResp, [mmcFileGetEnabled io.file]⟩, { s with io := io })

/-- One round of the loop of `mmc_thread_fn`. -/
def mmcThreadStep (m : IpcMessage) (now : UInt64) (r : FatResults H) (s : MmcServer H) :
    Option (Option IpcReply × MmcServer H) :=
  if m.badge ≠ mmcmodBaseBadge then none
  else if m.label = ipcMsgTypeStatsReq then some (some (statsReq now s).1, (statsReq now s).2)
  else if m.label = ipcMsgTypeEntryLog then (entryLog m r s).map fun s => (none, s)
  else if m.label = ipcMsgTypeFileSizeReq then some (some (fileSizeReq r s), s)
  else if m.label = ipcMsgTypeRmFileReq then some (some (rmFileReq r s).1, (rmFileReq r s).2)
  else if m.label = ipcMsgTypeStateReq then some (some (stateReq s), s)
  else if m.label = ipcMsgTypeStateSetReq then
    some (some (stateSetReq m.ipc.getMR0 r s).1, (stateSetReq m.ipc.getMR0 r s).2)
  else none

/-- What happens to the server between two rounds, and in one. Both carry the answers of the
library for the calls that are made in them. -/
inductive MmcEvent (H : Type*) where
  /-- A message is received and answered. -/
  | request (m : IpcMessage) (now : UInt64) (r : FatResults H)
  /-- The timer flushes the file. -/
  | hardFlush (r : FatResults H)

/-- One event. -/
def mmcEvent : MmcEvent H → MmcServer H → Option (MmcServer H)
  | .request m now r, s => (mmcThreadStep m now r s).map Prod.snd
  | .hardFlush r, s => some (hardFlushTimeoutCb r s)

/-! ### Enabled means open -/

/-- **The file is enabled exactly if it is open.** -/
def EnabledMeansOpen (s : MmcServer H) : Prop := s.io.file.enabled ≠ 0 ↔ s.io.file.ref ≠ none

/-- The library opens the file again where the event closes it: at a flush, and at a
removal, of an enabled file. -/
def ReopensOk (s : MmcServer H) : MmcEvent H → Prop
  | .request m _ r => m.label = ipcMsgTypeRmFileReq → s.io.file.enabled ≠ 0 →
      (r.fopen (mmcFclose s.io).handles).isSome
  | .hardFlush r => s.io.file.enabled ≠ 0 → (r.fopen (mmcFclose s.io).handles).isSome

/-- The file is initialised, and enabled exactly if it is open. -/
structure Settled (io : FileIo H) : Prop where
  isInit : io.file.isInit = isInitValue
  enabled_iff : io.file.enabled ≠ 0 ↔ io.file.ref ≠ none

section Settled

variable {io : FileIo H}

omit [DecidableEq H] in
/-- An enabled file that is opened is settled exactly if the library succeeds. -/
theorem settled_mmcFopen_iff (r : FatResults H) (hinit : io.file.isInit = isInitValue)
    (hen : io.file.enabled ≠ 0) :
    Settled (mmcFopen r io).2 ↔ (r.fopen io.handles).isSome := by
  rw [Option.isSome_iff_ne_none]
  exact ⟨fun h => h.enabled_iff.mp hen, fun h => ⟨hinit, iff_of_true hen h⟩⟩

theorem settled_flush_iff (r : FatResults H) (h : Settled io) :
    Settled (mmcFileFlush 1 r io).2 ↔
      (io.file.enabled ≠ 0 → (r.fopen (mmcFclose io).handles).isSome) := by
  rw [mmcFileFlush_snd r h.isInit]
  by_cases hen : io.file.enabled ≠ 0
  · have href := Option.isSome_iff_ne_none.mpr (h.enabled_iff.mp hen)
    rw [if_pos ⟨hen, href⟩, if_pos (by decide),
      settled_mmcFopen_iff r (by simpa using h.isInit) (by simpa using hen)]
    exact ⟨fun hopen _ => hopen, fun hopen => hopen hen⟩
  · rw [if_neg fun hc => hen hc.1]
    exact iff_of_true h fun hc => absurd hc hen

theorem settled_rm_iff (r : FatResults H) (h : Settled io) :
    Settled (mmcFileRm r io).2 ↔
      (io.file.enabled ≠ 0 → (r.fopen (mmcFclose io).handles).isSome) := by
  rw [mmcFileRm_snd r h.isInit]
  by_cases hen : io.file.enabled ≠ 0
  · rw [if_pos hen, settled_mmcFopen_iff r (by simpa using h.isInit) (by simpa using hen)]
    exact ⟨fun hopen _ => hopen, fun hopen => hopen hen⟩
  · rw [if_neg hen]
    exact iff_of_true h fun hc => absurd hc hen

/-- Disabling a file settles it, also one that could not be opened. -/
theorem settled_disable (r : FatResults H) (hinit : io.file.isInit = isInitValue)
    (href : io.file.enabled = 0 → io.file.ref = none) :
    Settled (mmcFileSetEnabled 0 r io).2 := by
  rw [mmcFileSetEnabled_snd r hinit, if_pos rfl]
  split_ifs with hen
  · exact ⟨by simpa using hinit, by simp⟩
  · rw [not_not] at hen
    exact ⟨hinit, by simp [hen, href hen]⟩

/-- **A state request settles the file whatever the library answers**: if it cannot be opened, it
is disabled again. -/
theorem settled_stateSetReq (desiredState : UInt32) (r : FatResults H) {s : MmcServer H}
    (h : Settled s.io) : Settled (stateSetReq desiredState r s).2.io := by
  have hclosed : s.io.file.enabled = 0 → s.io.file.ref = none := fun hen => by
    by_contra hc
    exact h.enabled_iff.mpr hc hen
  by_cases hd : desiredState = 0
  · subst hd
    have hcode : (mmcFileSetEnabled 0 r s.io).1 = .ok := by
      simp only [mmcFileSetEnabled, initCheck_false h.isInit, if_true]
      split_ifs <;> rfl
    simp only [stateSetReq, hcode]
    exact settled_disable r h.isInit hclosed
  · cases hopen : r.fopen s.io.handles with
    | none =>
      -- the file could not be opened: it has no handle, and the handler disables it
      have hcode : mmcFileSetEnabled desiredState r s.io = (.fs, (mmcFopen r s.io).2) := by
        simp [mmcFileSetEnabled, initCheck_false h.isInit, hd, mmcFopen_fst, hopen]
      simp only [stateSetReq, hcode]
      exact settled_disable r (by simpa using h.isInit) fun _ => by rw [mmcFopen_ref, hopen]
    | some ref =>
      have hcode : mmcFileSetEnabled desiredState r s.io =
          (.ok, { (mmcFopen r s.io).2 with file.enabled := 1 }) := by
        simp [mmcFileSetEnabled, initCheck_false h.isInit, hd, mmcFopen_fst, hopen]
      simp only [stateSetReq, hcode]
      exact ⟨h.isInit, by simp [hopen]⟩

omit [DecidableEq H] in
/-- A write leaves the file and the handles as they are. -/
theorem mmcFileWrite_file (data : List UInt8) (size count : UInt32) (r : FatResults H) :
    (mmcFileWrite data size count r io).2.file = io.file ∧
      (mmcFileWrite data size count r io).2.handles = io.handles := by
  by_cases h : initCheck io.file true = .ok ∧ io.file.enabled ≠ 0
  · rw [mmcFileWrite, if_pos h]
    exact ⟨rfl, rfl⟩
  · rw [mmcFileWrite, if_neg h]
    exact ⟨rfl, rfl⟩

omit [DecidableEq H] in
@[simp] theorem countEntry_io (s : MmcServer H) : (countEntry s).io = s.io := by
  unfold countEntry
  split_ifs <;> rfl

theorem writeMmcEntry_file {mem : List UInt8} {r : FatResults H} {io' : FileIo H}
    (h : writeMmcEntry mem 0 r io = some io') : io'.file = io.file := by
  simp only [writeMmcEntry] at h
  split_ifs at h with herr hflush
  · exact absurd rfl hflush
  · rw [← Option.some.inj h]
    exact (mmcFileWrite_file ..).1

theorem entryLog_file {m : IpcMessage} {r : FatResults H} {s s' : MmcServer H}
    (h : entryLog m r s = some s') : s'.io.file = s.io.file := by
  obtain ⟨buffer, -, hlog⟩ := Option.bind_eq_some_iff.mp h
  simp only at hlog
  split_ifs at hlog
  obtain ⟨io', hwrite, rfl⟩ := Option.map_eq_some_iff.mp hlog
  rw [countEntry_io]
  exact writeMmcEntry_file hwrite

omit [DecidableEq H] in
theorem Settled.congr {io' : FileIo H} (h : Settled io) (hfile : io'.file = io.file) :
    Settled io' := ⟨hfile ▸ h.isInit, hfile ▸ h.enabled_iff⟩

/-- **What a request does**: a removal removes the file, and every other request only reads,
logs an entry or sets the state. -/
theorem mmcThreadStep_cases {m : IpcMessage} {now : UInt64} {r : FatResults H}
    {s s' : MmcServer H} {reply : Option IpcReply}
    (h : mmcThreadStep m now r s = some (reply, s')) :
    (m.label = ipcMsgTypeRmFileReq ∧ s' = (rmFileReq r s).2) ∨
      m.label ≠ ipcMsgTypeRmFileReq ∧
        (s' = (statsReq now s).2 ∨ s' = s ∨ entryLog m r s = some s' ∨
          s' = (stateSetReq m.ipc.getMR0 r s).2) := by
  unfold mmcThreadStep at h
  split_ifs at h with hbadge hstats hentry hsize hrm hstate hset
  · obtain ⟨-, rfl⟩ := Prod.mk.inj (Option.some.inj h)
    exact Or.inr ⟨by rw [hstats]; decide, Or.inl rfl⟩
  · obtain ⟨s₁, hlog, heq⟩ := Option.map_eq_some_iff.mp h
    obtain ⟨-, rfl⟩ := Prod.mk.inj heq
    exact Or.inr ⟨by rw [hentry]; decide, Or.inr (Or.inr (Or.inl hlog))⟩
  · obtain ⟨-, rfl⟩ := Prod.mk.inj (Option.some.inj h)
    exact Or.inr ⟨by rw [hsize]; decide, Or.inr (Or.inl rfl)⟩
  · obtain ⟨-, rfl⟩ := Prod.mk.inj (Option.some.inj h)
    exact Or.inl ⟨hrm, rfl⟩
  · obtain ⟨-, rfl⟩ := Prod.mk.inj (Option.some.inj h)
    exact Or.inr ⟨hrm, Or.inr (Or.inl rfl)⟩
  · obtain ⟨-, rfl⟩ := Prod.mk.inj (Option.some.inj h)
    exact Or.inr ⟨hrm, Or.inr (Or.inr (Or.inr rfl))⟩

/-- **What a request does to the file**: a removal removes it, a state request sets the
state, and every other request leaves the file as it is. -/
theorem mmcThreadStep_io {m : IpcMessage} {now : UInt64} {r : FatResults H} {s s' : MmcServer H}
    {reply : Option IpcReply} (h : mmcThreadStep m now r s = some (reply, s')) :
    (m.label = ipcMsgTypeRmFileReq ∧ s'.io = (mmcFileRm r s.io).2) ∨
      m.label ≠ ipcMsgTypeRmFileReq ∧
        (s'.io.file = s.io.file ∨ s' = (stateSetReq m.ipc.getMR0 r s).2) := by
  rcases mmcThreadStep_cases h with ⟨hrm, rfl⟩ | ⟨hrm, rfl | rfl | hlog | rfl⟩
  · exact Or.inl ⟨hrm, rfl⟩
  · exact Or.inr ⟨hrm, Or.inl rfl⟩
  · exact Or.inr ⟨hrm, Or.inl rfl⟩
  · exact Or.inr ⟨hrm, Or.inl (entryLog_file hlog)⟩
  · exact Or.inr ⟨hrm, Or.inr rfl⟩

/-- No event undoes the initialisation. -/
theorem mmcEvent_isInit {s s' : MmcServer H} (e : MmcEvent H)
    (h : s.io.file.isInit = isInitValue) (hs' : s' ∈ mmcEvent e s) :
    s'.io.file.isInit = isInitValue := by
  cases e with
  | hardFlush r =>
    obtain rfl := Option.some.inj hs'
    exact fileOp_isInit (.flush 1 r) h
  | request m now r =>
    obtain ⟨⟨reply, s''⟩, hstep, rfl⟩ := Option.map_eq_some_iff.mp hs'
    rcases mmcThreadStep_io hstep with ⟨-, hio⟩ | ⟨-, hfile | rfl⟩
    · rw [hio]
      exact fileOp_isInit (.rm r) h
    · rw [hfile, h]
    · have hset := fileOp_isInit (.setEnabled m.ipc.getMR0 r) h
      simp only [stateSetReq]
      split_ifs
      · exact fileOp_isInit (.setEnabled 0 r) hset
      · exact hset

/-- **One event**: the file is settled after it exactly if the library opens the file again
where the event closes it. -/
theorem settled_mmcEvent_iff {s s' : MmcServer H} (e : MmcEvent H) (h : Settled s.io)
    (hs' : s' ∈ mmcEvent e s) : Settled s'.io ↔ ReopensOk s e := by
  cases e with
  | hardFlush r =>
    obtain rfl := Option.some.inj hs'
    exact settled_flush_iff r h
  | request m now r =>
    obtain ⟨⟨reply, s''⟩, hstep, rfl⟩ := Option.map_eq_some_iff.mp hs'
    rcases mmcThreadStep_io hstep with ⟨hrm, hio⟩ | ⟨hrm, hfile | rfl⟩
    · rw [hio]
      exact (settled_rm_iff r h).trans ⟨fun hopen _ => hopen, fun hopen => hopen hrm⟩
    · exact iff_of_true (h.congr hfile) fun hc => absurd hc hrm
    · exact iff_of_true (settled_stateSetReq _ r h) fun hc => absurd hc hrm

end Settled

/-- The first state of the loop: the file is settled exactly if the library opens it again
after the marker. -/
theorem settled_mmcThreadStart_iff {mediaAttached : Bool} {rOpen rMarker : FatResults H}
    {now : UInt64} {msgRxBuffer : Vector UInt32 120} {io : FileIo H} {s : MmcServer H}
    (hstart : mmcThreadStart mediaAttached rOpen rMarker now msgRxBuffer io = some s) :
    s.io.file.isInit = isInitValue ∧
      (Settled s.io ↔ (rMarker.fopen io.handles).isSome) := by
  unfold mmcThreadStart at hstart
  split_ifs at hstart with hattach
  have hopen : mmcFileOpen rOpen (mmcFileInit io) = mmcFopen rOpen (mmcFileInit io) := rfl
  simp only [hopen, mmcFopen_fst] at hstart
  cases href : rOpen.fopen (mmcFileInit io).handles with
  | none => simp [href] at hstart
  | some ref =>
    rw [href, if_neg (by simp)] at hstart
    obtain ⟨io', hwrite, rfl⟩ := Option.map_eq_some_iff.mp hstart
    rw [countEntry_io]
    simp only [writeMmcEntry] at hwrite
    split_ifs at hwrite with herr hflush
    · obtain rfl := Option.some.inj hwrite
      have hopened : Settled (mmcFopen rOpen (mmcFileInit io)).2 :=
        (settled_mmcFopen_iff rOpen rfl (by simp [mmcFileInit])).mpr (by rw [href]; rfl)
      -- the marker is written, and then the flush closes the handle it was written to
      generalize hio : mmcFileWrite _ _ _ rMarker (mmcFopen rOpen (mmcFileInit io)).2 = written
      obtain ⟨hfile, hhandles⟩ : written.2.file = (mmcFopen rOpen (mmcFileInit io)).2.file ∧
          written.2.handles = (mmcFopen rOpen (mmcFileInit io)).2.handles :=
        hio ▸ mmcFileWrite_file ..
      have hwritten : Settled written.2 := hopened.congr hfile
      refine ⟨fileOp_isInit (.flush 1 rMarker) hwritten.isInit, ?_⟩
      have hclose : (mmcFclose written.2).handles = io.handles := by
        have hwref : written.2.file.ref = some ref := by rw [hfile, mmcFopen_ref, href]
        rw [mmcFclose_handles_of_ref hwref, hhandles, mmcFopen_handles, href]
        exact List.erase_cons_head ..
      rw [settled_flush_iff rMarker hwritten, hclose, hfile]
      exact ⟨fun hc => hc (by simp [mmcFileInit]), fun hc _ => hc⟩
    · exact absurd (by decide) hflush

/-- The property the loop means to keep: the file is enabled exactly if it is open, so that
no entry is turned down with `MMC_FILE_ERR_NOT_OPEN`. -/
def AcceptsEntries (s : MmcServer H) : Prop :=
  EnabledMeansOpen s ∧
    ∀ data size count r, (mmcFileWrite data size count r s.io).1 ≠ .notOpen

omit [DecidableEq H] in
theorem EnabledMeansOpen.acceptsEntries {s : MmcServer H} (h : EnabledMeansOpen s) :
    AcceptsEntries s := by
  refine ⟨h, fun data size count r hcode => ?_⟩
  by_cases hok : initCheck s.io.file true = .ok ∧ s.io.file.enabled ≠ 0
  · rw [mmcFileWrite, if_pos hok] at hcode
    simp only at hcode
    split_ifs at hcode
  · rw [mmcFileWrite, if_neg hok] at hcode
    simp only [initCheck] at hcode
    split_ifs at hcode with hinit hclosed
    exact h.mp hclosed.2.1 (Option.isNone_iff_eq_none.mp hclosed.2.2)

/-- **Exactly the runs in which enabled means open.** Whenever the loop is about to receive,
from its first round on, the file is enabled exactly if it is open and no entry would be
turned down as `MMC_FILE_ERR_NOT_OPEN`, if and only if the library opens the file again after
the marker and at every flush and removal of an enabled file. -/
theorem enabledMeansOpen_iff (mediaAttached : Bool) (rOpen rMarker : FatResults H) (now : UInt64)
    (msgRxBuffer : Vector UInt32 120) (io : FileIo H) (s : MmcServer H)
    (hstart : mmcThreadStart mediaAttached rOpen rMarker now msgRxBuffer io = some s)
    (es : List (MmcEvent H)) :
    Throughout mmcEvent AcceptsEntries s es ↔
      (rMarker.fopen io.handles).isSome ∧ AlongSome mmcEvent ReopensOk s es := by
  obtain ⟨hinit, hfirst⟩ := settled_mmcThreadStart_iff hstart
  have hrun : Settled s.io →
      (Throughout mmcEvent AcceptsEntries s es ↔ AlongSome mmcEvent ReopensOk s es) := by
    refine fun h => throughout_iff mmcEvent (fun s => Settled s.io)
      (fun s h => EnabledMeansOpen.acceptsEntries h.enabled_iff)
      (fun s e h s' hs' hok => (settled_mmcEvent_iff e h hs').mpr hok)
      (fun s e h s' hs' hacc => (settled_mmcEvent_iff e h hs').mp ⟨?_, hacc.1⟩) es h
    exact mmcEvent_isInit e h.isInit hs'
  constructor
  · -- the first state shows whether the file was opened again after the marker
    intro hall
    have hsettled : Settled s.io := ⟨hinit, (Throughout.first hall).1⟩
    exact ⟨hfirst.mp hsettled, (hrun hsettled).mp hall⟩
  · rintro ⟨hmarker, hall⟩
    exact (hrun (hfirst.mpr hmarker)).mpr hall

/-- The thread with a library that works, through one flush. -/
theorem enabledMeansOpen_iff_flush :
    ∃ s, mmcThreadStart true (fatOk 0) (fatOk 12) 0 (Vector.replicate 120 0) blankIo = some s ∧
      Throughout mmcEvent AcceptsEntries s [.hardFlush (fatOk 0)] :=
  ⟨_, rfl, (enabledMeansOpen_iff true (fatOk 0) (fatOk 12) 0 (Vector.replicate 120 0) blankIo _ rfl
    [.hardFlush (fatOk 0)]).mpr ⟨rfl, fun _ _ => ⟨fun _ => rfl, trivial⟩⟩⟩

/-- The thread with a library that does not open the file again at a flush: the file is
enabled and not open, and an entry is turned down. -/
theorem not_acceptsEntries :
    ∃ s, mmcThreadStart true (fatOk 0) (fatOk 12) 0 (Vector.replicate 120 0) blankIo = some s ∧
      ¬Throughout mmcEvent AcceptsEntries s [.hardFlush fatFail] := by
  refine ⟨_, rfl, fun h => ?_⟩
  have hlast := h.2 _ rfl
  exact absurd rfl (hlast.2 [] 1 12 (fatOk 12))

end HobdSystem
