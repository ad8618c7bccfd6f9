import HobdSystem.Dump.Reader
import HobdSystem.Mmc.Server

/-!
# Logged entries read back

From a call of `mmc_log_entry_data` to the dump tool: the call packs an entry into a message, the
MMC thread copies the message into its array and appends the entry to the log file, and the tool
reads the file. **The tool reads the entries that were logged** (`HobdSystem.dumpEntries_logged`),
in their order and nothing else, and no array is overrun on the way: neither by the sender nor by
the thread nor by the tool.

Three programs take part in this, and each of them has its own idea of the size of an entry. The
sender checks the size of the whole message against the bound for the data, the thread checks the
size of the data, and the tool checks nothing but has a buffer that is twice as large as an entry
can be. The first check is the strictest, and that is why none of the others ever fails.

Here the calls are handled one at a time: the words the sender writes are the ones the thread
reads (`HobdSystem.logEntry`). With two calls that overlap this need not be so, and
`HobdSystem.Mmc.Overlap` says when it is. And what is read is what was appended, as far as the
library says that it has written it (`HobdSystem.FileIo.appended`); what is on the card after the
file has been flushed, closed or removed is in `HobdSystem.Dump.LogFile`.
-/

namespace HobdSystem

open LittleEndian

variable {H : Type*} [DecidableEq H]

/-! ### What is appended to the log file -/

/-- What a call of the library appends to the log file: a write that succeeds appends its
bytes. -/
def FatCall.appended : FatCall H → List UInt8
  | .fwrite data size count _ ret =>
    if ret = (size * count).toInt32 then data.take (size * count).toNat else []
  | _ => []

/-- What has been appended to the log file so far. -/
def FileIo.appended (io : FileIo H) : List UInt8 := io.calls.flatMap fun c => c.call.appended

/-! ### Logging -/

/-- A call of `mmc_log_entry_data` that the thread handles: the call, and the answers of the
time server and of the library to the thread. -/
structure LogRequest (H : Type*) where
  call : LogCall
  now : UInt64
  r : FatResults H

/-- The call and the round of the thread that handles it. The words the sender writes are
the ones the thread reads. -/
def logEntry (st : Ipc × MmcServer H) (q : LogRequest H) : Option (Ipc × MmcServer H) :=
  match mmcLogEntryData q.call st.1 with
  | none => none
  | some (length, ipc) =>
    (mmcThreadStep ⟨mmcmodBaseBadge, ipcMsgTypeEntryLog, length, ipc⟩ q.now q.r st.2).map
      fun reply => (ipc, reply.2)

/-- A request that is logged: an entry with a type, of a size that the sender's own check
lets through, that the library writes in whole. -/
structure LogRequest.Ok (q : LogRequest H) : Prop where
  type_ne : q.call.type ≠ mmcEntryTypeInvalid
  sizeOk : q.call.SizeOk
  data : q.call.dataSize.toNat ≤ q.call.data.length
  written : q.r.fwrite = (mmcEntryTotalSize q.call.entry).toUInt32.toInt32

/-- The file is initialised, enabled and open: the state in which an entry is written, and which a
write that succeeds does not change. -/
structure Logging (io : FileIo H) : Prop where
  isInit : io.file.isInit = isInitValue
  enabled : io.file.enabled ≠ 0
  ref : io.file.ref.isSome

section Logging

variable {io : FileIo H} {r : FatResults H}

/-- An entry of a file that is open is written in one call. -/
theorem writeMmcEntry_eq (mem : List UInt8) (h : Logging io)
    (hret : r.fwrite = (mmcEntryTotalSize (entryAt mem)).toUInt32.toInt32) :
    writeMmcEntry mem 0 r io = some (io.issue (.fwrite mem 1
      (mmcEntryTotalSize (entryAt mem)).toUInt32 io.file.ref r.fwrite)) := by
  have hcheck : initCheck io.file true = .ok := (initCheck_true_eq_ok h.isInit).mpr fun _ => h.ref
  have hwrite : mmcFileWrite mem 1 (mmcEntryTotalSize (entryAt mem)).toUInt32 r io =
      (.ok, io.issue (.fwrite mem 1 (mmcEntryTotalSize (entryAt mem)).toUInt32 io.file.ref
        r.fwrite)) := by
    rw [mmcFileWrite, if_pos ⟨hcheck, h.enabled⟩, UInt32.one_mul, if_neg (not_not.mpr hret)]
  simp [writeMmcEntry, hwrite]

theorem toNat_mmcEntryTotalSize {e : MmcEntry} (h : e.size.toNat ≤ 456) :
    (mmcEntryTotalSize e).toUInt32.toNat = 12 + e.size.toNat := by
  rw [UInt16.toNat_toUInt32, mmcEntryTotalSize, UInt16.toNat_add]
  change (e.size.toNat + 12) % 2 ^ 16 = _
  omega

/-- A message that holds an entry is logged in one call of the library. -/
theorem entryLog_spec {m : IpcMessage} {s : MmcServer H} {buffer : Vector UInt32 120}
    {rest : List UInt8} {e : MmcEntry} (h : Logging s.io)
    (hrecv : sel4MrRecv m.ipc m.length s.msgRxBuffer = some buffer)
    (hmem : wordsBytes buffer.toList = e.bytes ++ rest) (hlen : e.size.toNat = e.data.length)
    (htype : e.type ≠ mmcEntryTypeInvalid) (hsize : e.size.toNat ≤ 456)
    (hret : r.fwrite = (mmcEntryTotalSize e).toUInt32.toInt32) :
    ∃ s', entryLog m r s = some s' ∧
      s'.io = s.io.issue (.fwrite (e.bytes ++ rest) 1 (mmcEntryTotalSize e).toUInt32
        s.io.file.ref r.fwrite) := by
  have hentry : entryAt (e.bytes ++ rest) = e := entryAt_bytes e rest hlen
  have hshort : ¬e.size.toUInt32 > mmcEntryDataSizeMax := by
    rw [gt_iff_lt, UInt32.not_lt, UInt32.le_iff_toNat_le, UInt16.toNat_toUInt32]
    exact hsize.trans (by decide)
  have hwrite := writeMmcEntry_eq (e.bytes ++ rest) h (by rw [hentry]; exact hret)
  rw [hentry] at hwrite
  simp only [entryLog, hrecv, Option.bind_some, hmem, hentry]
  rw [if_neg htype, if_neg hshort, hwrite]
  exact ⟨_, rfl, countEntry_io _⟩

omit [DecidableEq H] in
/-- A successful write of an entry appends its bytes. -/
theorem appended_issue {e : MmcEntry} {rest : List UInt8} {ref : Option H}
    (hlen : e.size.toNat = e.data.length) (hsize : e.size.toNat ≤ 456) :
    (io.issue (.fwrite (e.bytes ++ rest) 1 (mmcEntryTotalSize e).toUInt32 ref
      (mmcEntryTotalSize e).toUInt32.toInt32)).appended = io.appended ++ e.bytes := by
  have htotal : e.bytes.length = (mmcEntryTotalSize e).toUInt32.toNat := by
    rw [toNat_mmcEntryTotalSize hsize, MmcEntry.bytes, List.length_append, e.length_header, hlen]
  have hcall : (FatCall.fwrite (e.bytes ++ rest) 1 (mmcEntryTotalSize e).toUInt32 ref
      (mmcEntryTotalSize e).toUInt32.toInt32).appended = e.bytes := by
    rw [FatCall.appended, UInt32.one_mul, if_pos rfl, List.take_left' htotal]
  rw [FileIo.appended, issue_calls, List.flatMap_append, List.flatMap_singleton, hcall]
  rfl

/-- **One call**: the thread appends the bytes of the entry, and goes on logging. The message has
come through as it was packed, and so has the size that the thread writes. -/
theorem logEntry_spec (ipc : Ipc) {s : MmcServer H} {q : LogRequest H} (h : Logging s.io)
    (hq : q.Ok) :
    ∃ ipc' s', logEntry (ipc, s) q = some (ipc', s') ∧ Logging s'.io ∧
      s'.io.appended = s.io.appended ++ q.call.entry.bytes := by
  obtain ⟨length, ipc', buffer, rest, hsend, hrecv, hmem⟩ :=
    sel4MrRecv_mmcLogEntryData q.call ipc hq.sizeOk hq.data s.msgRxBuffer
  have hsize : q.call.entry.size.toNat ≤ 456 := (sizeOk_iff q.call).mp hq.sizeOk
  have hlen : q.call.entry.size.toNat = q.call.entry.data.length := q.call.length_entry hq.data
  -- behind the entry the array holds words of earlier messages, which are not written
  obtain ⟨s', hlog, hio⟩ := entryLog_spec
    (m := ⟨mmcmodBaseBadge, ipcMsgTypeEntryLog, length, ipc'⟩) h hrecv hmem hlen hq.type_ne hsize
    hq.written
  refine ⟨ipc', s', ?_, ?_, ?_⟩
  · simp only [logEntry, hsend, mmcThreadStep]
    rw [if_neg (by simp), if_neg (by decide), if_pos trivial, hlog]
    rfl
  · rw [hio]
    exact ⟨h.isInit, h.enabled, h.ref⟩
  · rw [hio, hq.written]
    exact appended_issue hlen hsize

end Logging

/-- **A list of calls**: the thread appends the entries one after the other, by induction over the
calls with the file open throughout. -/
theorem foldlM_logEntry (qs : List (LogRequest H)) : ∀ (ipc : Ipc) {s : MmcServer H},
    Logging s.io → (∀ q ∈ qs, q.Ok) →
      ∃ ipc' s', qs.foldlM logEntry (ipc, s) = some (ipc', s') ∧
        s'.io.appended = s.io.appended ++ qs.flatMap fun q => q.call.entry.bytes := by
  induction qs with
  | nil => exact fun ipc s _ _ => ⟨ipc, s, rfl, by simp⟩
  | cons q qs ih =>
    intro ipc s h hqs
    obtain ⟨ipc₁, s₁, hstep, hlogging, happ⟩ := logEntry_spec ipc h (hqs q List.mem_cons_self)
    obtain ⟨ipc₂, s₂, hrun, happ'⟩ :=
      ih ipc₁ hlogging fun q' hq' => hqs q' (List.mem_cons_of_mem q hq')
    refine ⟨ipc₂, s₂, ?_, ?_⟩
    · rw [List.foldlM_cons, hstep]
      exact hrun
    · rw [happ', happ, List.append_assoc, List.flatMap_cons]

/-- **Logged entries read back.** For every list of calls that the size check of
`mmc_log_entry_data` lets through and whose writes succeed, the thread takes them all, and the
dump tool reads from what is appended to the log file exactly the entries of the calls, and
then the end of the file. -/
theorem dumpEntries_logged (qs : List (LogRequest H)) (hqs : ∀ q ∈ qs, q.Ok) (ipc : Ipc)
    (s : MmcServer H) (hinit : s.io.file.isInit = isInitValue) (hen : s.io.file.enabled ≠ 0)
    (href : s.io.file.ref.isSome) :
    ∃ ipc' s' log, qs.foldlM logEntry (ipc, s) = some (ipc', s') ∧
      s'.io.appended = s.io.appended ++ log ∧
      ∀ entryBuffer, dumpEntries ⟨entryBuffer, ⟨log, false⟩⟩ =
        some (qs.map fun q => q.call.entry) := by
  obtain ⟨ipc', s', hrun, happ⟩ := foldlM_logEntry qs ipc ⟨hinit, hen, href⟩ hqs
  refine ⟨ipc', s', _, hrun, happ, fun entryBuffer => ?_⟩
  refine dumpEntries_bytes _ (fun e he => ?_) (by rw [List.flatMap_map])
  obtain ⟨q, hq, rfl⟩ := List.mem_map.mp he
  have hlen := q.call.length_entry (hqs q hq).data
  have hsize := (sizeOk_iff q.call).mp (hqs q hq).sizeOk
  exact ⟨hlen, hlen ▸ hsize.trans (by omega)⟩

/-- A heartbeat entry with three bytes of data. -/
def heartbeatRequest : LogRequest ℕ := ⟨⟨0x0020, 3, some 7, [1, 2, 3], 0⟩, 0, fatOk 15⟩

theorem dumpEntries_logged_heartbeat :
    ∃ s, mmcThreadStart true (fatOk 0) (fatOk 12) 0 (Vector.replicate 120 0) blankIo = some s ∧
      ∃ ipc' s' log, [heartbeatRequest].foldlM logEntry
          (⟨Vector.replicate 4 0, Vector.replicate 120 0⟩, s) = some (ipc', s') ∧
        s'.io.appended = s.io.appended ++ log ∧
        ∀ entryBuffer, dumpEntries ⟨entryBuffer, ⟨log, false⟩⟩ =
          some [⟨0x0020, 3, 7, [1, 2, 3]⟩] :=
  ⟨_, rfl, dumpEntries_logged [heartbeatRequest]
    (fun q hq => List.mem_singleton.mp hq ▸ ⟨by decide, by decide, by decide, by decide⟩) _ _ rfl
    (by decide) rfl⟩

end HobdSystem
