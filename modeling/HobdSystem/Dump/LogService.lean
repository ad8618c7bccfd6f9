import HobdSystem.Dump.LogFile
import HobdSystem.Dump.Truncated
import HobdSystem.Library.Simulation
import HobdSystem.Mmc.Client

/-!
# What the MMC module is for

The MMC module as a log: other threads reach it through messages, it keeps the log in a file as
bytes, and a timer closes the file and opens it again from time to time. **Whatever the other
threads ask for and whatever the library answers, they are answered as by such a log, and the card
holds the entries it should** (`HobdSystem.mmc_refines_log`), so that the dump tool lists them.

Each request, entry and flush is handled whole here. The timer may come in the middle of a request
in the source, as nothing keeps the two threads apart; what can go wrong then is the subject of the
shared file.

The module is a machine that answers inputs or stops, and the log another one, so what has to be
shown is that a step of the first is matched by the second (`HobdSystem.IsService.step`). The log
has nothing to choose: whether the file could be opened is what the library has answered in the
step at hand, and is part of what the step shows (`HobdSystem.MmcOutput`). A removal sets the
counter to zero also where the log is off or the library does not remove the file, as the source
does.

An entry comes to the log as the words of a message, with those of earlier messages behind it, and
the step that takes one is where the proof has to go through the registers
(`HobdSystem.logEntry_eq`). It is also the only one that can end the program.
-/

namespace HobdSystem

open LittleEndian Simulation

variable {H : Type*} [DecidableEq H]

/-! ### Steps -/

/-- What reaches the module: a request, a call of `mmc_log_entry_data`, or the timer. -/
inductive MmcInput (H : Type*) where
  | request (q : MmcRequest) (now : UInt64) (r : FatResults H)
  | log (q : LogRequest H)
  | hardFlush (r : FatResults H)

/-- What a step shows: what the caller gets, and whether the file could be opened, if the library
was asked to open it. -/
structure MmcOutput where
  answer : Option MmcAnswer
  opened : Option Bool
  deriving DecidableEq, Repr

/-- What a step answers, and what it leaves behind. -/
def mmcAnswer (st : Ipc × MmcServer H) : MmcInput H →
    Option (Option MmcAnswer × Ipc × MmcServer H)
  | .request q now r => (mmcRequest q now r st).map fun x => (some x.1, x.2)
  | .log q => (logEntry st q).map fun st => (none, st)
  | .hardFlush r => some (none, st.1, hardFlushTimeoutCb r st.2)

/-- A step of the module, through its messages. -/
def mmcStep (i : MmcInput H) (st : Ipc × MmcServer H) : Option (MmcOutput × Ipc × MmcServer H) :=
  (mmcAnswer st i).map fun x => (⟨x.1, openedSince st.2.io x.2.2.io⟩, x.2)

/-- **What the log does.** It is known what the library says to each call, so the log has nothing to
choose. -/
def LogService.Does : MmcInput H → MmcOutput → LogService → LogService → Prop
  | .request .getStats now _, o, a, a' => o = ⟨some (.stats ⟨now, a.count⟩), none⟩ ∧ a' = a
  | .request .getState _ _, o, a, a' =>
    o = ⟨some (.state (if a.on then 1 else 0)), none⟩ ∧ a' = a
  | .request (.setState state) _ _, o, a, a' =>
    if state = 0 then o = ⟨some (.state 0), none⟩ ∧ a' = a.switchedOff
    else ∃ opened : Bool, o = ⟨some (.state (if opened then 1 else 0)), some opened⟩ ∧
      a' = a.switchedOn opened
  | .request .getFileSize _ r, o, a, a' =>
    o = ⟨some (if a.on then if a.isOpen then .size 0 r.filelength else .size 3 0 else .size 0 0),
      none⟩ ∧ a' = a
  | .request .rm _ r, o, a, a' =>
    if a.on then ∃ opened : Bool,
      o = ⟨some (.status (if opened && decide (r.remove = 0) then 0 else 2)), some opened⟩ ∧
        a' = a.removed (decide (r.remove = 0)) opened
    else o = ⟨some (.status 0), none⟩ ∧ a' = { a with count := 0 }
  | .log q, o, a, a' => q.call.SizeOk ∧ q.call.type ≠ mmcEntryTypeInvalid ∧ o = ⟨none, none⟩ ∧
    if a.on then a.isOpen ∧ a' = a.logged q.call.entry else a' = a
  | .hardFlush _, o, a, a' =>
    if a.on && a.isOpen then ∃ opened : Bool, o = ⟨none, some opened⟩ ∧
      a' = { a.flushed with isOpen := opened }
    else o = ⟨none, none⟩ ∧ a' = a

/-- The module is such a log, on a card that held some bytes when it was started. -/
structure IsService (start : List UInt8) (s : MmcServer H) (a : LogService) : Prop where
  log : LogOf start s.io a
  count : s.stats.entriesLogged = a.count
  wellFormed : ∀ e ∈ a.all, e.WellFormed

/-! ### Entries -/

/-- The library writes the entry of a request in whole. A write that comes up short ends the
program. -/
def LogRequest.Written (q : LogRequest H) : Prop :=
  q.r.fwrite = (mmcEntryTotalSize q.call.entry).toUInt32.toInt32

/-- The memory a call points to is there. -/
def MmcInput.DataOk : MmcInput H → Prop
  | .log q => q.call.dataSize.toNat ≤ q.call.data.length
  | _ => True

/-- **What ends the program**: an entry that is too long or has no type, or one that the log has to
take and cannot. -/
def LogService.Ends (a : LogService) : MmcInput H → Prop
  | .log q => ¬q.call.SizeOk ∨ q.call.type = mmcEntryTypeInvalid ∨
      a.on = true ∧ (a.isOpen = false ∨ ¬q.Written)
  | _ => False

section Entries

/-- **A call and the round that handles it**: the thread has the entry before it, with words of
earlier messages behind it. -/
theorem logEntry_eq (ipc : Ipc) (s : MmcServer H) {q : LogRequest H} (hok : q.call.SizeOk)
    (hdata : q.call.dataSize.toNat ≤ q.call.data.length) :
    ∃ ipc' buffer rest, logEntry (ipc, s) q =
      if q.call.type = mmcEntryTypeInvalid then none
      else (writeMmcEntry (q.call.entry.bytes ++ rest) 0 q.r s.io).map fun io =>
        (ipc', countEntry { s with io := io, msgRxBuffer := buffer }) := by
  obtain ⟨length, ipc', buffer, rest, hsend, hrecv, hmem⟩ :=
    sel4MrRecv_mmcLogEntryData q.call ipc hok hdata s.msgRxBuffer
  have hentry : entryAt (q.call.entry.bytes ++ rest) = q.call.entry :=
    entryAt_bytes _ rest (q.call.length_entry hdata)
  have hshort : ¬q.call.entry.size.toUInt32 > mmcEntryDataSizeMax := by
    rw [gt_iff_lt, UInt32.not_lt, UInt32.le_iff_toNat_le, UInt16.toNat_toUInt32]
    exact ((sizeOk_iff q.call).mp hok).trans (by decide)
  refine ⟨ipc', buffer, rest, ?_⟩
  simp only [logEntry, hsend, mmcThreadStep]
  rw [if_neg (by simp), if_neg (by decide), if_pos trivial, entryLog]
  simp only [hrecv, Option.bind_some, hmem, hentry]
  have hsame : q.call.entry.type = q.call.type := rfl
  rw [if_neg hshort, hsame]
  by_cases htype : q.call.type = mmcEntryTypeInvalid
  · rw [if_pos htype, if_pos htype]
    rfl
  · rw [if_neg htype, if_neg htype, Option.map_map, Option.map_map]
    rfl

theorem mmcLogEntryData_of_not_sizeOk {c : LogCall} (h : ¬c.SizeOk) (ipc : Ipc) :
    mmcLogEntryData c ipc = none := by
  have htotal := toNat_totalSizeBytes c
  have haligned : c.totalSizeBytes % 4 = 0 := by
    rw [← UInt32.toNat_inj, UInt32.toNat_mod, htotal]
    exact Nat.mul_mod_left _ _
  simp only [mmcLogEntryData, haligned]
  rw [if_neg (by simp), if_pos (UInt32.not_le.mp h)]

end Entries

/-! ### One step -/

section Step

variable {start : List UInt8} {s : MmcServer H} {a : LogService}

omit [DecidableEq H] in
/-- An entry that has been written to a log that is on is counted. -/
theorem countEntry_on {s : MmcServer H} (h : s.io.file.enabled ≠ 0) :
    (countEntry s).stats.entriesLogged = s.stats.entriesLogged + 1 := by
  rw [countEntry, if_pos h]

/-- What a removal is answered with: the file has to be removed and opened again. -/
theorem IsService.perform_rm (h : IsService start s a) (now : UInt64) (r : FatResults H) :
    (MmcRequest.perform .rm now r s).1 = .status (if a.on then
      if (r.fopen (mmcFclose s.io).handles).isSome && decide (r.remove = 0) then 0 else 2
      else 0) := by
  change MmcAnswer.status (mmcFileRm r s.io).1.toUInt32.toInt32 = _
  cases hon : a.on with
  | true =>
    obtain ⟨-, hcode, -⟩ := h.log.rm r hon
    rw [hcode, if_pos rfl]
    split_ifs <;> rfl
  | false =>
    rw [h.log.rm_off r hon]
    rfl

/-- What a change of the state is answered with. -/
theorem IsService.perform_setState (h : IsService start s a) (state : UInt32) (now : UInt64)
    (r : FatResults H) : (MmcRequest.perform (.setState state) now r s).1 =
      .state (if decide (state ≠ 0) && (r.fopen s.io.handles).isSome then 1 else 0) := by
  change MmcAnswer.state (mmcFileGetEnabled (stateSetReq state r s).2.io.file) = _
  by_cases hstate : state = 0
  · subst hstate
    rw [(h.log.stateSetReq_off r).2.getEnabled]
    rfl
  · rw [(h.log.stateSetReq_on r hstate).2.getEnabled, decide_eq_true hstate, Bool.true_and]
    rfl

/-- What a request for the size is answered with. -/
theorem IsService.perform_getFileSize (h : IsService start s a) (now : UInt64)
    (r : FatResults H) : (MmcRequest.perform .getFileSize now r s).1 =
      if a.on then if a.isOpen then .size 0 r.filelength else .size 3 0 else .size 0 0 := by
  simp only [MmcRequest.perform, h.log.size r]
  cases a.on <;> cases a.isOpen <;> rfl

/-- A request is answered as by the log. -/
theorem IsService.request (h : IsService start s a) (q : MmcRequest) (now : UInt64)
    (r : FatResults H) :
    ∃ a', LogService.Does (.request q now r)
        ⟨some (q.perform now r s).1, openedSince s.io (q.perform now r s).2.io⟩ a a' ∧
      IsService start (q.perform now r s).2 a' := by
  have hsame : openedSince s.io s.io = none := openedSince_of_calls_eq rfl
  cases q with
  | getStats =>
    refine ⟨a, ⟨?_, rfl⟩, h.log, h.count, h.wellFormed⟩
    rw [← h.count]
    exact congrArg (MmcOutput.mk _) hsame
  | getState =>
    refine ⟨a, ⟨?_, rfl⟩, h⟩
    rw [← h.log.getEnabled]
    exact congrArg (MmcOutput.mk _) hsame
  | getFileSize =>
    refine ⟨a, ⟨?_, rfl⟩, h⟩
    rw [h.perform_getFileSize]
    exact congrArg (MmcOutput.mk _) hsame
  | setState state =>
    rw [h.perform_setState]
    by_cases hstate : state = 0
    · subst hstate
      obtain ⟨hopens, hlog⟩ := h.log.stateSetReq_off r
      refine ⟨a.switchedOff, ?_, hlog, h.count, fun e he => h.wellFormed e (a.all_switchedOff he)⟩
      exact ⟨congrArg (MmcOutput.mk _) hopens, rfl⟩
    · obtain ⟨hopens, hlog⟩ := h.log.stateSetReq_on r hstate
      refine ⟨_, ?_, hlog, h.count, fun e he => h.wellFormed e (a.all_switchedOn _ he)⟩
      rw [decide_eq_true hstate, Bool.true_and, LogService.Does, if_neg hstate]
      exact ⟨_, congrArg (MmcOutput.mk _) hopens, rfl⟩
  | rm =>
    cases hon : a.on with
    | true =>
      obtain ⟨hopens, hcode, hlog⟩ := h.log.rm r hon
      refine ⟨_, ?_, hlog, rfl, fun e he => h.wellFormed e (a.all_removed _ _ he)⟩
      rw [h.perform_rm, if_pos hon, LogService.Does, if_pos hon]
      exact ⟨_, congrArg (MmcOutput.mk _) hopens, rfl⟩
    | false =>
      have hrm := h.log.rm_off r hon
      refine ⟨{ a with count := 0 }, ?_, ?_, rfl, h.wellFormed⟩
      · rw [MmcRequest.perform, hrm, LogService.Does, hon, if_neg (by decide)]
        exact ⟨congrArg (MmcOutput.mk _) hsame, rfl⟩
      · rw [MmcRequest.perform, hrm]
        exact ⟨h.log.isInit, h.log.enabled_eq, h.log.ref_eq, h.log.off_closed, h.log.card_eq,
          h.log.pending_eq, h.log.closed_empty⟩

/-- **A call of `mmc_log_entry_data`**: the log takes the entry, passes it over because it is off,
or cannot take it; then, and only then, the program has ended. -/
theorem IsService.logEntry (h : IsService start s a) (ipc : Ipc) (q : LogRequest H)
    (hdata : q.call.dataSize.toNat ≤ q.call.data.length) :
    (logEntry (ipc, s) q = none ∧ a.Ends (.log q)) ∨
      ∃ ipc' s' a', logEntry (ipc, s) q = some (ipc', s') ∧ ¬a.Ends (.log q) ∧
        LogService.Does (.log q) ⟨none, openedSince s.io s'.io⟩ a a' ∧ IsService start s' a' := by
  by_cases hok : q.call.SizeOk
  swap
  · refine Or.inl ⟨?_, Or.inl hok⟩
    rw [HobdSystem.logEntry, mmcLogEntryData_of_not_sizeOk hok]
  obtain ⟨ipc', buffer, rest, heq⟩ := logEntry_eq ipc s hok hdata
  rw [heq]
  by_cases htype : q.call.type = mmcEntryTypeInvalid
  · exact Or.inl ⟨if_pos htype, Or.inr (Or.inl htype)⟩
  rw [if_neg htype]
  have hends : a.Ends (.log q) ↔ a.on = true ∧ (a.isOpen = false ∨ ¬q.Written) := by
    simp [LogService.Ends, hok, htype]
  rw [hends]
  have hdoes : ∀ {io : FileIo H} {a' : LogService}, openedSince s.io io = none →
      (if a.on then a.isOpen ∧ a' = a.logged q.call.entry else a' = a) →
      LogService.Does (.log q) ⟨none, openedSince s.io io⟩ a a' := fun hopens hafter =>
    ⟨hok, htype, congrArg (MmcOutput.mk none) hopens, hafter⟩
  cases hon : a.on with
  | false =>
    rw [h.log.write_off hon]
    have hcount : countEntry { s with msgRxBuffer := buffer } = { s with msgRxBuffer := buffer } :=
      if_neg fun hc => absurd (hon.symm.trans (h.log.enabled_iff.mp hc)) (by decide)
    refine Or.inr ⟨ipc', _, a, rfl, by simp, ?_, ?_⟩
    · rw [hcount]
      exact hdoes (openedSince_of_calls_eq rfl) (by simp [hon])
    · rw [hcount]
      exact ⟨h.log, h.count, h.wellFormed⟩
  | true =>
    cases hopen : a.isOpen with
    | false =>
      rw [h.log.write_closed hon hopen]
      exact Or.inl ⟨rfl, rfl, Or.inl rfl⟩
    | true =>
      have hlen := q.call.length_entry hdata
      have hsize : q.call.entry.size.toNat ≤ 456 := (sizeOk_iff q.call).mp hok
      rw [h.log.write_open hon hopen, entryAt_bytes _ rest hlen]
      by_cases hw : q.Written
      · have hw' : q.r.fwrite = (mmcEntryTotalSize q.call.entry).toUInt32.toInt32 := hw
        rw [if_pos hw']
        refine Or.inr ⟨ipc', _, a.logged q.call.entry, rfl, by simp [hw], ?_, ?_, ?_, ?_⟩
        · rw [countEntry_io]
          exact hdoes (openedSince_of_calls (issue_calls _ _)) (by simp [hon, hopen])
        · rw [countEntry_io, hw']
          exact h.log.append hopen hlen hsize rest
        · rw [countEntry_on (s := { s with io := _, msgRxBuffer := buffer })
            (by exact h.log.enabled_iff.mpr hon), LogService.logged, ← h.count]
        · intro e he
          rw [LogService.all, LogService.logged, ← List.append_assoc] at he
          rcases List.mem_append.mp he with he | he
          · exact h.wellFormed e he
          · rw [List.mem_singleton.mp he]
            exact ⟨hlen, hlen ▸ hsize.trans (by decide)⟩
      · have hw' : ¬q.r.fwrite = (mmcEntryTotalSize q.call.entry).toUInt32.toInt32 := hw
        rw [if_neg hw']
        exact Or.inl ⟨rfl, rfl, Or.inr hw⟩

/-- **One step**: the module does what the log does, with the same answer, and is that log again
afterwards. -/
theorem IsService.step (h : IsService start s a) (ipc : Ipc) (i : MmcInput H) (hi : i.DataOk)
    {o : MmcOutput} {st' : Ipc × MmcServer H} (hstep : mmcStep i (ipc, s) = some (o, st')) :
    ∃ a', LogService.Does i o a a' ∧ IsService start st'.2 a' := by
  obtain ⟨⟨answer, st⟩, hnext, heq⟩ := Option.map_eq_some_iff.mp hstep
  obtain ⟨rfl, rfl⟩ := Prod.mk.inj heq
  cases i with
  | request q now r =>
    obtain ⟨ipc', hrequest⟩ := mmcRequest_eq now r ipc s q
    rw [mmcAnswer, hrequest, Option.map_some] at hnext
    obtain ⟨rfl, rfl⟩ := Prod.mk.inj (Option.some.inj hnext)
    exact h.request q now r
  | log q =>
    obtain ⟨st₁, hlog, heq⟩ := Option.map_eq_some_iff.mp hnext
    obtain ⟨rfl, rfl⟩ := Prod.mk.inj heq
    rcases h.logEntry ipc q hi with ⟨hnone, -⟩ | ⟨ipc', s', a', hsome, -, hdoes, hs'⟩
    · rw [hnone] at hlog
      simp at hlog
    · obtain rfl := Option.some.inj (hsome.symm.trans hlog)
      exact ⟨a', hdoes, hs'⟩
  | hardFlush r =>
    obtain ⟨rfl, rfl⟩ := Prod.mk.inj (Option.some.inj hnext)
    have hflush := h.log.flush r
    have hio : (hardFlushTimeoutCb r s).io = (mmcFileFlush 1 r s.io).2 := rfl
    simp only [LogService.Does, hio]
    split_ifs at hflush ⊢ with hboth
    · obtain ⟨opened, hopens, hlog⟩ := hflush
      exact ⟨_, ⟨opened, congrArg (MmcOutput.mk none) hopens, rfl⟩, hlog, h.count,
        fun e he => h.wellFormed e (a.all_flushed he)⟩
    · refine ⟨a, ⟨?_, rfl⟩, ?_, h.count, h.wellFormed⟩
      · rw [hflush]
        exact congrArg (MmcOutput.mk none) (openedSince_of_calls_eq rfl)
      · rw [hio, hflush]
        exact h.log

/-- A flush brings what is pending to the card, and a log that is off or not open has nothing
pending. -/
theorem IsService.hardFlush (h : IsService start s a) (r : FatResults H) :
    ∃ a', IsService start (hardFlushTimeoutCb r s) a' ∧ a'.onCard = a.flushed.onCard := by
  have hstep : mmcStep (.hardFlush r) ((⟨Vector.replicate 4 0, Vector.replicate 120 0⟩ : Ipc), s) =
      some (_, _, hardFlushTimeoutCb r s) := rfl
  obtain ⟨a', hdoes, ha'⟩ := h.step _ (.hardFlush r) trivial hstep
  refine ⟨a', ha', ?_⟩
  simp only [LogService.Does] at hdoes
  split_ifs at hdoes with hboth
  · obtain ⟨opened, -, rfl⟩ := hdoes
    rfl
  · obtain ⟨-, rfl⟩ := hdoes
    have hclosed : a'.isOpen = false := by
      cases hopen : a'.isOpen with
      | false => rfl
      | true =>
        have hoff : a'.on = false := by simpa [hopen] using hboth
        exact absurd (hopen.symm.trans (h.log.off_closed hoff)) (by decide)
    rw [LogService.flushed_of_pending (h.log.closed_empty hclosed)]

end Step

/-! ### Runs -/

/-- The marker the thread starts with. -/
def beginMarker (now : UInt64) : MmcEntry := ⟨mmcEntryTypeBeginFlag, 0, now, []⟩

theorem beginMarker_wellFormed (now : UInt64) : (beginMarker now).WellFormed :=
  ⟨rfl, Nat.zero_le _⟩

/-- The log the thread starts with: it is on, with the marker on the card behind what was there, and
open if the file could be opened again after the marker was written. -/
def LogService.started (earlier : List MmcEntry) (now : UInt64) (s : MmcServer H) : LogService :=
  ⟨true, s.io.file.ref.isSome, some (earlier ++ [beginMarker now]), [], 1⟩

/-- The module after its start, on a card that holds the entries of earlier ones. -/
theorem isService_mmcThreadStart {mediaAttached : Bool} {rOpen rMarker : FatResults H}
    {now : UInt64} {msgRxBuffer : Vector UInt32 120} {io : FileIo H} {s : MmcServer H}
    (hstart : mmcThreadStart mediaAttached rOpen rMarker now msgRxBuffer io = some s)
    {earlier : List MmcEntry} (hearlier : ∀ e ∈ earlier, e.WellFormed) (hcalls : io.calls = []) :
    IsService (earlier.flatMap MmcEntry.bytes) s (.started earlier now s) := by
  unfold mmcThreadStart at hstart
  split_ifs at hstart with hattach
  have hopen : mmcFileOpen rOpen (mmcFileInit io) = mmcFopen rOpen (mmcFileInit io) := rfl
  have hcard : (mmcFileInit io).card (earlier.flatMap MmcEntry.bytes) =
      ⟨some (earlier.flatMap MmcEntry.bytes), fun _ => []⟩ := by
    rw [FileIo.card, mmcFileInit, hcalls]
    rfl
  have hinit : LogOf (earlier.flatMap MmcEntry.bytes) (mmcFileInit io)
      ⟨true, false, some earlier, [], 0⟩ :=
    ⟨rfl, rfl, rfl, fun _ => rfl, by rw [hcard]; rfl, fun _ _ => by rw [hcard]; rfl, fun _ => rfl⟩
  have hopened := hinit.mmcFopen rOpen rfl
  simp only [hopen, mmcFopen_fst] at hstart
  cases href : rOpen.fopen (mmcFileInit io).handles with
  | none => simp [href] at hstart
  | some ref =>
    rw [href] at hopened
    rw [href, if_neg (by simp)] at hstart
    obtain ⟨io', hwrite, rfl⟩ := Option.map_eq_some_iff.mp hstart
    have hentry : entryAt (beginMarker now).bytes = beginMarker now := by
      simpa using entryAt_bytes (beginMarker now) [] rfl
    change writeMmcEntry (beginMarker now).bytes 1 rMarker _ = some io' at hwrite
    rw [writeMmcEntry_one, hopened.write_open rfl rfl, hentry] at hwrite
    obtain ⟨io₁, hio₁, rfl⟩ := Option.map_eq_some_iff.mp hwrite
    split_ifs at hio₁ with hret
    obtain rfl := Option.some.inj hio₁
    have hmarker := hopened.append rfl (beginMarker_wellFormed now).size_eq (Nat.zero_le _) []
    rw [List.append_nil, ← hret] at hmarker
    obtain ⟨opened, -, hflushed⟩ := (if_pos rfl).mp (hmarker.flush rMarker)
    refine ⟨?_, ?_, ?_⟩
    · rw [LogService.started, countEntry_io, hflushed.ref_eq]
      exact ⟨hflushed.isInit, hflushed.enabled_eq, hflushed.ref_eq, hflushed.off_closed,
        hflushed.card_eq, hflushed.pending_eq, fun _ => rfl⟩
    · exact countEntry_on (hflushed.enabled_iff.mpr rfl)
    · intro e he
      rw [LogService.all, LogService.started, List.append_nil] at he
      rcases List.mem_append.mp he with he | he
      · exact hearlier e he
      · exact List.mem_singleton.mp he ▸ beginMarker_wellFormed now

end HobdSystem
