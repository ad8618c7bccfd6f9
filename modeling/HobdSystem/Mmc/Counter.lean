import HobdSystem.Mmc.Server

/-!
# The counter of logged entries

The MMC thread counts the entries it logs beside the file, and answers a stats request with the
count. What the count should be can be read off the calls of the FAT library: the writes that
succeeded since the file was last removed (`HobdSystem.entriesSince`). The thread keeps to it
through every request but one. **A removal clears the counter whether or not the file goes**: a
disabled file is not removed at all, and the library may fail. Up to there and from there on,
`HobdSystem.counterTrue_iff` says exactly in which runs the counter tells the truth.

There are two counts to compare here, and they are kept by different means: one is a variable of
the thread that is added to when a request has been dealt with, the other is a fold over a record
of calls that the thread does not know of. For each operation of `mmc_file.c` there is a lemma
that says what it does to the second. A hard flush closes the file and opens it again and leaves
the count alone; a write counts if the library says that it wrote all of the entry; and a write
that the library did not do in full ends the program, so the thread cannot get ahead of the file
there.

The counter has 32 bits and the number of entries has no bound, so the truth is one modulo `2 ^
32`. This is also what makes the condition on a removal exact: one that fails does no harm if
there is nothing to count, and a number of entries that is a multiple of `2 ^ 32` is nothing to
count.
-/

namespace HobdSystem

open Run

variable {H : Type*} [DecidableEq H]

/-- What a call of the library does to the number of entries in the file: a write that succeeds
is an entry more, and a removal that succeeds leaves none. -/
def FatCall.count : FatCall H → ℕ → ℕ
  | .fwrite _ size count _ ret, n => if ret = (size * count).toInt32 then n + 1 else n
  | .remove status, n => if status = 0 then 0 else n
  | _, n => n

/-- The entries that have been appended to the log file since it was last removed. -/
def entriesSince (calls : List (Issued H)) : ℕ := calls.foldl (fun n c => c.call.count n) 0

/-- **The counter tells the truth**: what a stats request would be answered with is the number
of entries, modulo `2 ^ 32`. -/
def CounterTrue (s : MmcServer H) : Prop :=
  ∀ now, (statsReq now s).1.words[2]? = some (UInt32.ofNat (entriesSince s.io.calls))

/-- A removal that removes the file, or comes when there is nothing to count. The thread sets its
counter to zero in any case. -/
def RemovesOk (s : MmcServer H) : MmcEvent H → Prop
  | .request m _ r => m.label = ipcMsgTypeRmFileReq →
      s.io.file.enabled ≠ 0 ∧ r.remove = 0 ∨ entriesSince s.io.calls % 2 ^ 32 = 0
  | .hardFlush _ => True

section Calls

variable {io : FileIo H}

omit [DecidableEq H] in
theorem entriesSince_append (calls calls' : List (Issued H)) :
    entriesSince (calls ++ calls') =
      calls'.foldl (fun n c => c.call.count n) (entriesSince calls) :=
  List.foldl_append

omit [DecidableEq H] in
theorem entriesSince_concat (calls : List (Issued H)) (c : Issued H) :
    entriesSince (calls ++ [c]) = c.call.count (entriesSince calls) :=
  entriesSince_append calls [c]

omit [DecidableEq H] in
theorem entriesSince_mmcFopen (r : FatResults H) (io : FileIo H) :
    entriesSince (mmcFopen r io).2.calls = entriesSince io.calls := by
  rw [mmcFopen_calls, entriesSince_concat]
  rfl

theorem entriesSince_mmcFclose (io : FileIo H) :
    entriesSince (mmcFclose io).calls = entriesSince io.calls := by
  rw [mmcFclose_calls, entriesSince_append]
  cases io.file.ref <;> rfl

/-- A flush neither adds nor removes an entry. -/
theorem entriesSince_flush (hardFlush : UInt32) (r : FatResults H)
    (h : io.file.isInit = isInitValue) :
    entriesSince (mmcFileFlush hardFlush r io).2.calls = entriesSince io.calls := by
  rw [mmcFileFlush_snd r h]
  split_ifs
  · rw [entriesSince_mmcFopen, entriesSince_mmcFclose]
  · rw [issue_calls, entriesSince_concat]
    rfl
  · rfl

theorem entriesSince_setEnabled (enabled : UInt32) (r : FatResults H)
    (h : io.file.isInit = isInitValue) :
    entriesSince (mmcFileSetEnabled enabled r io).2.calls = entriesSince io.calls := by
  rw [mmcFileSetEnabled_snd r h]
  split_ifs
  · exact entriesSince_mmcFclose _
  · rfl
  · exact entriesSince_mmcFopen r io
  · exact entriesSince_mmcFopen r io

/-- **A removal** leaves no entry if the file is enabled and the library succeeds, and all of
them otherwise. -/
theorem entriesSince_rm (r : FatResults H) (h : io.file.isInit = isInitValue) :
    entriesSince (mmcFileRm r io).2.calls =
      if io.file.enabled ≠ 0 ∧ r.remove = 0 then 0 else entriesSince io.calls := by
  rw [mmcFileRm_snd r h]
  by_cases hen : io.file.enabled ≠ 0
  · rw [if_pos hen, entriesSince_mmcFopen, issue_calls, entriesSince_concat,
      entriesSince_mmcFclose]
    simp [FatCall.count, hen]
  · rw [if_neg hen, if_neg fun hc => hen hc.1]

omit [DecidableEq H] in
/-- A write that is reported as a success is an entry more exactly if the file is enabled. -/
theorem entriesSince_mmcFileWrite {data : List UInt8} {size count : UInt32} {r : FatResults H}
    (hok : (mmcFileWrite data size count r io).1 = .ok) :
    entriesSince (mmcFileWrite data size count r io).2.calls =
      entriesSince io.calls + if io.file.enabled ≠ 0 then 1 else 0 := by
  by_cases hen : io.file.enabled ≠ 0
  · by_cases hcheck : initCheck io.file true = .ok
    · rw [mmcFileWrite, if_pos ⟨hcheck, hen⟩] at hok ⊢
      simp only at hok
      split_ifs at hok with hret
      rw [issue_calls, entriesSince_concat, if_pos hen, FatCall.count, if_pos (not_not.mp hret)]
    · rw [mmcFileWrite, if_neg fun hc => hcheck hc.1] at hok
      exact absurd hok hcheck
  · rw [mmcFileWrite, if_neg fun hc => hen hc.2, if_neg hen]
    rfl

/-- **A write that does not end the program** is an entry more exactly if the file is
enabled. -/
theorem entriesSince_writeMmcEntry {mem : List UInt8} {hardFlush : UInt32} {r : FatResults H}
    {io' : FileIo H} (h : io.file.isInit = isInitValue)
    (hwrite : writeMmcEntry mem hardFlush r io = some io') :
    io'.file.enabled = io.file.enabled ∧
      entriesSince io'.calls = entriesSince io.calls + if io.file.enabled ≠ 0 then 1 else 0 := by
  simp only [writeMmcEntry] at hwrite
  generalize hio : mmcFileWrite mem 1 _ r io = written at hwrite
  obtain ⟨hfile, -⟩ : written.2.file = io.file ∧ written.2.handles = io.handles :=
    hio ▸ mmcFileWrite_file ..
  split_ifs at hwrite with herr hflush
  all_goals
    obtain rfl := Option.some.inj hwrite
    have hcount : entriesSince written.2.calls =
        entriesSince io.calls + if io.file.enabled ≠ 0 then 1 else 0 := by
      rw [← hio]
      exact entriesSince_mmcFileWrite (by rw [hio]; exact not_not.mp herr)
  · refine ⟨?_, (entriesSince_flush 1 r (hfile ▸ h)).trans hcount⟩
    rw [mmcFileFlush_snd r (hfile ▸ h), ← hfile]
    split_ifs <;> simp
  · exact ⟨by rw [hfile], hcount⟩

end Calls

/-! ### One request -/

section Requests

variable {s s' : MmcServer H}

omit [DecidableEq H] in
/-- The counter is what the reply has in its third word. -/
theorem counterTrue_iff_entriesLogged :
    CounterTrue s ↔ s.stats.entriesLogged = UInt32.ofNat (entriesSince s.io.calls) :=
  ⟨fun h => Option.some.inj (h 0), fun h _ => congrArg some h⟩

omit [DecidableEq H] in
/-- The thread counts an entry as the file does. -/
theorem CounterTrue.countEntry {io : FileIo H} {buffer : Vector UInt32 120} {n : ℕ}
    (h : s.stats.entriesLogged = UInt32.ofNat n)
    (hcount : entriesSince io.calls = n + if io.file.enabled ≠ 0 then 1 else 0) :
    CounterTrue (countEntry { s with io := io, msgRxBuffer := buffer }) := by
  rw [counterTrue_iff_entriesLogged, HobdSystem.countEntry]
  by_cases hen : io.file.enabled ≠ 0
  · rw [if_pos hen] at hcount
    rw [if_pos hen]
    change s.stats.entriesLogged + 1 = UInt32.ofNat (entriesSince io.calls)
    rw [hcount, h, UInt32.ofNat_add]
    rfl
  · rw [if_neg hen] at hcount
    rw [if_neg hen]
    change s.stats.entriesLogged = UInt32.ofNat (entriesSince io.calls)
    rw [hcount, h, Nat.add_zero]

theorem CounterTrue.entryLog {m : IpcMessage} {r : FatResults H} (h : CounterTrue s)
    (hinit : s.io.file.isInit = isInitValue) (hlog : entryLog m r s = some s') :
    CounterTrue s' := by
  obtain ⟨buffer, -, hlog⟩ := Option.bind_eq_some_iff.mp hlog
  simp only at hlog
  split_ifs at hlog
  obtain ⟨io', hwrite, rfl⟩ := Option.map_eq_some_iff.mp hlog
  obtain ⟨hen, hcount⟩ := entriesSince_writeMmcEntry hinit hwrite
  exact CounterTrue.countEntry (counterTrue_iff_entriesLogged.mp h) (by rw [hcount, hen])

theorem CounterTrue.stateSetReq {desiredState : UInt32} {r : FatResults H} (h : CounterTrue s)
    (hinit : s.io.file.isInit = isInitValue) :
    CounterTrue (stateSetReq desiredState r s).2 := by
  rw [counterTrue_iff_entriesLogged] at h ⊢
  simp only [HobdSystem.stateSetReq]
  split_ifs
  · -- the file is disabled where it could not be opened
    have hinit' : (mmcFileSetEnabled desiredState r s.io).2.file.isInit = isInitValue :=
      fileOp_isInit (.setEnabled desiredState r) hinit
    rw [entriesSince_setEnabled _ _ hinit', entriesSince_setEnabled _ _ hinit, h]
  · rw [entriesSince_setEnabled _ _ hinit, h]

/-- **A removal**: the counter is right behind it exactly if the file is gone or nothing was to
be counted. -/
theorem counterTrue_rmFileReq_iff (r : FatResults H) (hinit : s.io.file.isInit = isInitValue) :
    CounterTrue (rmFileReq r s).2 ↔
      s.io.file.enabled ≠ 0 ∧ r.remove = 0 ∨ entriesSince s.io.calls % 2 ^ 32 = 0 := by
  rw [counterTrue_iff_entriesLogged]
  change 0 = UInt32.ofNat (entriesSince (mmcFileRm r s.io).2.calls) ↔ _
  rw [entriesSince_rm r hinit, ← UInt32.toNat_inj, UInt32.toNat_ofNat', UInt32.toNat_zero]
  split_ifs with hgone
  · exact iff_of_true rfl (Or.inl hgone)
  · rw [or_iff_right hgone]
    exact eq_comm

/-- **One event**: the counter is right behind it exactly if a removal removes the file. All other
events keep it right. -/
theorem counterTrue_mmcEvent_iff (e : MmcEvent H) (h : CounterTrue s)
    (hinit : s.io.file.isInit = isInitValue) (hs' : s' ∈ mmcEvent e s) :
    CounterTrue s' ↔ RemovesOk s e := by
  cases e with
  | hardFlush r =>
    obtain rfl := Option.some.inj hs'
    refine iff_of_true ?_ trivial
    rw [counterTrue_iff_entriesLogged] at h ⊢
    change s.stats.entriesLogged = UInt32.ofNat (entriesSince (mmcFileFlush 1 r s.io).2.calls)
    rw [entriesSince_flush 1 r hinit, h]
  | request m now r =>
    obtain ⟨⟨reply, s''⟩, hstep, rfl⟩ := Option.map_eq_some_iff.mp hs'
    rcases mmcThreadStep_cases hstep with ⟨hrm, rfl⟩ | ⟨hrm, rfl | rfl | hlog | rfl⟩
    · exact (counterTrue_rmFileReq_iff r hinit).trans ⟨fun hok _ => hok, fun hok => hok hrm⟩
    · exact iff_of_true h fun hc => absurd hc hrm
    · exact iff_of_true h fun hc => absurd hc hrm
    · exact iff_of_true (h.entryLog hinit hlog) fun hc => absurd hc hrm
    · exact iff_of_true (h.stateSetReq hinit) fun hc => absurd hc hrm

end Requests

/-- **The marker is the first entry**, and the thread counts it. -/
theorem counterTrue_mmcThreadStart {mediaAttached : Bool} {rOpen rMarker : FatResults H}
    {now : UInt64} {msgRxBuffer : Vector UInt32 120} {io : FileIo H} {s : MmcServer H}
    (hcalls : io.calls = [])
    (hstart : mmcThreadStart mediaAttached rOpen rMarker now msgRxBuffer io = some s) :
    CounterTrue s := by
  unfold mmcThreadStart at hstart
  split_ifs at hstart with hattach
  have hopen : mmcFileOpen rOpen (mmcFileInit io) = mmcFopen rOpen (mmcFileInit io) := rfl
  simp only [hopen] at hstart
  split_ifs at hstart
  obtain ⟨io', hwrite, rfl⟩ := Option.map_eq_some_iff.mp hstart
  obtain ⟨hen, hcount⟩ := entriesSince_writeMmcEntry (by rfl) hwrite
  have hnone : entriesSince (mmcFopen rOpen (mmcFileInit io)).2.calls = 0 := by
    rw [entriesSince_mmcFopen]
    exact congrArg entriesSince hcalls
  rw [hnone, ← hen] at hcount
  exact CounterTrue.countEntry (s := ⟨io', ⟨now, 0⟩, msgRxBuffer⟩) (n := 0) rfl hcount

/-- **Exactly the runs in which the counter tells the truth.** Whenever the loop is about to
receive, a stats request would be answered with the number of entries appended since start-up or
since the file was last removed, if and only if every removal request finds the file enabled and
removes it, or finds nothing to count. -/
theorem counterTrue_iff (mediaAttached : Bool) (rOpen rMarker : FatResults H) (now : UInt64)
    (msgRxBuffer : Vector UInt32 120) (io : FileIo H) (hcalls : io.calls = []) (s : MmcServer H)
    (hstart : mmcThreadStart mediaAttached rOpen rMarker now msgRxBuffer io = some s)
    (es : List (MmcEvent H)) :
    Throughout mmcEvent CounterTrue s es ↔ AlongSome mmcEvent RemovesOk s es := by
  refine throughout_iff mmcEvent
    (fun s => s.io.file.isInit = isInitValue ∧ CounterTrue s) (fun s h => h.2)
    (fun s e h s' hs' hok => ⟨mmcEvent_isInit e h.1 hs', ?_⟩)
    (fun s e h s' hs' htrue => (counterTrue_mmcEvent_iff e h.2 h.1 hs').mp htrue) es ?_
  · exact (counterTrue_mmcEvent_iff e h.2 h.1 hs').mpr hok
  · exact ⟨(settled_mmcThreadStart_iff hstart).1, counterTrue_mmcThreadStart hcalls hstart⟩

/-- A request without words. -/
def bareRequest (label : UInt32) (r : FatResults ℕ) : MmcEvent ℕ :=
  .request ⟨mmcmodBaseBadge, label, 0, ⟨Vector.replicate 4 0, Vector.replicate 120 0⟩⟩ 0 r

/-- The file is removed. -/
theorem counterTrue_iff_rm :
    ∃ s, mmcThreadStart true (fatOk 0) (fatOk 12) 0 (Vector.replicate 120 0) blankIo = some s ∧
      Throughout mmcEvent CounterTrue s [bareRequest ipcMsgTypeRmFileReq (fatOk 0)] :=
  ⟨_, rfl, (counterTrue_iff true (fatOk 0) (fatOk 12) 0 (Vector.replicate 120 0) blankIo rfl _ rfl
    _).mpr fun _ _ => ⟨fun _ => Or.inl ⟨by decide, rfl⟩, trivial⟩⟩

/-- A removal that fails: the marker is in the file, and the thread answers that nothing is. -/
theorem not_counterTrue :
    ∃ s, mmcThreadStart true (fatOk 0) (fatOk 12) 0 (Vector.replicate 120 0) blankIo = some s ∧
      ¬Throughout mmcEvent CounterTrue s [bareRequest ipcMsgTypeRmFileReq fatFail] := by
  refine ⟨_, rfl, fun h => ?_⟩
  have hlast : CounterTrue _ := h.2 _ rfl
  exact absurd (hlast 0) (by decide)

end HobdSystem
