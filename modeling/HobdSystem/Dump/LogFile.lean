import HobdSystem.Dump.ReadBack
import HobdSystem.Mmc.Card

/-!
# A log in a file

What the MMC module is for is a log that can be switched on and off, cleared and asked about
(`HobdSystem.LogService`). Here is the log, and what it is to find it in a file of the FAT library:
`HobdSystem.LogOf` says that the bytes on the card are those of the entries on the card, and that
what has been written through the handle of the file is what is pending.

The log is a plain one but for what follows from the way the file is handled.

* An entry is on the card once the file has been closed with the card connected, that is after the
  next flush of the timer or the next removal. Until then it is pending.
* Switching the log off clears the flag before the file is closed, so **what is pending is lost**
  (`HobdSystem.LogOf.disable`). Switching it on gives up the handle there was, with the same effect.
* Switching on a log that is off opens the file without the card, and nothing is known of the card
  from then on (`HobdSystem.LogOf.stateSetReq_on`).
* A log that is on may be not open, after the library failed to open the file again, and takes no
  entry then.

There is one lemma for each operation of the file, which says what it makes of the log and what the
library has answered if it was asked to open the file (`HobdSystem.openedSince`). The two
operations with a difficulty of their own are the ones that close and open the file in turn, since
the card is connected or not at each of the calls on its own.
-/

namespace HobdSystem

variable {H : Type*} [DecidableEq H]

/-! ### Opening the file -/

/-- What the library has said to a call that opens a file. -/
def FatCall.opens : FatCall H → Option Bool
  | .fopen ref => some ref.isSome
  | _ => none

/-- What the library has said when the file was opened on the way from one state to another. -/
def openedSince (io io' : FileIo H) : Option Bool :=
  (newCalls io io').findSome? fun c => c.call.opens

section Opened

variable {io x : FileIo H} (r : FatResults H)

omit [DecidableEq H] in
theorem openedSince_of_calls {calls : List (Issued H)} (h : x.calls = io.calls ++ calls) :
    openedSince io x = calls.findSome? fun c => c.call.opens := by
  rw [openedSince, newCalls_eq h]

omit [DecidableEq H] in
theorem openedSince_of_calls_eq (h : x.calls = io.calls) : openedSince io x = none := by
  have hnone : x.calls = io.calls ++ [] := by rw [h, List.append_nil]
  rw [openedSince_of_calls hnone]
  rfl

omit [DecidableEq H] in
/-- The file is opened behind calls that do not. -/
theorem openedSince_mmcFopen {calls : List (Issued H)} (h : x.calls = io.calls ++ calls)
    (hcalls : calls.findSome? (fun c => c.call.opens) = none) :
    openedSince io (mmcFopen r x).2 = some (r.fopen x.handles).isSome := by
  have hall : (mmcFopen r x).2.calls =
      io.calls ++ (calls ++ [⟨.fopen (r.fopen x.handles), x.file⟩]) := by
    rw [mmcFopen_calls, h, List.append_assoc]
  rw [openedSince_of_calls hall, List.findSome?_append, hcalls]
  rfl

omit [DecidableEq H] in
/-- Closing the file does not open it. -/
theorem opens_mmcFclose (ref : Option H) (file : MmcFile H) :
    (ref.toList.map fun ref => (⟨.fclose ref, file⟩ : Issued H)).findSome?
      (fun c => c.call.opens) = none := by
  cases ref <;> rfl

end Opened

/-! ### The log -/

/-- A log that can be switched on and off: what a user of the MMC module thinks it is, without
files, handles or a library. -/
structure LogService where
  on : Bool
  /-- The log takes entries. -/
  isOpen : Bool
  /-- The entries on the card; `none` if nothing is known of them. -/
  onCard : Option (List MmcEntry)
  /-- The entries that have been taken and are not on the card yet. -/
  pending : List MmcEntry
  count : UInt32

namespace LogService

/-- What is pending is brought to the card. -/
def flushed (a : LogService) : LogService :=
  { a with onCard := a.onCard.map (· ++ a.pending), pending := [] }

/-- The log is switched off, and what was pending is lost. -/
def switchedOff (a : LogService) : LogService :=
  { a with on := false, isOpen := false, pending := [] }

/-- The log is switched on, if the file can be opened, and off otherwise. What was pending is lost,
and if the log was off, so is what is known of the card. -/
def switchedOn (a : LogService) (opened : Bool) : LogService :=
  { a with
    on := opened, isOpen := opened, pending := []
    onCard := if opened && !a.on then none else a.onCard }

/-- The log takes an entry. -/
def logged (a : LogService) (e : MmcEntry) : LogService :=
  { a with pending := a.pending ++ [e], count := a.count + 1 }

/-- The log is removed, or only flushed if the library does not remove it, and opened again. -/
def removed (a : LogService) (removes opened : Bool) : LogService :=
  { a.flushed with
    isOpen := opened, count := 0
    onCard := if removes then a.onCard.map fun _ => [] else a.flushed.onCard }

/-- The entries that may come to be read. -/
def all (a : LogService) : List MmcEntry := a.onCard.getD [] ++ a.pending

/-- No entry comes out of nowhere. -/
theorem all_flushed (a : LogService) : a.flushed.all ⊆ a.all := by
  obtain ⟨on, isOpen, onCard, pending, count⟩ := a
  cases onCard <;> simp [all, flushed]

theorem all_removed (a : LogService) (removes opened : Bool) :
    (a.removed removes opened).all ⊆ a.all := by
  cases removes with
  | false => exact a.all_flushed
  | true =>
    intro e he
    obtain ⟨on, isOpen, onCard, pending, count⟩ := a
    cases onCard <;> simp [all, removed, flushed] at he

theorem all_switchedOn (a : LogService) (opened : Bool) :
    (a.switchedOn opened).all ⊆ a.all := by
  intro e he
  simp only [all, switchedOn, List.append_nil] at he
  split_ifs at he
  · simp at he
  · exact List.mem_append_left _ he

theorem all_switchedOff (a : LogService) : a.switchedOff.all ⊆ a.all := by
  intro e he
  simp only [all, switchedOff, List.append_nil] at he
  exact List.mem_append_left _ he

end LogService

/-- **The file holds a log**: its bytes on the card are those of the entries on the card, and what
has been written through its handle is what is pending. -/
structure LogOf (start : List UInt8) (io : FileIo H) (a : LogService) : Prop where
  isInit : io.file.isInit = isInitValue
  enabled_eq : io.file.enabled = if a.on then 1 else 0
  ref_eq : io.file.ref.isSome = a.isOpen
  off_closed : a.on = false → a.isOpen = false
  card_eq : (io.card start).bytes = a.onCard.map fun es => es.flatMap MmcEntry.bytes
  pending_eq : ∀ ref, io.file.ref = some ref →
    (io.card start).pending ref = a.pending.flatMap MmcEntry.bytes
  closed_empty : a.isOpen = false → a.pending = []

section LogOf

variable {start : List UInt8} {io : FileIo H} {a : LogService} (r : FatResults H)

theorem LogOf.enabled_iff (h : LogOf start io a) : io.file.enabled ≠ 0 ↔ a.on = true := by
  rw [h.enabled_eq]
  cases a.on <;> decide

theorem LogOf.getEnabled (h : LogOf start io a) :
    mmcFileGetEnabled io.file = if a.on then 1 else 0 := by
  rw [mmcFileGetEnabled, if_pos (initCheck_false h.isInit), h.enabled_eq]

/-- The card is there while the log is on. -/
theorem LogOf.connected (h : LogOf start io a) (c : FatCall H) :
    (⟨c, io.file⟩ : Issued H).connected = a.on := by
  rw [Issued.connected, h.getEnabled]
  cases a.on <;> rfl

/-- Nothing is pending in a log that is not open. -/
theorem LogService.flushed_of_pending {a : LogService} (h : a.pending = []) : a.flushed = a := by
  obtain ⟨on, isOpen, onCard, pending, count⟩ := a
  obtain rfl : pending = [] := h
  simp [LogService.flushed]

/-- A log that is on is opened, or not. The handle it had is overwritten. -/
theorem LogOf.mmcFopen (h : LogOf start io a) (hon : a.on = true) :
    LogOf start (mmcFopen r io).2
      { a with isOpen := (r.fopen io.handles).isSome, pending := [] } := by
  refine ⟨h.isInit, h.enabled_eq, rfl, fun hoff => absurd (hon.symm.trans hoff) (by decide), ?_,
    fun ref href => ?_, fun _ => rfl⟩
  · rw [card_mmcFopen]
    cases r.fopen io.handles with
    | none => exact h.card_eq
    | some ref =>
      rw [Card.after]
      simp only [h.connected, hon, if_true, h.card_eq]
  · rw [card_mmcFopen, mmcFopen_ref] at *
    simp only [Card.after, href, Function.update_self, List.flatMap_nil]

/-- A log that is on is closed, and its entries are on the card. -/
theorem LogOf.mmcFclose (h : LogOf start io a) (hon : a.on = true) :
    LogOf start (mmcFclose io) { a.flushed with isOpen := false } := by
  cases href : io.file.ref with
  | none =>
    have hclosed : a.isOpen = false := by rw [← h.ref_eq, href]; rfl
    have hsame : HobdSystem.mmcFclose io = io := by rw [HobdSystem.mmcFclose, href]
    rw [hsame, LogService.flushed_of_pending (h.closed_empty hclosed), ← hclosed]
    exact h
  | some ref =>
    have hcard := card_mmcFclose start href
    refine ⟨by rw [mmcFclose_isInit, h.isInit], by rw [mmcFclose_enabled, h.enabled_eq]; rfl,
      by simp, fun _ => rfl, ?_, by simp, fun _ => rfl⟩
    rw [hcard]
    simp only [Card.after, Card.settle, h.connected, hon, if_true, h.card_eq, h.pending_eq ref href,
      LogService.flushed, Option.map_map]
    congr 1
    funext es
    simp

/-- **A hard flush** of a log that takes entries brings them to the card, and does nothing to
another one. -/
theorem LogOf.flush (h : LogOf start io a) :
    if a.on && a.isOpen then ∃ opened : Bool,
      openedSince io (mmcFileFlush 1 r io).2 = some opened ∧
        LogOf start (mmcFileFlush 1 r io).2 { a.flushed with isOpen := opened }
    else (mmcFileFlush 1 r io).2 = io := by
  rw [mmcFileFlush_snd r h.isInit]
  by_cases hboth : a.on = true ∧ a.isOpen = true
  · rw [if_pos (by simp [hboth]), if_pos ⟨h.enabled_iff.mpr hboth.1, h.ref_eq.trans hboth.2⟩,
      if_pos (by decide)]
    exact ⟨_, openedSince_mmcFopen r (mmcFclose_calls io) (opens_mmcFclose _ _),
      (h.mmcFclose hboth.1).mmcFopen r hboth.1⟩
  · rw [if_neg (by simpa using hboth),
      if_neg fun hc => hboth ⟨h.enabled_iff.mp hc.1, h.ref_eq ▸ hc.2⟩]

/-- A removal of a log that is on. -/
theorem LogOf.rm (h : LogOf start io a) (hon : a.on = true) :
    openedSince io (mmcFileRm r io).2 = some (r.fopen (HobdSystem.mmcFclose io).handles).isSome ∧
      (mmcFileRm r io).1 = (if (r.fopen (HobdSystem.mmcFclose io).handles).isSome &&
        decide (r.remove = 0) then .ok else .fs) ∧
      LogOf start (mmcFileRm r io).2 (a.removed (decide (r.remove = 0))
        (r.fopen (HobdSystem.mmcFclose io).handles).isSome) := by
  have hclosed := h.mmcFclose hon
  have hissued : LogOf start ((HobdSystem.mmcFclose io).issue (.remove r.remove))
      (a.removed (decide (r.remove = 0)) false) := by
    refine ⟨hclosed.isInit, hclosed.enabled_eq, hclosed.ref_eq, fun _ => rfl, ?_, ?_, fun _ => rfl⟩
    · rw [card_issue]
      simp only [Card.after, hclosed.connected, LogService.removed]
      by_cases hrm : r.remove = 0
      · simp [hrm, LogService.flushed, hon, hclosed.card_eq, Function.comp_def]
      · simpa [hrm] using hclosed.card_eq
    · intro ref href
      simp at href
  have hcalls : ((HobdSystem.mmcFclose io).issue (.remove r.remove)).calls = io.calls ++
      ((io.file.ref.toList.map fun ref => ⟨.fclose ref, io.file⟩) ++
        [⟨.remove r.remove, (HobdSystem.mmcFclose io).file⟩]) := by
    rw [issue_calls, mmcFclose_calls, List.append_assoc]
  have hopens := openedSince_mmcFopen r hcalls
    (by rw [List.findSome?_append, opens_mmcFclose]; rfl)
  refine ⟨?_, ?_, ?_⟩
  · rw [mmcFileRm_snd r h.isInit, if_pos (h.enabled_iff.mpr hon)]
    exact hopens
  · rw [mmcFileRm, if_pos ⟨initCheck_false h.isInit, h.enabled_iff.mpr hon⟩]
    simp only [mmcFopen_fst, issue_handles, ← Option.not_isSome]
    cases (r.fopen (HobdSystem.mmcFclose io).handles).isSome <;>
      by_cases hrm : r.remove = 0 <;> simp [hrm]
  · rw [mmcFileRm_snd r h.isInit, if_pos (h.enabled_iff.mpr hon)]
    exact hissued.mmcFopen r hon

/-- A log that is off is not removed. -/
theorem LogOf.rm_off (h : LogOf start io a) (hoff : a.on = false) :
    mmcFileRm r io = (.ok, io) := by
  have hen : ¬io.file.enabled ≠ 0 := fun hc => absurd (hoff.symm.trans (h.enabled_iff.mp hc))
    (by decide)
  rw [mmcFileRm, if_neg fun hc => hen hc.2, initCheck_false h.isInit]

/-- **Switching the log off.** The flag is cleared first, so the library transfers nothing when the
file is closed. -/
theorem LogOf.disable (h : LogOf start io a) :
    (mmcFileSetEnabled 0 r io).1 = .ok ∧ openedSince io (mmcFileSetEnabled 0 r io).2 = none ∧
      LogOf start (mmcFileSetEnabled 0 r io).2 a.switchedOff := by
  rw [mmcFileSetEnabled, if_pos (initCheck_false h.isInit), if_pos rfl]
  cases hon : a.on with
  | true =>
    rw [if_pos (h.enabled_iff.mpr hon)]
    refine ⟨initCheck_false h.isInit, ?_, ?_, ?_, ?_, fun _ => rfl, ?_, ?_, fun _ => rfl⟩
    · exact (openedSince_of_calls (mmcFclose_calls { io with file.enabled := 0 })).trans
        (opens_mmcFclose _ _)
    · rw [mmcFclose_isInit]
      exact h.isInit
    · rw [mmcFclose_enabled]
      rfl
    · simp [LogService.switchedOff]
    · cases href : io.file.ref with
      | none =>
        have hsame : HobdSystem.mmcFclose { io with file.enabled := 0 } =
            { io with file.enabled := 0 } := by
          rw [HobdSystem.mmcFclose]
          simp only [href]
        rw [hsame]
        exact h.card_eq
      | some ref =>
        have hopen : ({ io with file.enabled := 0 } : FileIo H).file.ref = some ref := href
        have hcard := card_mmcFclose start hopen
        have hconn :
            (⟨.fclose ref, { io.file with enabled := 0 }⟩ : Issued H).connected = false := by
          simp [Issued.connected, mmcFileGetEnabled]
        rw [hcard]
        simp only [Card.after, Card.settle, hconn]
        exact h.card_eq
    · simp
  | false =>
    have hclosed := h.off_closed hon
    have hsame : a.switchedOff = a := by
      obtain ⟨on, isOpen, onCard, pending, count⟩ := a
      obtain rfl : on = false := hon
      obtain rfl : isOpen = false := hclosed
      obtain rfl : pending = [] := h.closed_empty rfl
      rfl
    have hoff : ¬io.file.enabled ≠ 0 := fun hc => absurd (hon.symm.trans (h.enabled_iff.mp hc))
      (by decide)
    rw [if_neg hoff, hsame]
    exact ⟨initCheck_false h.isInit, openedSince_of_calls_eq rfl, h⟩

/-- The request to switch the log off. -/
theorem LogOf.stateSetReq_off {s : MmcServer H} (h : LogOf start s.io a) :
    openedSince s.io (stateSetReq 0 r s).2.io = none ∧
      LogOf start (stateSetReq 0 r s).2.io a.switchedOff := by
  obtain ⟨hcode, hopens, hlog⟩ := h.disable r
  simp only [HobdSystem.stateSetReq, hcode]
  exact ⟨hopens, hlog⟩

/-- **The request to switch the log on.** The file is opened whatever the log is, and before the
flag is set. -/
theorem LogOf.stateSetReq_on {s : MmcServer H} (h : LogOf start s.io a) {state : UInt32}
    (hstate : state ≠ 0) :
    openedSince s.io (stateSetReq state r s).2.io = some (r.fopen s.io.handles).isSome ∧
      LogOf start (stateSetReq state r s).2.io (a.switchedOn (r.fopen s.io.handles).isSome) := by
  have hopens := openedSince_mmcFopen (x := s.io) r (List.append_nil _).symm rfl
  have hcard := card_mmcFopen start s.io r
  cases hopen : r.fopen s.io.handles with
  | none =>
    have hset : mmcFileSetEnabled state r s.io = (.fs, (HobdSystem.mmcFopen r s.io).2) := by
      simp [mmcFileSetEnabled, initCheck_false h.isInit, hstate, mmcFopen_fst, hopen]
    rw [hopen] at hopens hcard
    -- the file has no handle now, and is disabled as it is
    have hleft : LogOf start (HobdSystem.mmcFopen r s.io).2
        { a with isOpen := false, pending := [] } :=
      ⟨h.isInit, h.enabled_eq, by simp [hopen], fun _ => rfl, by rw [hcard]; exact h.card_eq,
        by simp [hopen], fun _ => rfl⟩
    obtain ⟨-, -, hoff⟩ := hleft.disable r
    refine ⟨?_, ?_⟩
    · simp only [HobdSystem.stateSetReq, hset]
      have hcalls : (mmcFileSetEnabled 0 r (HobdSystem.mmcFopen r s.io).2).2.calls =
          (HobdSystem.mmcFopen r s.io).2.calls := by
        simp only [mmcFileSetEnabled, initCheck_false hleft.isInit, if_true]
        split_ifs
        · rw [mmcFclose_calls]
          simp [hopen]
        · rfl
      rw [if_pos (by decide), openedSince, newCalls, hcalls]
      exact hopens
    · simp only [HobdSystem.stateSetReq, hset]
      exact hoff
  | some ref =>
    have hset : mmcFileSetEnabled state r s.io =
        (.ok, { (HobdSystem.mmcFopen r s.io).2 with file.enabled := 1 }) := by
      simp [mmcFileSetEnabled, initCheck_false h.isInit, hstate, mmcFopen_fst, hopen]
    rw [hopen] at hopens hcard
    refine ⟨?_, ?_⟩
    · simp only [HobdSystem.stateSetReq, hset]
      exact hopens
    · simp only [HobdSystem.stateSetReq, hset]
      refine ⟨h.isInit, rfl, by simp [hopen, LogService.switchedOn],
        fun hc => absurd hc Bool.true_eq_false.mp, ?_, fun ref' href => ?_, fun _ => rfl⟩
      · change ((HobdSystem.mmcFopen r s.io).2.card start).bytes = _
        rw [hcard]
        simp only [Card.after, h.connected, LogService.switchedOn, h.card_eq]
        cases a.on <;> rfl
      · change ((HobdSystem.mmcFopen r s.io).2.card start).pending ref' = _
        obtain rfl : ref = ref' := Option.some.inj (hopen.symm.trans href)
        rw [hcard]
        simp [Card.after, LogService.switchedOn]

/-- The size is known of a log that is open. -/
theorem LogOf.size (h : LogOf start io a) : mmcFileSize r io.file =
    if a.on then if a.isOpen then (.ok, r.filelength) else (.notOpen, 0) else (.ok, 0) := by
  have hinit := h.isInit
  have hen := h.enabled_eq
  have href := h.ref_eq
  cases hon : a.on <;> cases hopen : a.isOpen <;>
    simp [mmcFileSize, initCheck, hinit, hen, ← Option.not_isSome, href, hon, hopen]

end LogOf

/-! ### Entries -/

section Entries

variable {start : List UInt8} {io : FileIo H} {a : LogService} {r : FatResults H}

theorem LogOf.write_off (h : LogOf start io a) (hoff : a.on = false) (mem : List UInt8) :
    writeMmcEntry mem 0 r io = some io := by
  have hen : io.file.enabled = 0 := by rw [h.enabled_eq, hoff]; rfl
  have hcheck : initCheck io.file true = .ok :=
    (initCheck_true_eq_ok h.isInit).mpr fun hc => absurd hen hc
  simp [HobdSystem.writeMmcEntry, mmcFileWrite, hcheck, hen]

theorem LogOf.write_closed (h : LogOf start io a) (hon : a.on = true) (hclosed : a.isOpen = false)
    (mem : List UInt8) : writeMmcEntry mem 0 r io = none := by
  have hcheck : initCheck io.file true ≠ .ok := fun hc => by
    have href := (initCheck_true_eq_ok h.isInit).mp hc (h.enabled_iff.mpr hon)
    rw [h.ref_eq, hclosed] at href
    exact absurd href (by decide)
  simp [HobdSystem.writeMmcEntry, mmcFileWrite, hcheck]

theorem LogOf.logging (h : LogOf start io a) (hon : a.on = true) (hopen : a.isOpen = true) :
    Logging io :=
  ⟨h.isInit, h.enabled_iff.mpr hon, h.ref_eq.trans hopen⟩

theorem LogOf.write_open (h : LogOf start io a) (hon : a.on = true) (hopen : a.isOpen = true)
    (mem : List UInt8) :
    writeMmcEntry mem 0 r io =
      if r.fwrite = (mmcEntryTotalSize (entryAt mem)).toUInt32.toInt32 then
        some (io.issue (.fwrite mem 1 (mmcEntryTotalSize (entryAt mem)).toUInt32 io.file.ref
          r.fwrite))
      else none := by
  have hlogging := h.logging hon hopen
  split_ifs with hret
  · exact writeMmcEntry_eq mem hlogging hret
  · have hcheck : initCheck io.file true = .ok :=
      (initCheck_true_eq_ok h.isInit).mpr fun _ => hlogging.ref
    simp [HobdSystem.writeMmcEntry, mmcFileWrite, hcheck, hlogging.enabled, hret]

/-- A write that succeeds puts the entry behind the others that are pending. -/
theorem LogOf.append (h : LogOf start io a) (hopen : a.isOpen = true) {e : MmcEntry}
    (he : e.size.toNat = e.data.length) (hsize : e.size.toNat ≤ 456) (rest : List UInt8) :
    LogOf start (io.issue (.fwrite (e.bytes ++ rest) 1 (mmcEntryTotalSize e).toUInt32 io.file.ref
      (mmcEntryTotalSize e).toUInt32.toInt32)) (a.logged e) := by
  have htotal : e.bytes.length = (mmcEntryTotalSize e).toUInt32.toNat := by
    rw [toNat_mmcEntryTotalSize hsize, MmcEntry.bytes, List.length_append, e.length_header, he]
  obtain ⟨ref, href⟩ := Option.isSome_iff_exists.mp (h.ref_eq.trans hopen)
  have hcard := card_issue start io (.fwrite (e.bytes ++ rest) 1 (mmcEntryTotalSize e).toUInt32
    io.file.ref (mmcEntryTotalSize e).toUInt32.toInt32)
  simp only [href, Card.after, UInt32.one_mul, if_true, List.take_left' htotal] at hcard
  rw [href]
  refine ⟨h.isInit, h.enabled_eq, h.ref_eq, h.off_closed, ?_, fun ref' href' => ?_,
    fun hclosed => absurd (hopen.symm.trans hclosed) (by decide)⟩
  · rw [hcard]
    exact h.card_eq
  · obtain rfl : ref = ref' := Option.some.inj (href.symm.trans href')
    simp only [hcard, Function.update_self, h.pending_eq ref href, LogService.logged,
      List.flatMap_append, List.flatMap_singleton]

/-- The marker is flushed, another entry is not. -/
theorem writeMmcEntry_one (mem : List UInt8) (r : FatResults H) (io : FileIo H) :
    writeMmcEntry mem 1 r io =
      (writeMmcEntry mem 0 r io).map fun io => (mmcFileFlush 1 r io).2 := by
  simp only [HobdSystem.writeMmcEntry]
  by_cases herr : (mmcFileWrite mem 1 (mmcEntryTotalSize (entryAt mem)).toUInt32 r io).1 ≠ .ok
  · rw [if_pos herr, if_pos herr, Option.map_none]
  · rw [if_neg herr, if_neg herr, if_pos (by decide), if_neg (by decide), Option.map_some]

end Entries

end HobdSystem
