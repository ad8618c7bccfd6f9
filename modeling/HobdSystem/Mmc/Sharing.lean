import HobdSystem.Library.Interleaving
import HobdSystem.Mmc.Client

/-!
# The log file, one access at a time

`g_mmc_file` belongs to two threads: the MMC thread works on it for its requests, and the thread
of the time server flushes it in `hard_flush_timeout_cb`. No mutex is held meanwhile; only the
calls of the FAT library exclude each other. So here the operations of `mmc_file.c` are programs
that read and write the fields of the file one access after the other, as often as the source
does, and call the library (`HobdSystem.FileAccess`). The library answers as it likes, but for
what is known of it elsewhere: a handle that is handed out is not open already.

It matters how often a field is read. A function that checks a handle and uses it reads it twice,
and between the two the other thread may have closed the file; a model that reads it once has no
such run. So each `file->ref` of the source is an access of its own here, and a field that is read
into a local variable is read once.

There are now two models of one file. They are the same as long as the threads leave each other
alone: each operation comes to what it is in `HobdSystem.Mmc.File` (`HobdSystem.Shared.Atomic`),
and so do whole rounds of the two threads. The results are `HobdSystem.Shared.performAll_alone`,
which goes both ways, and `HobdSystem.Shared.exists_performAll_of_mmcEvents`: every run of the
server of `HobdSystem.Mmc.Server` is one of the programs here, with each of its events left alone.
What the programs come to when they are interleaved is in `HobdSystem.Mmc.Race`.
-/

namespace HobdSystem

open Dialogue

variable {H : Type}

/-! ### Accesses -/

/-- An access to the file, or a call of the library. Each is one step in which the other thread
cannot come in between, and between two of them it can. -/
inductive FileAccess (H : Type) where
  /-- `is_init` is read. -/
  | isInit
  /-- `enabled` is read. -/
  | enabled
  /-- `ref` is read. -/
  | ref
  | setEnabled (enabled : UInt32)
  | setRef (ref : Option H)
  | fopen
  | fclose (ref : Option H)
  | remove
  | fflush (ref : Option H)
  | fwrite (data : List UInt8) (size count : UInt32) (ref : Option H)
  /-- The field `filelength` of what `ref` points to is read. -/
  | filelength (ref : Option H)

/-- What an access returns. -/
def FileAccess.Answer : FileAccess H → Type
  | .isInit | .enabled | .filelength _ => UInt32
  | .ref | .fopen => Option H
  | .setEnabled _ | .setRef _ | .fclose _ => Unit
  | .remove | .fflush _ | .fwrite .. => Int32

/-- A program on the file. It prints nothing. -/
abbrev FileProgram (H α : Type) : Type := Dialogue Empty (FileAccess.Answer (H := H)) α

/-- The file and the library, as they answer one access. -/
def fileWorld (H : Type) [DecidableEq H] : World (FileAccess.Answer (H := H)) (FileIo H) where
  moves _ _ := False
  serves
    | .isInit, x, io, io' => x = io.file.isInit ∧ io' = io
    | .enabled, x, io, io' => x = io.file.enabled ∧ io' = io
    | .ref, x, io, io' => x = io.file.ref ∧ io' = io
    | .setEnabled enabled, _, io, io' => io' = { io with file.enabled := enabled }
    | .setRef ref, _, io, io' => io' = { io with file.ref := ref }
    | .fopen, x, io, io' => (∀ h, x = some h → h ∉ io.handles) ∧
        io' = { io.issue (.fopen x) with handles := x.toList ++ io.handles }
    | .fclose ref, _, io, io' => io' = ref.elim io fun h =>
        { io.issue (.fclose h) with handles := io.handles.erase h }
    | .remove, x, io, io' => io' = io.issue (.remove x)
    | .fflush ref, x, io, io' => io' = io.issue (.fflush ref x)
    | .fwrite data size count ref, x, io, io' => io' = io.issue (.fwrite data size count ref x)
    | .filelength _, _, io, io' => io' = io

/-- **A handle that is passed to the library, or looked into, is open.** -/
def FileAccess.Allowed : FileAccess H → FileIo H → Prop
  | .fclose file, io | .fflush file, io | .fwrite _ _ _ file, io | .filelength file, io =>
    ∃ h ∈ io.handles, file = some h
  | .isInit, _ | .enabled, _ | .ref, _ | .setEnabled _, _ | .setRef _, _ | .fopen, _
  | .remove, _ => True

/-! ### `mmc_file.c` -/

namespace Shared

/-- `file->is_init`. -/
def isInit : FileProgram H UInt32 := query FileAccess.isInit

/-- `file->enabled`. -/
def enabled : FileProgram H UInt32 := query FileAccess.enabled

/-- `file->ref`. -/
def ref : FileProgram H (Option H) := query FileAccess.ref

/-- `file->enabled = value`. -/
def setEnabled (value : UInt32) : FileProgram H Unit := query (FileAccess.setEnabled value)

/-- `file->ref = value`. -/
def setRef (value : Option H) : FileProgram H Unit := query (FileAccess.setRef value)

/-- `fl_fopen`. -/
def flFopen : FileProgram H (Option H) := query FileAccess.fopen

/-- `fl_fclose`. -/
def flFclose (file : Option H) : FileProgram H Unit := query (FileAccess.fclose file)

/-- `fl_remove`. -/
def flRemove : FileProgram H Int32 := query FileAccess.remove

/-- `fl_fflush`. -/
def flFflush (file : Option H) : FileProgram H Int32 := query (FileAccess.fflush file)

/-- `fl_fwrite`. -/
def flFwrite (data : List UInt8) (size count : UInt32) (file : Option H) : FileProgram H Int32 :=
  query (FileAccess.fwrite data size count file)

/-- `file->ref->filelength`. -/
def filelength (file : Option H) : FileProgram H UInt32 := query (FileAccess.filelength file)

/-- `init_check`. -/
def initCheck (checkFile : Bool) : FileProgram H MmcFileErr :=
  isInit >>= fun init =>
    if init ≠ isInitValue then pure .init
    else if checkFile then
      enabled >>= fun en =>
        if en ≠ 0 then ref >>= fun r => pure (if r.isNone then .notOpen else .ok) else pure .ok
    else pure .ok

/-- What an operation does if its check has passed and the file is enabled. -/
def whenEnabled {α : Type} (ret : MmcFileErr) (otherwise : α) (body : FileProgram H α) :
    FileProgram H α :=
  if ret = .ok then enabled >>= fun en => if en ≠ 0 then body else pure otherwise
  else pure otherwise

/-- `mmc_fopen`. -/
def mmcFopen : FileProgram H MmcFileErr :=
  flFopen >>= fun r => setRef r >>= fun _ => ref >>= fun r =>
    pure (if r.isNone then .fs else .ok)

/-- `mmc_fclose`. -/
def mmcFclose : FileProgram H Unit :=
  ref >>= fun r =>
    if r.isSome then ref >>= fun r => flFclose r >>= fun _ => setRef none else pure ()

/-- `mmc_file_get_enabled`. -/
def mmcFileGetEnabled : FileProgram H UInt32 :=
  initCheck false >>= fun status => if status = .ok then enabled else pure 0

/-- `mmc_file_set_enabled`. -/
def mmcFileSetEnabled (value : UInt32) : FileProgram H MmcFileErr :=
  initCheck false >>= fun ret =>
    if ret = .ok then
      if value = 0 then
        enabled >>= fun en =>
          if en ≠ 0 then setEnabled 0 >>= fun _ => mmcFclose >>= fun _ => pure ret else pure ret
      else
        mmcFopen >>= fun ret =>
          if ret = .ok then setEnabled 1 >>= fun _ => pure ret else pure ret
    else pure ret

/-- `mmc_file_rm`. -/
def mmcFileRm : FileProgram H MmcFileErr :=
  initCheck false >>= fun ret =>
    whenEnabled ret ret (mmcFclose >>= fun _ => flRemove >>= fun rmStatus =>
      mmcFopen >>= fun ret => pure (if ret = .ok ∧ rmStatus ≠ 0 then .fs else ret))

/-- `mmc_file_size`: the code and the size. -/
def mmcFileSize : FileProgram H (MmcFileErr × UInt32) :=
  initCheck true >>= fun ret =>
    whenEnabled ret (ret, 0) (ref >>= fun r => filelength r >>= fun size => pure (ret, size))

/-- `mmc_file_flush`. -/
def mmcFileFlush (hardFlush : UInt32) : FileProgram H MmcFileErr :=
  initCheck true >>= fun ret =>
    whenEnabled ret ret
      (if hardFlush ≠ 0 then mmcFclose >>= fun _ => mmcFopen
      else ref >>= fun r => flFflush r >>= fun flushStatus =>
        pure (if flushStatus ≠ 0 then .fs else ret))

/-- `mmc_file_write`. -/
def mmcFileWrite (data : List UInt8) (size count : UInt32) : FileProgram H MmcFileErr :=
  initCheck true >>= fun ret =>
    whenEnabled ret ret (ref >>= fun r => flFwrite data size count r >>= fun ret =>
      pure (if ret ≠ (size * count).toInt32 then .io else .ok))

/-! ### The two threads -/

/-- `write_mmc_entry`, on the entry at the start of some memory. -/
def writeMmcEntry (mem : List UInt8) (hardFlush : UInt32) : FileProgram H Unit :=
  mmcFileWrite mem 1 (mmcEntryTotalSize (entryAt mem)).toUInt32 >>= fun err =>
    if err ≠ .ok then .halt
    else if hardFlush ≠ 0 then mmcFileFlush 1 >>= fun _ => pure ()
    else pure ()

/-- What the MMC thread is asked for. -/
inductive Work where
  /-- The entry at the start of some memory is logged. -/
  | entry (mem : List UInt8)
  | request (q : MmcRequest)

/-- What the loop of `mmc_thread_fn` does with the file for that. -/
def Work.perform : Work → FileProgram H Unit
  | .entry mem => writeMmcEntry mem 0 >>= fun _ => enabled >>= fun _ => pure ()
  | .request .getStats => pure ()
  | .request .getFileSize => mmcFileSize >>= fun _ => pure ()
  | .request .rm => mmcFileRm >>= fun _ => pure ()
  | .request .getState => mmcFileGetEnabled >>= fun _ => pure ()
  | .request (.setState state) => mmcFileSetEnabled state >>= fun err =>
      (if err ≠ .ok then mmcFileSetEnabled 0 else pure .ok) >>= fun _ =>
        mmcFileGetEnabled >>= fun _ => pure ()

/-- The MMC thread, on what it is asked for. -/
def serve : List Work → FileProgram H Unit
  | [] => pure ()
  | w :: ws => w.perform >>= fun _ => serve ws

/-- `hard_flush_timeout_cb`. -/
def hardFlushTimeoutCb : FileProgram H Unit := mmcFileFlush 1 >>= fun _ => pure ()

/-- The thread of the time server, which flushes the file some number of times. -/
def hardFlushes : ℕ → FileProgram H Unit
  | 0 => pure ()
  | n + 1 => hardFlushTimeoutCb >>= fun _ => hardFlushes n

/-! ### An operation that is left alone

A program followed by another one, `op >>= f`: what `op` returns and leaves behind is what `f` is
given. -/

section Alone

variable [DecidableEq H] {α : Type} {io io' : FileIo H} {t : List Empty} {a : α}

theorem not_moves (io io' : FileIo H) : ¬(fileWorld H).moves io io' := id

/-- An access with one outcome. -/
theorem talks_access (q : FileAccess H) {f : q.Answer → FileProgram H α} {x : q.Answer}
    {io₁ : FileIo H} (h : ∀ y io₂, (fileWorld H).serves q y io io₂ ↔ y = x ∧ io₂ = io₁) :
    (query q >>= f).Talks (fileWorld H) io t a io' ↔ (f x).Talks (fileWorld H) io₁ t a io' := by
  refine (talks_query_bind not_moves).trans ⟨?_, fun hf => ⟨x, io₁, (h x io₁).mpr ⟨rfl, rfl⟩, hf⟩⟩
  rintro ⟨y, io₂, hserve, hf⟩
  obtain ⟨rfl, rfl⟩ := (h y io₂).mp hserve
  exact hf

theorem talks_isInit {f : UInt32 → FileProgram H α} :
    (isInit >>= f).Talks (fileWorld H) io t a io' ↔
      (f io.file.isInit).Talks (fileWorld H) io t a io' :=
  talks_access .isInit fun _ _ => Iff.rfl

theorem talks_enabled {f : UInt32 → FileProgram H α} :
    (enabled >>= f).Talks (fileWorld H) io t a io' ↔
      (f io.file.enabled).Talks (fileWorld H) io t a io' :=
  talks_access .enabled fun _ _ => Iff.rfl

theorem talks_ref {f : Option H → FileProgram H α} :
    (ref >>= f).Talks (fileWorld H) io t a io' ↔ (f io.file.ref).Talks (fileWorld H) io t a io' :=
  talks_access .ref fun _ _ => Iff.rfl

theorem talks_setEnabled {value : UInt32} {f : Unit → FileProgram H α} :
    (setEnabled value >>= f).Talks (fileWorld H) io t a io' ↔
      (f ()).Talks (fileWorld H) { io with file.enabled := value } t a io' :=
  talks_access (.setEnabled value) fun _ _ => (and_iff_right rfl).symm

theorem talks_setRef {value : Option H} {f : Unit → FileProgram H α} :
    (setRef value >>= f).Talks (fileWorld H) io t a io' ↔
      (f ()).Talks (fileWorld H) { io with file.ref := value } t a io' :=
  talks_access (.setRef value) fun _ _ => (and_iff_right rfl).symm

theorem talks_flFclose {h : H} {f : Unit → FileProgram H α} :
    (flFclose (some h) >>= f).Talks (fileWorld H) io t a io' ↔ (f ()).Talks (fileWorld H)
      { io.issue (.fclose h) with handles := io.handles.erase h } t a io' :=
  talks_access (.fclose (some h)) fun _ _ => (and_iff_right rfl).symm

theorem talks_initCheck {checkFile : Bool} {f : MmcFileErr → FileProgram H α} :
    (initCheck checkFile >>= f).Talks (fileWorld H) io t a io' ↔
      (f (HobdSystem.initCheck io.file checkFile)).Talks (fileWorld H) io t a io' := by
  rw [initCheck, bind_assoc, talks_isInit]
  unfold HobdSystem.initCheck
  by_cases hinit : io.file.isInit ≠ isInitValue
  · rw [if_pos hinit, if_pos hinit]
    rfl
  rw [if_neg hinit, if_neg hinit]
  cases checkFile with
  | false => rfl
  | true =>
    rw [if_pos rfl, bind_assoc, talks_enabled]
    by_cases hen : io.file.enabled ≠ 0
    · rw [if_pos hen, bind_assoc, talks_ref]
      simp only [hen, true_and, ne_eq, not_false_eq_true]
      rfl
    · rw [if_neg hen, if_neg fun hc => hen hc.2.1]
      rfl

theorem talks_whenEnabled {β : Type} {ret : MmcFileErr} {otherwise : β} {body : FileProgram H β}
    {f : β → FileProgram H α} :
    (whenEnabled ret otherwise body >>= f).Talks (fileWorld H) io t a io' ↔
      if ret = .ok ∧ io.file.enabled ≠ 0 then (body >>= f).Talks (fileWorld H) io t a io'
      else (f otherwise).Talks (fileWorld H) io t a io' := by
  by_cases hret : ret = .ok
  · rw [whenEnabled, if_pos hret, bind_assoc, talks_enabled]
    by_cases hen : io.file.enabled ≠ 0
    · rw [if_pos hen, if_pos ⟨hret, hen⟩]
    · rw [if_neg hen, if_neg fun hc => hen hc.2]
      rfl
  · rw [whenEnabled, if_neg hret, if_neg fun hc => hret hc.1]
    rfl

theorem talks_mmcFclose {f : Unit → FileProgram H α} :
    (mmcFclose >>= f).Talks (fileWorld H) io t a io' ↔
      (f ()).Talks (fileWorld H) (HobdSystem.mmcFclose io) t a io' := by
  rw [mmcFclose, bind_assoc, talks_ref]
  unfold HobdSystem.mmcFclose
  rcases href : io.file.ref with - | h
  · rfl
  · rw [if_pos Option.isSome_some, bind_assoc, talks_ref, href, bind_assoc, talks_flFclose,
      talks_setRef]
    rfl

/-- A library with one answer of each kind. It hands out its handle while that is not open. -/
def fatAnswers (fopen : Option H) (status : Int32) (filelength : UInt32) : FatResults H where
  fopen handles := fopen.filter fun h => h ∉ handles
  remove := status
  fflush := status
  fwrite := status
  filelength := filelength
  fopen_not_mem h := of_decide_eq_true (Option.filter_eq_some_iff.mp h).2

theorem fatAnswers_fopen {x : Option H} {handles : List H} (h : ∀ a, x = some a → a ∉ handles)
    (status : Int32) (filelength : UInt32) :
    (fatAnswers x status filelength).fopen handles = x := by
  rcases x with - | a
  · rfl
  · change (some a).filter (fun a => decide (a ∉ handles)) = some a
    rw [Option.filter_some, if_pos (decide_eq_true (h a rfl))]

instance : Inhabited (FatResults H) := ⟨fatAnswers none 0 0⟩

theorem talks_flFopen {f : Option H → FileProgram H α} :
    (flFopen >>= f).Talks (fileWorld H) io t a io' ↔ ∃ x : Option H,
      (∀ h, x = some h → h ∉ io.handles) ∧ (f x).Talks (fileWorld H)
        { io.issue (.fopen x) with handles := x.toList ++ io.handles } t a io' := by
  refine (talks_query_bind not_moves).trans ⟨?_, ?_⟩
  · rintro ⟨x, _, ⟨hx, rfl⟩, hf⟩
    exact ⟨x, hx, hf⟩
  · rintro ⟨x, hx, hf⟩
    exact ⟨x, _, ⟨hx, rfl⟩, hf⟩

/-- **An operation comes to what it is in one piece**, with some answers of the library. -/
def Atomic {β : Type} (op : FileProgram H β) (whole : FatResults H → FileIo H → β × FileIo H) :
    Prop :=
  ∀ {α : Type} (f : β → FileProgram H α) (io io' : FileIo H) (t : List Empty) (a : α),
    (op >>= f).Talks (fileWorld H) io t a io' ↔
      ∃ r, (f (whole r io).1).Talks (fileWorld H) (whole r io).2 t a io'

theorem atomic_mmcFopen : Atomic (mmcFopen (H := H)) HobdSystem.mmcFopen := by
  intro α f io io' t a
  simp only [mmcFopen, bind_assoc, talks_flFopen, talks_setRef, talks_ref]
  constructor
  · rintro ⟨x, hx, hf⟩
    refine ⟨fatAnswers x 0 0, ?_⟩
    simp only [HobdSystem.mmcFopen, fatAnswers_fopen hx]
    exact hf
  · rintro ⟨r, hf⟩
    exact ⟨r.fopen io.handles, fun _ => r.fopen_not_mem, hf⟩

theorem talks_mmcFileGetEnabled {f : UInt32 → FileProgram H α} :
    (mmcFileGetEnabled >>= f).Talks (fileWorld H) io t a io' ↔
      (f (HobdSystem.mmcFileGetEnabled io.file)).Talks (fileWorld H) io t a io' := by
  rw [mmcFileGetEnabled, bind_assoc, talks_initCheck]
  unfold HobdSystem.mmcFileGetEnabled
  split_ifs
  · exact talks_enabled
  · rfl

theorem atomic_mmcFileSize :
    Atomic (mmcFileSize (H := H)) fun r io => (HobdSystem.mmcFileSize r io.file, io) := by
  intro α f io io' t a
  rw [mmcFileSize, bind_assoc, talks_initCheck, talks_whenEnabled]
  by_cases hcheck : HobdSystem.initCheck io.file true = .ok ∧ io.file.enabled ≠ 0
  · simp only [HobdSystem.mmcFileSize, if_pos hcheck, bind_assoc, talks_ref]
    refine (talks_query_bind not_moves).trans ⟨?_, ?_⟩
    · rintro ⟨size, io₁, hio, hf⟩
      rw [show io₁ = io from hio] at hf
      exact ⟨fatAnswers none 0 size, hf⟩
    · rintro ⟨r, hf⟩
      exact ⟨r.filelength, io, rfl, hf⟩
  · simp only [HobdSystem.mmcFileSize, if_neg hcheck, exists_const]

theorem atomic_mmcFileWrite (data : List UInt8) (size count : UInt32) :
    Atomic (mmcFileWrite (H := H) data size count) (HobdSystem.mmcFileWrite data size count) := by
  intro α f io io' t a
  rw [mmcFileWrite, bind_assoc, talks_initCheck, talks_whenEnabled]
  by_cases hcheck : HobdSystem.initCheck io.file true = .ok ∧ io.file.enabled ≠ 0
  · simp only [HobdSystem.mmcFileWrite, if_pos hcheck, bind_assoc, talks_ref]
    refine (talks_query_bind not_moves).trans ⟨?_, ?_⟩
    · rintro ⟨written, _, rfl, hf⟩
      exact ⟨fatAnswers none written 0, hf⟩
    · rintro ⟨r, hf⟩
      exact ⟨r.fwrite, _, rfl, hf⟩
  · simp only [HobdSystem.mmcFileWrite, if_neg hcheck, exists_const]

theorem atomic_mmcFileFlush (hardFlush : UInt32) :
    Atomic (mmcFileFlush (H := H) hardFlush) (HobdSystem.mmcFileFlush hardFlush) := by
  intro α f io io' t a
  rw [mmcFileFlush, bind_assoc, talks_initCheck, talks_whenEnabled]
  by_cases hcheck : HobdSystem.initCheck io.file true = .ok ∧ io.file.enabled ≠ 0
  · by_cases hhard : hardFlush ≠ 0
    · simp only [HobdSystem.mmcFileFlush, if_pos hcheck, if_pos hhard, bind_assoc, talks_mmcFclose]
      exact atomic_mmcFopen f _ io' t a
    · simp only [HobdSystem.mmcFileFlush, if_pos hcheck, if_neg hhard, bind_assoc, talks_ref]
      refine (talks_query_bind not_moves).trans ⟨?_, ?_⟩
      · rintro ⟨status, _, rfl, hf⟩
        exact ⟨fatAnswers none status 0, hf⟩
      · rintro ⟨r, hf⟩
        exact ⟨r.fflush, _, rfl, hf⟩
  · simp only [HobdSystem.mmcFileFlush, if_neg hcheck, exists_const]

theorem atomic_mmcFileRm : Atomic (mmcFileRm (H := H)) HobdSystem.mmcFileRm := by
  intro α f io io' t a
  rw [mmcFileRm, bind_assoc, talks_initCheck, talks_whenEnabled]
  by_cases hcheck : HobdSystem.initCheck io.file false = .ok ∧ io.file.enabled ≠ 0
  · simp only [HobdSystem.mmcFileRm, if_pos hcheck, bind_assoc, talks_mmcFclose]
    refine (talks_query_bind not_moves).trans ⟨?_, ?_⟩
    · rintro ⟨status, _, rfl, hf⟩
      obtain ⟨r, hf⟩ := (atomic_mmcFopen _ _ _ _ _).mp hf
      exact ⟨{ r with remove := status }, hf⟩
    · rintro ⟨r, hf⟩
      exact ⟨r.remove, _, rfl, (atomic_mmcFopen _ _ _ _ _).mpr ⟨r, hf⟩⟩
  · simp only [HobdSystem.mmcFileRm, if_neg hcheck, exists_const]

theorem atomic_mmcFileSetEnabled (value : UInt32) :
    Atomic (mmcFileSetEnabled (H := H) value) (HobdSystem.mmcFileSetEnabled value) := by
  intro α f io io' t a
  rw [mmcFileSetEnabled, bind_assoc, talks_initCheck]
  by_cases hcheck : HobdSystem.initCheck io.file false = .ok
  · by_cases hvalue : value = 0
    · simp only [HobdSystem.mmcFileSetEnabled, if_pos hcheck, if_pos hvalue, bind_assoc,
        talks_enabled, exists_const]
      split_ifs with hen
      · simp only [bind_assoc, talks_setEnabled, talks_mmcFclose]
        rfl
      · rfl
    · simp only [HobdSystem.mmcFileSetEnabled, if_pos hcheck, if_neg hvalue, bind_assoc]
      refine (atomic_mmcFopen _ _ _ _ _).trans (exists_congr fun r => ?_)
      split_ifs with hopen
      · simp only [bind_assoc, talks_setEnabled]
        rfl
      · rfl
  · simp only [HobdSystem.mmcFileSetEnabled, if_neg hcheck, exists_const]
    rfl

/-- What disables the file does not depend on the library. -/
theorem talks_mmcFileSetEnabled_zero (r : FatResults H) {f : MmcFileErr → FileProgram H α} :
    (mmcFileSetEnabled 0 >>= f).Talks (fileWorld H) io t a io' ↔
      (f (HobdSystem.mmcFileSetEnabled 0 r io).1).Talks (fileWorld H)
        (HobdSystem.mmcFileSetEnabled 0 r io).2 t a io' := by
  have hr : ∀ r', HobdSystem.mmcFileSetEnabled 0 r' io = HobdSystem.mmcFileSetEnabled 0 r io :=
    fun r' => by simp only [HobdSystem.mmcFileSetEnabled, if_true]
  simp only [atomic_mmcFileSetEnabled 0 f io io' t a, hr, exists_const]

end Alone

/-! ### Rounds that are left alone -/

/-- What is done without the other thread coming in between. -/
inductive Round where
  | work (w : Work)
  | hardFlush

/-- What a round does with the file. -/
def Round.perform : Round → FileProgram H Unit
  | .work w => w.perform
  | .hardFlush => hardFlushTimeoutCb

/-- Rounds, one after the other. -/
def performAll : List Round → FileProgram H Unit
  | [] => pure ()
  | x :: xs => x.perform >>= fun _ => performAll xs

section Rounds

variable [DecidableEq H]

/-- A round in one piece. -/
def Round.whole (now : UInt64) (r : FatResults H) (s : MmcServer H) : Round → Option (MmcServer H)
  | .work (.entry mem) =>
    (HobdSystem.writeMmcEntry mem 0 r s.io).map fun io => countEntry { s with io := io }
  | .work (.request q) => some (q.perform now r s).2
  | .hardFlush => some (HobdSystem.hardFlushTimeoutCb r s)

/-- The server comes from one state to another by some rounds, at some times and with some answers
of the library. -/
def ComesTo : List Round → MmcServer H → MmcServer H → Prop
  | [], s, s' => s' = s
  | x :: xs, s, s' => ∃ now r s₁, x.whole now r s = some s₁ ∧ ComesTo xs s₁ s'

variable {α : Type} {io' : FileIo H} {t : List Empty} {a : α}

theorem talks_writeMmcEntry {io : FileIo H} (mem : List UInt8) {f : Unit → FileProgram H α} :
    (writeMmcEntry mem 0 >>= f).Talks (fileWorld H) io t a io' ↔
      ∃ r io₁, HobdSystem.writeMmcEntry mem 0 r io = some io₁ ∧
        (f ()).Talks (fileWorld H) io₁ t a io' := by
  rw [writeMmcEntry, bind_assoc, atomic_mmcFileWrite]
  refine exists_congr fun r => ?_
  by_cases herr : (HobdSystem.mmcFileWrite mem 1 (mmcEntryTotalSize (entryAt mem)).toUInt32 r
    io).1 ≠ .ok
  · simp only [HobdSystem.writeMmcEntry, if_pos herr, reduceCtorEq, false_and, exists_false]
    exact talks_halt
  · simp only [HobdSystem.writeMmcEntry, if_neg herr, ne_eq, not_true_eq_false, if_false,
      Option.some.injEq, exists_eq_left']
    rfl

/-- **A round that is left alone** comes to what it is in one piece. So the accesses have been put
down in the right order, and none of them is missing. -/
theorem talks_round (x : Round) (now : UInt64) (s : MmcServer H) {f : Unit → FileProgram H α} :
    (x.perform >>= f).Talks (fileWorld H) s.io t a io' ↔
      ∃ r s₁, x.whole now r s = some s₁ ∧ (f ()).Talks (fileWorld H) s₁.io t a io' := by
  match x with
  | .work (.entry mem) =>
    rw [Round.perform, Work.perform, bind_assoc, talks_writeMmcEntry]
    refine exists_congr fun r => ?_
    simp only [bind_assoc, talks_enabled, Round.whole, Option.map_eq_some_iff]
    constructor
    · rintro ⟨io₁, hwrite, hf⟩
      exact ⟨_, ⟨io₁, hwrite, rfl⟩, by rw [countEntry_io]; exact hf⟩
    · rintro ⟨_, ⟨io₁, hwrite, rfl⟩, hf⟩
      rw [countEntry_io] at hf
      exact ⟨io₁, hwrite, hf⟩
  | .work (.request q) =>
    simp only [Round.perform, Round.whole, Option.some.injEq, exists_eq_left']
    cases q with
    | getStats => exact (exists_const (FatResults H)).symm
    | rm => rw [Work.perform, bind_assoc]; exact atomic_mmcFileRm _ _ _ _ _
    | getFileSize => rw [Work.perform, bind_assoc]; exact atomic_mmcFileSize _ _ _ _ _
    | getState =>
      rw [Work.perform, bind_assoc, talks_mmcFileGetEnabled]
      exact (exists_const (FatResults H)).symm
    | setState state =>
      rw [Work.perform, bind_assoc]
      refine (atomic_mmcFileSetEnabled _ _ _ _ _ _).trans (exists_congr fun r => ?_)
      rw [bind_assoc, MmcRequest.perform, stateSetReq]
      by_cases herr : (HobdSystem.mmcFileSetEnabled state r s.io).1 ≠ .ok
      · simp only [if_pos herr, bind_assoc]
        exact (talks_mmcFileSetEnabled_zero r).trans talks_mmcFileGetEnabled
      · simp only [if_neg herr, bind_assoc]
        exact talks_mmcFileGetEnabled
  | .hardFlush =>
    simp only [Round.perform, Round.whole, Option.some.injEq, exists_eq_left']
    rw [hardFlushTimeoutCb, bind_assoc]
    exact atomic_mmcFileFlush 1 _ _ _ _ _

/-- **Threads that leave each other alone do what they do in one piece**: the access programs of
some rounds, one round after the other, bring the file where the rounds can bring the server's. -/
theorem performAll_alone (xs : List Round) (s : MmcServer H) (io' : FileIo H) :
    (performAll xs).Talks (fileWorld H) s.io [] () io' ↔ ∃ s', ComesTo xs s s' ∧ s'.io = io' := by
  induction xs generalizing s with
  | nil =>
    refine talks_pure.trans ⟨?_, ?_⟩
    · rintro ⟨-, -, hmoved⟩
      exact ⟨s, rfl, ((World.moved_iff_eq not_moves).mp hmoved).symm⟩
    · rintro ⟨s', rfl, rfl⟩
      exact ⟨rfl, rfl, Relation.ReflTransGen.refl⟩
  | cons x xs ih =>
    constructor
    · intro h
      obtain ⟨r, s₁, hwhole, h⟩ := (talks_round x 0 s).mp h
      obtain ⟨s', hcomes, rfl⟩ := (ih s₁).mp h
      exact ⟨s', ⟨0, r, s₁, hwhole, hcomes⟩, rfl⟩
    · rintro ⟨s', ⟨now, r, s₁, hwhole, hcomes⟩, rfl⟩
      exact (talks_round x now s).mpr ⟨r, s₁, hwhole, (ih s₁).mpr ⟨s', hcomes, rfl⟩⟩

/-- A round of the loop, or a flush by the timer, is a round here. -/
theorem exists_round_of_mmcEvent {e : MmcEvent H} {s s' : MmcServer H}
    (h : mmcEvent e s = some s') :
    ∃ (x : Round) (now : UInt64) (r : FatResults H) (s₀ : MmcServer H),
      s₀.io = s.io ∧ x.whole now r s₀ = some s' := by
  cases e with
  | hardFlush r => exact ⟨.hardFlush, 0, r, s, rfl, h⟩
  | request m now r =>
    obtain ⟨⟨reply, s''⟩, hstep, rfl⟩ := Option.map_eq_some_iff.mp h
    rcases mmcThreadStep_cases hstep with ⟨-, rfl⟩ | ⟨-, rfl | rfl | hlog | rfl⟩
    · exact ⟨.work (.request .rm), now, r, s, rfl, rfl⟩
    · exact ⟨.work (.request .getStats), now, r, s, rfl, rfl⟩
    · exact ⟨.work (.request .getState), now, r, s'', rfl, rfl⟩
    · obtain ⟨buffer, -, hlog⟩ := Option.bind_eq_some_iff.mp hlog
      simp only at hlog
      split_ifs at hlog
      exact ⟨.work (.entry (wordsBytes buffer.toList)), now, r, { s with msgRxBuffer := buffer },
        rfl, hlog⟩
    · exact ⟨.work (.request (.setState m.ipc.getMR0)), now, r, s, rfl, rfl⟩

/-- **A run of the server is one of the access programs**, with each of its events left alone. -/
theorem exists_performAll_of_mmcEvents {es : List (MmcEvent H)} {s s' : MmcServer H}
    (h : es.foldlM (fun s e => mmcEvent e s) s = some s') : ∃ xs : List Round,
      xs.length = es.length ∧ (performAll xs).Talks (fileWorld H) s.io [] () s'.io := by
  induction es generalizing s with
  | nil =>
    obtain rfl := Option.some.inj h
    exact ⟨[], rfl, talks_pure.mpr ⟨rfl, rfl, Relation.ReflTransGen.refl⟩⟩
  | cons e es ih =>
    obtain ⟨s₁, hevent, hrest⟩ := Option.bind_eq_some_iff.mp h
    obtain ⟨x, now, r, s₀, hio, hwhole⟩ := exists_round_of_mmcEvent hevent
    obtain ⟨xs, hlength, htalks⟩ := ih hrest
    exact ⟨x :: xs, congrArg (· + 1) hlength,
      hio ▸ (talks_round x now s₀).mpr ⟨r, s₁, hwhole, htalks⟩⟩

end Rounds

end Shared

end HobdSystem
