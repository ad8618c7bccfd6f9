import Mathlib.Data.List.Basic
import Mathlib.Tactic.SplitIfs

/-!
# The log file

The model of `mmc_file.c`, and of the two media functions through which the FAT library reaches
the card. The library itself is not part of the source. What is known of it is how it answers:
`HobdSystem.FatResults` has an answer for every call an operation can make, and carries the one
thing the code relies on, that a handle which is handed out is not open already. A property of
every run for all such answers is one for every library.

An operation takes the file and the library's side of it (`HobdSystem.FileIo`): the handles that
are open, and the calls that have been made, each with the file as it was when the call was made.
The record is `mmc_file_s`, with `NULL` as `none`. That the file is kept with every call has a
reason: the library calls back, through `fatio_media_read` and `fatio_media_write`, and these look
at the flag of the file. So what a call comes to on the card depends on the flag at that time, and
two calls that look alike may have different effects.

The operations are given as the source has them, one by one. Behind them are their results on a
file that is initialised, in terms of two helpers, `mmc_fopen` and `mmc_fclose`: those are all
that is used of an operation in the rest of the development. Most of the operations are harmless.
The one to look at is `mmc_file_set_enabled`, which sets the flag behind the open and clears it in
front of the close, and opens without a look at the handle it overwrites. What follows from that
is in `HobdSystem.Mmc.FileRuns`.
-/

namespace HobdSystem

variable {H : Type*}

/-- The codes of `mmc_file.h`. -/
inductive MmcFileErr where
  | ok
  | init
  | fs
  | notOpen
  | io
  deriving DecidableEq, Repr

/-- The value of a code. -/
def MmcFileErr.toUInt32 : MmcFileErr → UInt32
  | .ok => 0
  | .init => 1
  | .fs => 2
  | .notOpen => 3
  | .io => 4

/-- `mmc_file_s`. -/
structure MmcFile (H : Type*) where
  isInit : UInt32
  enabled : UInt32
  ref : Option H
  deriving DecidableEq, Repr

/-- `IS_INIT_VALUE`. -/
def isInitValue : UInt32 := 1

/-! ### The FAT library -/

/-- How the library answers the calls of one operation. `fl_fopen` is a function of the handles
that are open, since that is what the condition on it is about; the other answers are just given. -/
structure FatResults (H : Type*) where
  /-- What `fl_fopen` returns while some handles are open. -/
  fopen : List H → Option H
  remove : Int32
  fflush : Int32
  fwrite : Int32
  /-- The field `filelength` of the open file. -/
  filelength : UInt32
  fopen_not_mem : ∀ {handles : List H} {h : H}, fopen handles = some h → h ∉ handles

/-- A call of the library and its answer. -/
inductive FatCall (H : Type*) where
  | fopen (ref : Option H)
  | fclose (ref : H)
  | remove (status : Int32)
  | fflush (ref : Option H) (status : Int32)
  | fwrite (data : List UInt8) (size count : UInt32) (ref : Option H) (ret : Int32)
  deriving DecidableEq, Repr

/-- A call and the file as it is when the call is made. The media functions look at the file in
the course of the call, so this is what decides whether anything reaches the card. -/
structure Issued (H : Type*) where
  call : FatCall H
  file : MmcFile H
  deriving DecidableEq, Repr

/-- The file and the library's side of it. The calls are kept with the file as it was when they
were made, so that it can be said afterwards which of them reached the card. -/
structure FileIo (H : Type*) where
  file : MmcFile H
  /-- The handles `fl_fopen` has returned and `fl_fclose` has not been given. -/
  handles : List H
  /-- The calls made so far. -/
  calls : List (Issued H)
  deriving DecidableEq, Repr

/-- A call goes on record. -/
def FileIo.issue (c : FatCall H) (x : FileIo H) : FileIo H :=
  { x with calls := x.calls ++ [⟨c, x.file⟩] }

/-- The calls on the way from one state of the file to another. -/
def newCalls (x y : FileIo H) : List (Issued H) := y.calls.drop x.calls.length

/-! ### `mmc_file.c` -/

/-- `init_check`: an open file is asked for only while the file is enabled. -/
def initCheck (file : MmcFile H) (checkFile : Bool) : MmcFileErr :=
  if file.isInit ≠ isInitValue then .init
  else if checkFile ∧ file.enabled ≠ 0 ∧ file.ref.isNone then .notOpen
  else .ok

/-- `mmc_fopen`, which does not look at the handle it overwrites. -/
def mmcFopen (r : FatResults H) (x : FileIo H) : MmcFileErr × FileIo H :=
  let ref := r.fopen x.handles
  let x := x.issue (.fopen ref)
  (if ref.isNone then .fs else .ok,
    { x with file.ref := ref, handles := ref.toList ++ x.handles })

/-- `mmc_file_init`. -/
def mmcFileInit (x : FileIo H) : FileIo H :=
  { x with file := { isInit := isInitValue, enabled := 1, ref := none } }

/-- `mmc_file_open`. -/
def mmcFileOpen (r : FatResults H) (x : FileIo H) : MmcFileErr × FileIo H :=
  let ret := initCheck x.file false
  if ret = .ok ∧ x.file.enabled ≠ 0 ∧ x.file.ref.isNone then mmcFopen r x else (ret, x)

/-- `mmc_file_get_enabled`. -/
def mmcFileGetEnabled (file : MmcFile H) : UInt32 :=
  if initCheck file false = .ok then file.enabled else 0

/-- `mmc_file_size`: the code and the size. -/
def mmcFileSize (r : FatResults H) (file : MmcFile H) : MmcFileErr × UInt32 :=
  let ret := initCheck file true
  if ret = .ok ∧ file.enabled ≠ 0 then (ret, r.filelength) else (ret, 0)

/-- `mmc_file_write`. The count that is checked is computed in 32 bits and compared as an
`int`. -/
def mmcFileWrite (data : List UInt8) (size count : UInt32) (r : FatResults H) (x : FileIo H) :
    MmcFileErr × FileIo H :=
  let ret := initCheck x.file true
  if ret = .ok ∧ x.file.enabled ≠ 0 then
    (if r.fwrite ≠ (size * count).toInt32 then .io else .ok,
      x.issue (.fwrite data size count x.file.ref r.fwrite))
  else (ret, x)

variable [DecidableEq H]

/-- `mmc_fclose`. -/
def mmcFclose (x : FileIo H) : FileIo H :=
  match x.file.ref with
  | some ref =>
    let x := x.issue (.fclose ref)
    { x with file.ref := none, handles := x.handles.erase ref }
  | none => x

/-- `mmc_file_set_enabled`. The flag is cleared before the file is closed, and set after
the file is opened. -/
def mmcFileSetEnabled (enabled : UInt32) (r : FatResults H) (x : FileIo H) :
    MmcFileErr × FileIo H :=
  let ret := initCheck x.file false
  if ret = .ok then
    if enabled = 0 then
      -- disable if not already
      if x.file.enabled ≠ 0 then (ret, mmcFclose { x with file.enabled := 0 }) else (ret, x)
    else
      let (ret, x) := mmcFopen r x
      if ret = .ok then (ret, { x with file.enabled := 1 }) else (ret, x)
  else (ret, x)

/-- `mmc_file_close`. -/
def mmcFileClose (x : FileIo H) : MmcFileErr × FileIo H :=
  let ret := initCheck x.file false
  if ret = .ok ∧ x.file.enabled ≠ 0 then (ret, mmcFclose x) else (ret, x)

/-- `mmc_file_rm`: the file is opened again whether or not it could be removed. -/
def mmcFileRm (r : FatResults H) (x : FileIo H) : MmcFileErr × FileIo H :=
  let ret := initCheck x.file false
  if ret = .ok ∧ x.file.enabled ≠ 0 then
    let (ret, x) := mmcFopen r ((mmcFclose x).issue (.remove r.remove))
    (if ret = .ok ∧ r.remove ≠ 0 then .fs else ret, x)
  else (ret, x)

/-- `mmc_file_flush`: a hard flush closes the file and opens it again. -/
def mmcFileFlush (hardFlush : UInt32) (r : FatResults H) (x : FileIo H) :
    MmcFileErr × FileIo H :=
  let ret := initCheck x.file true
  if ret = .ok ∧ x.file.enabled ≠ 0 then
    if hardFlush ≠ 0 then mmcFopen r (mmcFclose x)
    else (if r.fflush ≠ 0 then .fs else ret, x.issue (.fflush x.file.ref r.fflush))
  else (ret, x)

/-! ### The media functions -/

/-- What the media functions do about a request of the library for `sectorCount` sectors of
`FAT_SECTOR_SIZE` bytes, when the card moves `moved` bytes: whether it is reported as a
success, and the transfer that takes place. A disabled file reports a success without a
transfer. -/
def fatioMedia (fatSectorSize : Int32) (file : MmcFile H) (sector sectorCount : UInt32)
    (moved : Int32) : Bool × Option (UInt32 × UInt32) :=
  if mmcFileGetEnabled file ≠ 0 then
    (moved = sectorCount.toInt32 * fatSectorSize, some (sector, sectorCount))
  else (true, none)

/-- `fatio_media_read`, when `mmc_block_read` moves `moved` bytes. -/
def fatioMediaRead (fatSectorSize : Int32) (file : MmcFile H) (sector sectorCount : UInt32)
    (moved : Int32) : Bool × Option (UInt32 × UInt32) :=
  fatioMedia fatSectorSize file sector sectorCount moved

/-- `fatio_media_write`, when `mmc_block_write` moves `moved` bytes. -/
def fatioMediaWrite (fatSectorSize : Int32) (file : MmcFile H) (sector sectorCount : UInt32)
    (moved : Int32) : Bool × Option (UInt32 × UInt32) :=
  fatioMedia fatSectorSize file sector sectorCount moved

/-! ### One operation after the other -/

/-- The operations, with the answers of the library. -/
inductive FileOp (H : Type*) where
  | init
  | openFile (r : FatResults H)
  | setEnabled (enabled : UInt32) (r : FatResults H)
  | close
  | rm (r : FatResults H)
  | size (r : FatResults H)
  | flush (hardFlush : UInt32) (r : FatResults H)
  | write (data : List UInt8) (size count : UInt32) (r : FatResults H)

/-- One operation: the code it returns, and what it leaves behind. -/
def fileOp : FileOp H → FileIo H → MmcFileErr × FileIo H
  | .init, x => (.ok, mmcFileInit x)
  | .openFile r, x => mmcFileOpen r x
  | .setEnabled enabled r, x => mmcFileSetEnabled enabled r x
  | .close, x => mmcFileClose x
  | .rm r, x => mmcFileRm r x
  | .size r, x => ((mmcFileSize r x.file).1, x)
  | .flush hardFlush r, x => mmcFileFlush hardFlush r x
  | .write data size count r, x => mmcFileWrite data size count r x

/-! ### What the operations come to

The operations on an initialised file, in terms of `mmc_fopen` and `mmc_fclose`. -/

section Spec

omit [DecidableEq H]

variable (r : FatResults H) (c : FatCall H) (x : FileIo H)

@[simp] theorem issue_file : (x.issue c).file = x.file := rfl

@[simp] theorem issue_handles : (x.issue c).handles = x.handles := rfl

@[simp] theorem issue_calls : (x.issue c).calls = x.calls ++ [⟨c, x.file⟩] := rfl

theorem mmcFopen_fst : (mmcFopen r x).1 = if (r.fopen x.handles).isNone then .fs else .ok := rfl

@[simp] theorem mmcFopen_ref : (mmcFopen r x).2.file.ref = r.fopen x.handles := rfl

@[simp] theorem mmcFopen_enabled : (mmcFopen r x).2.file.enabled = x.file.enabled := rfl

@[simp] theorem mmcFopen_isInit : (mmcFopen r x).2.file.isInit = x.file.isInit := rfl

@[simp] theorem mmcFopen_handles :
    (mmcFopen r x).2.handles = (r.fopen x.handles).toList ++ x.handles := rfl

@[simp] theorem mmcFopen_calls :
    (mmcFopen r x).2.calls = x.calls ++ [⟨.fopen (r.fopen x.handles), x.file⟩] := rfl

variable {x} {y : FileIo H}

theorem newCalls_eq {calls : List (Issued H)} (h : y.calls = x.calls ++ calls) :
    newCalls x y = calls := by
  rw [newCalls, h, List.drop_left]

theorem initCheck_false (h : x.file.isInit = isInitValue) : initCheck x.file false = .ok := by
  simp [initCheck, h]

theorem initCheck_true_eq_ok (h : x.file.isInit = isInitValue) :
    initCheck x.file true = .ok ↔ (x.file.enabled ≠ 0 → x.file.ref.isSome) := by
  rw [← Option.not_isNone]
  by_cases hen : x.file.enabled ≠ 0 <;> by_cases href : x.file.ref.isNone <;>
    simp [initCheck, h, hen, href]

theorem mmcFileOpen_snd (h : x.file.isInit = isInitValue) : (mmcFileOpen r x).2 =
    if x.file.enabled ≠ 0 ∧ x.file.ref.isNone then (mmcFopen r x).2 else x := by
  simp only [mmcFileOpen, initCheck_false h, true_and]
  split_ifs <;> rfl

theorem mmcFileWrite_snd (h : x.file.isInit = isInitValue) (data : List UInt8)
    (size count : UInt32) : (mmcFileWrite data size count r x).2 =
      if x.file.enabled ≠ 0 ∧ x.file.ref.isSome then
        x.issue (.fwrite data size count x.file.ref r.fwrite) else x := by
  by_cases hen : x.file.enabled ≠ 0
  · by_cases href : x.file.ref.isSome
    · rw [mmcFileWrite, if_pos ⟨(initCheck_true_eq_ok h).mpr fun _ => href, hen⟩,
        if_pos (And.intro hen href)]
    · rw [mmcFileWrite, if_neg (fun hc => href ((initCheck_true_eq_ok h).mp hc.1 hen)),
        if_neg (fun hc => href hc.2)]
  · rw [mmcFileWrite, if_neg (fun hc => hen hc.2), if_neg (fun hc => hen hc.1)]

end Spec

section Close

variable (r : FatResults H) {x : FileIo H}

@[simp] theorem mmcFclose_ref (x : FileIo H) : (mmcFclose x).file.ref = none := by
  unfold mmcFclose
  split
  · rfl
  · assumption

@[simp] theorem mmcFclose_enabled (x : FileIo H) :
    (mmcFclose x).file.enabled = x.file.enabled := by
  unfold mmcFclose
  split <;> rfl

@[simp] theorem mmcFclose_isInit (x : FileIo H) :
    (mmcFclose x).file.isInit = x.file.isInit := by
  unfold mmcFclose
  split <;> rfl

theorem mmcFclose_calls (x : FileIo H) :
    (mmcFclose x).calls = x.calls ++ x.file.ref.toList.map fun ref => ⟨.fclose ref, x.file⟩ := by
  unfold mmcFclose
  split <;> simp [*]

theorem mmcFclose_handles_of_ref {ref : H} (h : x.file.ref = some ref) :
    (mmcFclose x).handles = x.handles.erase ref := by
  unfold mmcFclose
  rw [h]
  rfl

/-- A file whose handle is the only open one leaves none open. -/
theorem mmcFclose_handles (h : x.handles = x.file.ref.toList) : (mmcFclose x).handles = [] := by
  unfold mmcFclose
  split <;> simp [*]

theorem mmcFileClose_snd (h : x.file.isInit = isInitValue) :
    (mmcFileClose x).2 = if x.file.enabled ≠ 0 then mmcFclose x else x := by
  simp only [mmcFileClose, initCheck_false h, true_and]
  split_ifs <;> rfl

theorem mmcFileRm_snd (h : x.file.isInit = isInitValue) : (mmcFileRm r x).2 =
    if x.file.enabled ≠ 0 then (mmcFopen r ((mmcFclose x).issue (.remove r.remove))).2 else x := by
  simp only [mmcFileRm, initCheck_false h, true_and]
  split_ifs <;> rfl

theorem mmcFileSetEnabled_snd (h : x.file.isInit = isInitValue) (enabled : UInt32) :
    (mmcFileSetEnabled enabled r x).2 =
      if enabled = 0 then
        if x.file.enabled ≠ 0 then mmcFclose { x with file.enabled := 0 } else x
      else if (r.fopen x.handles).isNone then (mmcFopen r x).2
      else { (mmcFopen r x).2 with file.enabled := 1 } := by
  simp only [mmcFileSetEnabled, initCheck_false h, if_true, mmcFopen_fst]
  split_ifs <;> first | rfl | contradiction

theorem mmcFileFlush_snd (h : x.file.isInit = isInitValue) (hardFlush : UInt32) :
    (mmcFileFlush hardFlush r x).2 =
      if x.file.enabled ≠ 0 ∧ x.file.ref.isSome then
        if hardFlush ≠ 0 then (mmcFopen r (mmcFclose x)).2
        else x.issue (.fflush x.file.ref r.fflush)
      else x := by
  by_cases hen : x.file.enabled ≠ 0
  · by_cases href : x.file.ref.isSome
    · rw [mmcFileFlush, if_pos ⟨(initCheck_true_eq_ok h).mpr fun _ => href, hen⟩,
        if_pos (And.intro hen href)]
      split_ifs <;> rfl
    · rw [mmcFileFlush, if_neg (fun hc => href ((initCheck_true_eq_ok h).mp hc.1 hen)),
        if_neg (fun hc => href hc.2)]
  · rw [mmcFileFlush, if_neg (fun hc => hen hc.2), if_neg (fun hc => hen hc.1)]

/-- An operation leaves the file initialised. -/
theorem fileOp_isInit (op : FileOp H) (h : x.file.isInit = isInitValue) :
    (fileOp op x).2.file.isInit = isInitValue := by
  cases op with
  | init => rfl
  | openFile r => rw [fileOp, mmcFileOpen_snd r h]; split_ifs <;> simpa using h
  | setEnabled e r => rw [fileOp, mmcFileSetEnabled_snd r h]; split_ifs <;> simpa using h
  | close => rw [fileOp, mmcFileClose_snd h]; split_ifs <;> simpa using h
  | rm r => rw [fileOp, mmcFileRm_snd r h]; split_ifs <;> simpa using h
  | size r => exact h
  | flush f r => rw [fileOp, mmcFileFlush_snd r h]; split_ifs <;> simpa using h
  | write d s c r => rw [fileOp, mmcFileWrite_snd r h]; split_ifs <;> simpa using h

end Close

/-! ### A library for examples -/

/-- Answers of a library that has two handles to give and with which every call succeeds
while it has one left. -/
def fatOk (written : Int32) : FatResults ℕ where
  fopen handles := if 1 ∈ handles then if 2 ∈ handles then none else some 2 else some 1
  remove := 0
  fflush := 0
  fwrite := written
  filelength := 0
  fopen_not_mem {handles h} heq := by
    split_ifs at heq with h1 h2
    · exact Option.some.inj heq ▸ h2
    · exact Option.some.inj heq ▸ h1

/-- Answers of a library with which no call succeeds. -/
def fatFail : FatResults ℕ where
  fopen _ := none
  remove := -1
  fflush := -1
  fwrite := -1
  filelength := 0
  fopen_not_mem heq := by simp at heq

/-- Memory before the file is initialised. -/
def blankIo : FileIo ℕ := ⟨⟨0, 0, none⟩, [], []⟩

end HobdSystem
