import HobdSystem.Library.Run
import HobdSystem.Mmc.File

/-!
# Runs of file operations

Two things one would like to hold of every run of the operations of `mmc_file.c`, and that
`mmc_file_set_enabled` breaks.

* **The card is there when the library is called.** The media functions report success without a
  transfer while the file is disabled. Disabling clears the flag before the file is closed, so
  what `fl_fclose` has left to write is lost, and enabling opens the file before the flag is set,
  so `fl_fopen` reads nothing (`HobdSystem.reachesCard_iff`).
* **The open handles are the file's handle.** Enabling a file that has a handle overwrites it –
  `mmc_file_open` looks first, `mmc_file_set_enabled` does not – and so does a second
  initialisation (`HobdSystem.keepsHandles_iff`).

In both cases these are the only steps that go wrong: a run has the property exactly if none of
its steps is of that kind. The two conditions are decidable and are about single steps, so that
they could be checked while a program runs (`HobdSystem.KeepsConnected`,
`HobdSystem.KeepsHandle`).

The two proofs are not alike. A call that did not reach the card stays on record, so the first
property is one of the last state of a run, and an operation only adds its own condition to it
(`HobdSystem.allReach_fileOp`). The second is one of every step, since what an operation has to do
with a handle depends on the one the file has. It is shown by the rule for invariants that goes
both ways (`Run.along_iff`), with the file having one handle or none as the invariant
(`HobdSystem.OneHandle`).
-/

namespace HobdSystem

open Run

variable {H : Type*} [DecidableEq H]

/-! ### Calls that reach the card -/

/-- A call is made while the file is enabled, so that whatever sectors the library reads or
writes in the course of it are transferred. -/
def ReachesCard (c : Issued H) : Prop :=
  c.file.enabled ≠ 0 ∧ ∀ fatSectorSize sector sectorCount moved,
    (fatioMediaRead fatSectorSize c.file sector sectorCount moved).2 =
        some (sector, sectorCount) ∧
      (fatioMediaWrite fatSectorSize c.file sector sectorCount moved).2 =
        some (sector, sectorCount)

/-- All calls made so far reached the card. -/
def AllReach (x : FileIo H) : Prop := ∀ c ∈ x.calls, ReachesCard c

/-- A step that does not call the library with the card disconnected: an open file is not
disabled, and a disabled one is not enabled. -/
def KeepsConnected (x : FileIo H) : FileOp H → Prop
  | .setEnabled enabled _ =>
    if enabled = 0 then x.file.enabled ≠ 0 → x.file.ref = none else x.file.enabled ≠ 0
  | _ => True

instance (x : FileIo H) : ∀ op, Decidable (KeepsConnected x op)
  | .setEnabled enabled _ => inferInstanceAs (Decidable (if enabled = 0 then _ else _))
  | .init | .openFile _ | .close | .rm _ | .size _ | .flush _ _ | .write _ _ _ _ => .isTrue trivial

section Reach

variable {x : FileIo H}

omit [DecidableEq H] in
/-- On an initialised file the flag decides. -/
theorem reachesCard_iff_enabled {c : Issued H} (h : c.file.isInit = isInitValue) :
    ReachesCard c ↔ c.file.enabled ≠ 0 := by
  refine ⟨And.left, fun hen => ⟨hen, fun fatSectorSize sector sectorCount moved => ?_⟩⟩
  have hget : mmcFileGetEnabled c.file ≠ 0 := by
    rw [mmcFileGetEnabled, initCheck, if_neg (not_not.mpr h)]
    simpa using hen
  simp only [fatioMediaRead, fatioMediaWrite, fatioMedia, if_pos hget, and_self]

omit [DecidableEq H] in
theorem allReach_snoc (h : x.file.isInit = isInitValue) {y : FileIo H} {c : FatCall H}
    (hcalls : y.calls = x.calls ++ [⟨c, x.file⟩]) :
    AllReach y ↔ AllReach x ∧ x.file.enabled ≠ 0 := by
  have hc : ReachesCard ⟨c, x.file⟩ ↔ x.file.enabled ≠ 0 := reachesCard_iff_enabled h
  rw [AllReach, hcalls, List.forall_mem_append, List.forall_mem_singleton, hc]
  rfl

omit [DecidableEq H] in
theorem allReach_mmcFopen (r : FatResults H) (h : x.file.isInit = isInitValue) :
    AllReach (mmcFopen r x).2 ↔ AllReach x ∧ x.file.enabled ≠ 0 :=
  allReach_snoc h (mmcFopen_calls r x)

theorem allReach_mmcFclose (h : x.file.isInit = isInitValue) :
    AllReach (mmcFclose x) ↔ AllReach x ∧ (x.file.ref ≠ none → x.file.enabled ≠ 0) := by
  cases href : x.file.ref with
  | none =>
    rw [AllReach, mmcFclose_calls, href]
    simp [AllReach]
  | some ref =>
    rw [allReach_snoc h (by rw [mmcFclose_calls, href]; rfl)]
    simp

/-- **One operation**: what it adds to the calls reaches the card exactly if the operation
is not of the kind that goes wrong. -/
theorem allReach_fileOp (op : FileOp H) (h : x.file.isInit = isInitValue) :
    AllReach (fileOp op x).2 ↔ AllReach x ∧ KeepsConnected x op := by
  cases op with
  | init => exact (and_iff_left trivial).symm
  | openFile r =>
    rw [fileOp, mmcFileOpen_snd r h]
    split_ifs with hc
    · exact (allReach_mmcFopen r h).trans (and_congr_right fun _ => iff_of_true hc.1 trivial)
    · exact (and_iff_left trivial).symm
  | setEnabled enabled r =>
    rw [fileOp, mmcFileSetEnabled_snd r h, KeepsConnected]
    by_cases he : enabled = 0
    · rw [if_pos he, if_pos he]
      split_ifs with hen
      · -- the flag is cleared already when the file is closed
        have hcleared : ({ x with file.enabled := 0 } : FileIo H).file.isInit = isInitValue := h
        refine (allReach_mmcFclose hcleared).trans (and_congr_right fun _ => ?_)
        simp [hen]
      · exact (and_iff_left fun hc => absurd hc hen).symm
    · rw [if_neg he, if_neg he]
      split_ifs
      · exact allReach_mmcFopen r h
      · exact allReach_mmcFopen r h
  | close =>
    rw [fileOp, mmcFileClose_snd h]
    split_ifs with hen
    · exact (allReach_mmcFclose h).trans
        (and_congr_right fun _ => iff_of_true (fun _ => hen) trivial)
    · exact (and_iff_left trivial).symm
  | rm r =>
    rw [fileOp, mmcFileRm_snd r h]
    split_ifs with hen
    · have hclose : (mmcFclose x).file.isInit = isInitValue := by simpa using h
      rw [allReach_mmcFopen r (by simpa using h), allReach_snoc hclose (issue_calls _ _),
        allReach_mmcFclose h]
      simp [hen, KeepsConnected]
    · exact (and_iff_left trivial).symm
  | size r => exact (and_iff_left trivial).symm
  | flush hardFlush r =>
    rw [fileOp, mmcFileFlush_snd r h]
    split_ifs with hc
    · rw [allReach_mmcFopen r (by simpa using h), allReach_mmcFclose h]
      simp [hc.1, KeepsConnected]
    · exact (allReach_snoc h (issue_calls _ _)).trans
        (and_congr_right fun _ => iff_of_true hc.1 trivial)
    · exact (and_iff_left trivial).symm
  | write data size count r =>
    rw [fileOp, mmcFileWrite_snd r h]
    split_ifs with hc
    · exact (allReach_snoc h (issue_calls _ _)).trans
        (and_congr_right fun _ => iff_of_true hc.1 trivial)
    · exact (and_iff_left trivial).symm

/-- **A run of operations** on an initialised file: all calls reach the card exactly if those
before the run did and every operation keeps the file connected. -/
theorem allReach_final (ops : List (FileOp H)) : ∀ {x : FileIo H}, x.file.isInit = isInitValue →
    (AllReach (final fileOp x ops) ↔ AllReach x ∧ Along fileOp KeepsConnected x ops) := by
  induction ops with
  | nil => exact fun _ => (and_iff_left trivial).symm
  | cons op ops ih =>
    intro x h
    rw [final_cons, ih (fileOp_isInit op h), allReach_fileOp op h]
    exact and_assoc

end Reach

/-- **Exactly the runs that never reach for a disconnected card**: every call of the library
that a run makes after the file is initialised reaches the card if and only if no step of
the run disables an open file or enables a disabled one. -/
theorem reachesCard_iff (x : FileIo H) (hx : x.calls = []) (ops : List (FileOp H)) :
    (∀ c ∈ (final fileOp (mmcFileInit x) ops).calls, ReachesCard c) ↔
      Along fileOp KeepsConnected (mmcFileInit x) ops := by
  have hnone : AllReach (mmcFileInit x) := fun c hc => by
    have hmem : c ∈ x.calls := hc
    rw [hx] at hmem
    exact absurd hmem (List.not_mem_nil)
  exact (allReach_final ops rfl).trans (and_iff_right hnone)

theorem reachesCard_iff_write :
    (final fileOp (mmcFileInit blankIo) [.openFile (fatOk 0), .write [1] 1 1 (fatOk 1),
        .flush 1 (fatOk 0), .close]).calls.length = 5 ∧
      ∀ c ∈ (final fileOp (mmcFileInit blankIo) [.openFile (fatOk 0), .write [1] 1 1 (fatOk 1),
        .flush 1 (fatOk 0), .close]).calls, ReachesCard c :=
  ⟨rfl, (reachesCard_iff blankIo rfl _).mpr (by decide)⟩

/-- Disabling the open file calls `fl_fclose` with the flag cleared. -/
theorem not_reachesCard :
    ¬∀ c ∈ (final fileOp (mmcFileInit blankIo) [.openFile (fatOk 0),
      .setEnabled 0 (fatOk 0)]).calls, ReachesCard c := by
  intro h
  exact absurd (h ⟨.fclose 1, ⟨1, 0, some 1⟩⟩ (by decide)).1 (by decide)

/-! ### Handles -/

/-- **The open handles are the file's handle**, and there is none if it has none. -/
def HandlesKept (x : FileIo H) : Prop := ∀ h, h ∈ x.handles ↔ x.file.ref = some h

/-- A step that does not overwrite a handle. Enabling a file opens it, also if it is open already,
and then the handle it had is lost. -/
def KeepsHandle (x : FileIo H) : FileOp H → Prop
  | .setEnabled enabled _ => enabled ≠ 0 → x.file.ref = none
  | .init => x.file.ref = none
  | _ => True

instance (x : FileIo H) : ∀ op, Decidable (KeepsHandle x op)
  | .setEnabled enabled _ => inferInstanceAs (Decidable (enabled ≠ 0 → x.file.ref = none))
  | .init => inferInstanceAs (Decidable (x.file.ref = none))
  | .openFile _ | .close | .rm _ | .size _ | .flush _ _ | .write _ _ _ _ => .isTrue trivial

/-- The file is initialised and its handle is the only open one. -/
structure OneHandle (x : FileIo H) : Prop where
  isInit : x.file.isInit = isInitValue
  handles : x.handles = x.file.ref.toList

section Handles

variable {x : FileIo H}

omit [DecidableEq H] in
theorem OneHandle.handlesKept (h : OneHandle x) : HandlesKept x := fun a => by
  rw [h.handles, Option.mem_toList]

omit [DecidableEq H] in
/-- A file without a handle that is opened has the only open one. -/
theorem OneHandle.mmcFopen (r : FatResults H) (h : x.file.isInit = isInitValue)
    (hnone : x.handles = []) : OneHandle (mmcFopen r x).2 :=
  ⟨h, by rw [mmcFopen_handles, mmcFopen_ref, hnone, List.append_nil]⟩

theorem OneHandle.mmcFclose (h : OneHandle x) : OneHandle (mmcFclose x) :=
  ⟨by rw [mmcFclose_isInit, h.isInit], by rw [mmcFclose_handles h.handles, mmcFclose_ref]; rfl⟩

/-- One operation that does not overwrite a handle. -/
theorem OneHandle.fileOp (h : OneHandle x) {op : FileOp H} (hkeep : KeepsHandle x op) :
    OneHandle (fileOp op x).2 := by
  have hclosed : (HobdSystem.mmcFclose x).handles = [] := mmcFclose_handles h.handles
  cases op with
  | init => exact ⟨rfl, by
      change x.handles = []
      rw [h.handles, show x.file.ref = none from hkeep, Option.toList_none]⟩
  | openFile r =>
    rw [HobdSystem.fileOp, mmcFileOpen_snd r h.isInit]
    split_ifs with hc
    · refine OneHandle.mmcFopen r h.isInit ?_
      rw [h.handles, Option.isNone_iff_eq_none.mp hc.2, Option.toList_none]
    · exact h
  | setEnabled enabled r =>
    rw [HobdSystem.fileOp, mmcFileSetEnabled_snd r h.isInit]
    by_cases he : enabled = 0
    · rw [if_pos he]
      split_ifs
      · exact OneHandle.mmcFclose ⟨h.isInit, h.handles⟩
      · exact h
    · have hopen : OneHandle (HobdSystem.mmcFopen r x).2 := by
        refine OneHandle.mmcFopen r h.isInit ?_
        rw [h.handles, show x.file.ref = none from hkeep he, Option.toList_none]
      rw [if_neg he]
      split_ifs
      · exact hopen
      · exact ⟨hopen.isInit, hopen.handles⟩
  | close =>
    rw [HobdSystem.fileOp, mmcFileClose_snd h.isInit]
    split_ifs
    · exact h.mmcFclose
    · exact h
  | rm r =>
    rw [HobdSystem.fileOp, mmcFileRm_snd r h.isInit]
    split_ifs
    · exact OneHandle.mmcFopen r h.mmcFclose.isInit hclosed
    · exact h
  | size r => exact h
  | flush hardFlush r =>
    rw [HobdSystem.fileOp, mmcFileFlush_snd r h.isInit]
    split_ifs
    · exact OneHandle.mmcFopen r h.mmcFclose.isInit hclosed
    · exact ⟨h.isInit, h.handles⟩
    · exact h
  | write data size count r =>
    rw [HobdSystem.fileOp, mmcFileWrite_snd r h.isInit]
    split_ifs
    · exact ⟨h.isInit, h.handles⟩
    · exact h

/-- An operation that overwrites a handle leaves it open and out of reach. -/
theorem keepsHandle_of_handlesKept (h : OneHandle x) {op : FileOp H}
    (hkept : HandlesKept (HobdSystem.fileOp op x).2) : KeepsHandle x op := by
  cases op with
  | init =>
    by_contra hc
    obtain ⟨ref, href⟩ := Option.ne_none_iff_exists'.mp hc
    have hmem : ref ∈ x.handles := by rw [h.handles, href]; exact List.mem_singleton_self ref
    exact absurd ((hkept ref).mp hmem) (by simp [fileOp, mmcFileInit])
  | setEnabled enabled r =>
    intro he
    by_contra hc
    obtain ⟨ref, href⟩ := Option.ne_none_iff_exists'.mp hc
    have hmem : ref ∈ x.handles := by rw [h.handles, href]; exact List.mem_singleton_self ref
    rw [fileOp, mmcFileSetEnabled_snd r h.isInit, if_neg he] at hkept
    -- the handle is still open, so it would have to be the one that is handed out
    have hopen : r.fopen x.handles = some ref := by
      split_ifs at hkept
      · exact (hkept ref).mp (by simp [hmem])
      · exact (hkept ref).mp (by simp [hmem])
    exact r.fopen_not_mem hopen hmem
  | openFile _ | close | rm _ | size _ | flush _ _ | write _ _ _ _ => trivial

end Handles

/-- **Exactly the runs that lose no handle**: after every operation of a run on a file that
has just been initialised the open handles are the file's handle, if and only if no step
enables or initialises a file that has one. -/
theorem keepsHandles_iff (x : FileIo H) (hx : x.handles = []) (ops : List (FileOp H)) :
    Along fileOp (fun x op => HandlesKept (fileOp op x).2) (mmcFileInit x) ops ↔
      Along fileOp KeepsHandle (mmcFileInit x) ops := by
  refine along_iff fileOp OneHandle (fun x op h hkeep => ?_)
    (fun x op h hkept => keepsHandle_of_handlesKept h hkept) ops ⟨rfl, hx⟩
  have hnext := h.fileOp hkeep
  exact ⟨hnext, hnext.handlesKept⟩

theorem keepsHandles_iff_toggle :
    Along fileOp (fun x op => HandlesKept (fileOp op x).2) (mmcFileInit blankIo)
      [.openFile (fatOk 0), .setEnabled 0 (fatOk 0), .setEnabled 1 (fatOk 0), .rm (fatOk 0)] :=
  (keepsHandles_iff blankIo rfl _).mpr (by decide)

/-- Enabling the file that has just been opened opens it a second time. -/
theorem not_handlesKept :
    ¬Along fileOp (fun x op => HandlesKept (fileOp op x).2) (mmcFileInit blankIo)
      [.openFile (fatOk 0), .setEnabled 1 (fatOk 0)] := by
  rintro ⟨-, h, -⟩
  exact absurd ((h 1).mp (by decide)) (by decide)

end HobdSystem
