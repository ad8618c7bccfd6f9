import HobdSystem.Mmc.FileRuns
import HobdSystem.Mmc.Sharing

/-!
# Two threads on one log file

The MMC thread and the thread of the time server run on different cores, and
`hard_flush_timeout_cb` comes whenever its time has come. So between any two accesses of the one
thread to `g_mmc_file` there can be some of the other.

**That goes wrong as soon as both use the file**, and only then
(`HobdSystem.Shared.shared_file_safe_iff`). Going wrong is meant literally: a handle is passed to
the FAT library, or looked into, that is `NULL` or closed. While the file is disabled the timer
looks at the flag and leaves, so that enabling the file is safe. From then on nothing the MMC
thread is asked for is, but for its counters and the state: not an entry, not the size, not a
removal, and no change of the state.

The one direction is a proof by rely and guarantee. The threads never work on the file at the same
time: the flag `enabled` says whose turn it is (`HobdSystem.Shared.Exclusive`). It is the timer's
while the flag is set and the MMC thread's while it is not, and only the MMC thread changes it. So
the triples for the operations of `mmc_file.c` are proved once, for a thread whose turn it is, and
serve both: with the flag set for the timer, and with the flag cleared for the MMC thread, which
then does nothing but open the file. They serve a third time for an MMC thread that has no timer
beside it, and that shows that it is the timer which makes the difference.

For the other direction there is an interleaving for every kind of request
(`HobdSystem.Shared.not_allowedFrom_of_touches`). All of them have one shape: the MMC thread gets
to where it has checked the handle, the timer closes the file, and the MMC thread reads the handle
once more and uses it (`HobdSystem.Shared.UsesHandle`). What the thread did for the requests
before that is walked through in one piece, so that the request may come at any place in a list.
-/

namespace HobdSystem

namespace Shared

open Dialogue

variable {H : Type} [DecidableEq H]

/-! ### Which requests use the file -/

/-- Something is done with the handle of an enabled file. Only the two requests that read the
state or the counters leave it alone. -/
def Work.Touches : Work → Prop
  | .entry _ => True
  | .request .getStats => False
  | .request .rm => True
  | .request .getFileSize => True
  | .request (.setState _) => True
  | .request .getState => False

/-- A disabled file is enabled, if the library can open it. -/
def Work.enables : Work → Bool
  | .entry _ => false
  | .request .getStats => false
  | .request .rm => false
  | .request .getFileSize => false
  | .request (.setState state) => state ≠ 0
  | .request .getState => false

/-- **The file is left alone while it is enabled**: once it is, or may be, nothing uses it. -/
def LeavesAlone : Bool → List Work → Prop
  | _, [] => True
  | true, w :: ws => ¬w.Touches ∧ LeavesAlone true ws
  | false, w :: ws => LeavesAlone w.enables ws

/-! ### Whose turn it is -/

/-- The handle that the file holds is open. -/
def RefOpen (io : FileIo H) : Prop := ∀ h, io.file.ref = some h → h ∈ io.handles

/-- **The flag says whose turn it is**: while `own` is true of it, the other thread changes nothing,
and this one may change everything but the flag. -/
structure Exclusive (own : UInt32 → Prop) (rely guar : FileIo H → FileIo H → Prop) : Prop where
  eq_of_rely : ∀ {s s'}, own s.file.enabled → rely s s' → s' = s
  guar_of_eq : ∀ {s s'}, own s.file.enabled → s'.file.enabled = s.file.enabled → guar s s'

/-- It is this thread's turn, and the file is in some state. -/
def Owned (own : UInt32 → Prop) (A : FileIo H → Prop) (s : FileIo H) : Prop :=
  own s.file.enabled ∧ A s

/-- A thread passes open handles to the library only. -/
abbrev Safe {α : Type} (rely guar : FileIo H → FileIo H → Prop) (d : FileProgram H α)
    (P : FileIo H → Prop) (Q : α → FileIo H → Prop) : Prop :=
  d.Meets (fileWorld H) rely guar FileAccess.Allowed P Q

section Reads

variable {rely guar : FileIo H → FileIo H → Prop} {P : FileIo H → Prop}

/-- A read, whoever's turn it is. -/
theorem safe_read (hguar : ∀ s, guar s s) (hP : StableUnder rely P) (q : FileAccess H)
    (hok : ∀ s, q.Allowed s) (hread : ∀ x s s', (fileWorld H).serves q x s s' → s' = s) :
    Safe rely guar (query q) P fun _ => P := by
  refine meets_query (fun s _ => hok s) (fun _ => hP) fun s x s' hs h => ?_
  obtain rfl := hread x s s' h
  exact ⟨hguar s', hs⟩

theorem safe_initCheck (hguar : ∀ s, guar s s) (hP : StableUnder rely P) (checkFile : Bool) :
    Safe rely guar (initCheck (H := H) checkFile) P fun _ => P := by
  refine (safe_read hguar hP .isInit (fun _ => trivial) fun _ _ _ h => h.2).bind fun init => ?_
  split_ifs
  · exact meets_pure fun _ hs => hs
  · refine (safe_read hguar hP .enabled (fun _ => trivial) fun _ _ _ h => h.2).bind fun en => ?_
    split_ifs
    · exact (safe_read hguar hP .ref (fun _ => trivial) fun _ _ _ h => h.2).bind fun _ =>
        meets_pure fun _ hs => hs
    · exact meets_pure fun _ hs => hs
  · exact meets_pure fun _ hs => hs

theorem safe_mmcFileGetEnabled (hguar : ∀ s, guar s s) (hP : StableUnder rely P) :
    Safe rely guar (mmcFileGetEnabled (H := H)) P fun _ => P := by
  refine (safe_initCheck hguar hP false).bind fun status => ?_
  split_ifs
  · exact safe_read hguar hP .enabled (fun _ => trivial) fun _ _ _ h => h.2
  · exact meets_pure fun _ hs => hs

/-- What does not use the file is safe at any time. -/
theorem safe_serve (hguar : ∀ s, guar s s) {ws : List Work} (h : LeavesAlone true ws) :
    Safe rely guar (serve (H := H) ws) (fun _ => True) fun _ _ => True := by
  have hstable : StableUnder rely fun _ => True := fun _ _ _ _ => trivial
  induction ws with
  | nil => exact meets_pure fun _ hs => hs
  | cons w ws ih =>
    refine Meets.bind (R := fun _ _ => True) ?_ fun _ => ih h.2
    match w, h.1 with
    | .request .getStats, _ => exact meets_pure fun _ hs => hs
    | .request .getState, _ =>
      exact (safe_mmcFileGetEnabled hguar hstable).bind fun _ => meets_pure fun _ hs => hs
    | .entry _, hw | .request .rm, hw | .request .getFileSize, hw | .request (.setState _), hw =>
      exact absurd trivial hw

end Reads

section Exclusive

variable {own : UInt32 → Prop} {rely guar : FileIo H → FileIo H → Prop} {A : FileIo H → Prop}

omit [DecidableEq H] in
theorem Exclusive.stable (hx : Exclusive own rely guar) (A : FileIo H → Prop) :
    StableUnder rely (Owned own A) := by
  intro s s' hs hrely
  rwa [hx.eq_of_rely hs.1 hrely]

/-- An access in turn, which does not change the flag. -/
theorem Exclusive.access (hx : Exclusive own rely guar) (q : FileAccess H)
    {R : q.Answer → FileIo H → Prop}
    (hkeep : ∀ x s s', (fileWorld H).serves q x s s' → s'.file.enabled = s.file.enabled)
    (hok : ∀ s, A s → q.Allowed s)
    (hserve : ∀ s x s', A s → (fileWorld H).serves q x s s' → R x s') :
    Safe rely guar (query q) (Owned own A) fun x => Owned own (R x) := by
  refine meets_query (fun s hs => hok s hs.2) (fun x => hx.stable (R x)) fun s x s' hs h => ?_
  have hen := hkeep x s s' h
  exact ⟨hx.guar_of_eq hs.1 hen, hen ▸ hs.1, hserve s x s' hs.2 h⟩

/-- A read in turn returns what is still there afterwards. -/
theorem Exclusive.read (hx : Exclusive own rely guar) (q : FileAccess H)
    (value : FileIo H → q.Answer) (hok : ∀ s, q.Allowed s)
    (hread : ∀ x s s', (fileWorld H).serves q x s s' → x = value s ∧ s' = s) :
    Safe rely guar (query q) (Owned own A) fun x => Owned own fun s => A s ∧ value s = x := by
  refine hx.access q (fun x s s' h => by rw [(hread x s s' h).2]) (fun s _ => hok s) ?_
  intro s x s' hs h
  obtain ⟨rfl, rfl⟩ := hread x s s' h
  exact ⟨hs, rfl⟩

theorem Exclusive.isInit (hx : Exclusive own rely guar) : Safe rely guar (isInit (H := H))
    (Owned own A) fun init => Owned own fun s => A s ∧ s.file.isInit = init :=
  hx.read .isInit (fun s => s.file.isInit) (fun _ => trivial) fun _ _ _ h => h

theorem Exclusive.enabled (hx : Exclusive own rely guar) : Safe rely guar (enabled (H := H))
    (Owned own A) fun en => Owned own fun s => A s ∧ s.file.enabled = en :=
  hx.read .enabled (fun s => s.file.enabled) (fun _ => trivial) fun _ _ _ h => h

theorem Exclusive.ref (hx : Exclusive own rely guar) : Safe rely guar (ref (H := H))
    (Owned own A) fun r => Owned own fun s => A s ∧ s.file.ref = r :=
  hx.read .ref (fun s => s.file.ref) (fun _ => trivial) fun _ _ _ h => h

theorem Exclusive.setRef (hx : Exclusive own rely guar) (value : Option H)
    (hvalue : ∀ s : FileIo H, A s → ∀ h, value = some h → h ∈ s.handles) :
    Safe rely guar (setRef value) (Owned own A) fun _ => Owned own RefOpen := by
  refine hx.access (.setRef value) ?_ (fun _ _ => trivial) ?_
  · rintro _ _ _ rfl
    rfl
  · rintro s _ _ hs rfl
    exact hvalue s hs

theorem Exclusive.mmcFclose (hx : Exclusive own rely guar) :
    Safe rely guar (mmcFclose (H := H)) (Owned own RefOpen) fun _ => Owned own RefOpen := by
  refine hx.ref.bind fun r => ?_
  split_ifs with hr
  · -- the handle is read again, and it is the same
    obtain ⟨h, rfl⟩ := Option.isSome_iff_exists.mp hr
    refine hx.ref.bind fun r' => ?_
    refine Meets.bind (R := fun _ => Owned own fun _ => True) ?_
      fun _ => hx.setRef none fun _ _ _ hnone => absurd hnone (by simp)
    refine hx.access (.fclose r') ?_ ?_ fun _ _ _ _ _ => trivial
    · rintro _ s _ rfl
      rcases r' with - | h' <;> rfl
    · rintro s ⟨⟨hopen, href⟩, href'⟩
      exact ⟨h, hopen h href, href'.symm.trans href⟩
  · exact meets_pure fun s hs => ⟨hs.1, hs.2.1⟩

theorem Exclusive.mmcFopen (hx : Exclusive own rely guar) :
    Safe rely guar (mmcFopen (H := H)) (Owned own RefOpen) fun _ => Owned own RefOpen := by
  refine Meets.bind (R := fun x => Owned own fun s => ∀ h, x = some h → h ∈ s.handles) ?_
    fun x => (hx.setRef x fun _ hs => hs).bind fun _ => hx.ref.bind fun _ =>
      meets_pure fun s hs => ⟨hs.1, hs.2.1⟩
  refine hx.access .fopen ?_ (fun _ _ => trivial) ?_
  · rintro _ _ _ ⟨-, rfl⟩
    rfl
  · rintro s _ _ - ⟨-, rfl⟩ h rfl
    exact List.mem_cons_self

theorem Exclusive.initCheck (hx : Exclusive own rely guar) (checkFile : Bool) :
    Safe rely guar (initCheck (H := H) checkFile) (Owned own RefOpen) fun err => Owned own fun s =>
      RefOpen s ∧ (checkFile → err = .ok → s.file.enabled ≠ 0 → s.file.ref.isSome) := by
  refine hx.isInit.bind fun init => ?_
  split_ifs with hinit hcheck
  · exact meets_pure fun s hs => ⟨hs.1, hs.2.1, fun _ herr => absurd herr (by decide)⟩
  · refine hx.enabled.bind fun en => ?_
    split_ifs with hen
    · refine hx.ref.bind fun r => meets_pure fun s hs => ⟨hs.1, hs.2.1.1.1, fun _ herr _ => ?_⟩
      rcases r with - | h
      · exact absurd herr (by simp)
      · rw [hs.2.2]
        rfl
    · exact meets_pure fun s hs =>
        ⟨hs.1, hs.2.1.1, fun _ _ hs' => absurd (hs.2.2.trans (not_not.mp hen)) hs'⟩
  · exact meets_pure fun s hs => ⟨hs.1, hs.2.1, fun h => absurd h hcheck⟩

theorem Exclusive.whenEnabled (hx : Exclusive own rely guar) {α : Type} {ret : MmcFileErr}
    {otherwise : α} {body : FileProgram H α} {Q : α → FileIo H → Prop}
    (hbody : ret = .ok → Safe rely guar body (Owned own fun s => A s ∧ s.file.enabled ≠ 0) Q)
    (hQ : ∀ s, Owned own A s → Q otherwise s) :
    Safe rely guar (whenEnabled ret otherwise body) (Owned own A) Q := by
  unfold Shared.whenEnabled
  split_ifs with hret
  · refine hx.enabled.bind fun en => ?_
    split_ifs with hen
    · exact (hbody hret).mono (fun s hs => ⟨hs.1, hs.2.1, hs.2.2 ▸ hen⟩) fun _ _ hs => hs
    · exact meets_pure fun s hs => hQ s ⟨hs.1, hs.2.1⟩
  · exact meets_pure hQ

/-- An operation that checks the file and then uses its handle, if it is enabled. -/
theorem Exclusive.checked (hx : Exclusive own rely guar) {α : Type} (q : Option H → FileAccess H)
    (otherwise : MmcFileErr → α) (f : MmcFileErr → ∀ r, (q r).Answer → α)
    (hq : ∀ r s, (∃ h ∈ s.handles, r = some h) → (q r).Allowed s)
    (hkeep : ∀ r x s s', (fileWorld H).serves (q r) x s s' →
      s'.file = s.file ∧ s'.handles = s.handles) :
    Safe rely guar (Shared.initCheck true >>= fun ret => Shared.whenEnabled ret (otherwise ret)
      (Shared.ref >>= fun r => query (q r) >>= fun x => pure (f ret r x)))
      (Owned own RefOpen) fun _ => Owned own RefOpen := by
  refine (hx.initCheck true).bind fun ret => hx.whenEnabled (fun hret => ?_)
    fun s hs => ⟨hs.1, hs.2.1⟩
  refine hx.ref.bind fun r => Meets.bind (R := fun _ => Owned own RefOpen) ?_ fun _ =>
    meets_pure fun _ hs => hs
  refine hx.access (q r) (fun x s s' h => by rw [(hkeep r x s s' h).1]) ?_ ?_
  · rintro s ⟨⟨⟨hopen, hsome⟩, hen⟩, href⟩
    obtain ⟨h, hh⟩ := Option.isSome_iff_exists.mp (hsome rfl hret hen)
    exact hq r s ⟨h, hopen h hh, href.symm.trans hh⟩
  · rintro s x s' ⟨⟨⟨hopen, -⟩, -⟩, -⟩ h h' href
    rw [(hkeep r x s s' h).1] at href
    rw [(hkeep r x s s' h).2]
    exact hopen h' href

theorem Exclusive.mmcFileWrite (hx : Exclusive own rely guar) (data : List UInt8)
    (size count : UInt32) : Safe rely guar (mmcFileWrite (H := H) data size count)
      (Owned own RefOpen) fun _ => Owned own RefOpen := by
  refine hx.checked (fun r => .fwrite data size count r) id _ (fun _ _ h => h) ?_
  rintro _ _ _ _ rfl
  exact ⟨rfl, rfl⟩

theorem Exclusive.mmcFileSize (hx : Exclusive own rely guar) : Safe rely guar
    (mmcFileSize (H := H)) (Owned own RefOpen) fun _ => Owned own RefOpen := by
  refine hx.checked (fun r => .filelength r) (fun ret => (ret, 0)) (fun ret _ size => (ret, size))
    (fun _ _ h => h) ?_
  rintro _ _ _ _ rfl
  exact ⟨rfl, rfl⟩

theorem Exclusive.mmcFileRm (hx : Exclusive own rely guar) : Safe rely guar
    (mmcFileRm (H := H)) (Owned own RefOpen) fun _ => Owned own RefOpen := by
  refine (hx.initCheck false).bind fun ret => hx.whenEnabled (fun _ => ?_)
    fun s hs => ⟨hs.1, hs.2.1⟩
  refine Meets.bind (hx.mmcFclose.mono (fun s hs => ⟨hs.1, hs.2.1.1⟩) fun _ _ hs => hs) fun _ =>
    Meets.bind (R := fun _ => Owned own RefOpen) ?_ fun _ => hx.mmcFopen.bind fun _ =>
      meets_pure fun _ hs => hs
  refine hx.access .remove ?_ (fun _ _ => trivial) ?_
  · rintro _ _ _ rfl
    rfl
  · rintro _ _ _ hs rfl
    exact hs

/-- The MMC thread, which may change the flag when it is its turn. It is while the file is disabled,
and nobody is promised more than that a file which is enabled then is open. -/
structure Switching (own : UInt32 → Prop) (rely guar : FileIo H → FileIo H → Prop) : Prop extends
    Exclusive own rely guar where
  guar_refl : ∀ s, guar s s
  own_zero : own 0
  guar_of_refOpen : ∀ {s s'}, own s.file.enabled → RefOpen s' → guar s s'

theorem Switching.setEnabled (hx : Switching own rely guar) (value : UInt32) :
    Safe rely guar (setEnabled (H := H) value) (Owned own RefOpen) fun _ s =>
      own value → Owned own RefOpen s := by
  refine meets_query (fun _ _ => trivial) (fun _ s s' hs hrely hown => ?_) ?_
  · exact hx.stable RefOpen s s' (hs hown) hrely
  · rintro s _ _ hs rfl
    exact ⟨hx.guar_of_refOpen hs.1 hs.2, fun hown => ⟨hown, hs.2⟩⟩

theorem Switching.mmcFileSetEnabled (hx : Switching own rely guar) (value : UInt32) :
    Safe rely guar (mmcFileSetEnabled (H := H) value) (Owned own RefOpen) fun err s =>
      (err ≠ .ok ∨ value = 0 ∨ own 1) → Owned own RefOpen s := by
  refine (hx.initCheck false).bind fun ret => ?_
  split_ifs with hret hvalue
  · refine hx.enabled.bind fun en => ?_
    split_ifs
    · refine Meets.bind ((hx.setEnabled 0).mono (fun s hs => ⟨hs.1, hs.2.1.1⟩) fun _ _ hs => hs)
        fun _ => Meets.bind (hx.mmcFclose.mono (fun s hs => hs hx.own_zero) fun _ _ hs => hs)
          fun _ => meets_pure fun _ hs _ => hs
    · exact meets_pure fun s hs _ => ⟨hs.1, hs.2.1.1⟩
  · refine Meets.bind (hx.mmcFopen.mono (fun s hs => ⟨hs.1, hs.2.1⟩) fun _ _ hs => hs)
      fun err => ?_
    split_ifs with herr
    · refine (hx.setEnabled 1).bind fun _ => meets_pure fun s hs hcases => hs ?_
      rcases hcases with hne | hzero | hown
      · exact absurd herr hne
      · exact absurd hzero hvalue
      · exact hown
    · exact meets_pure fun _ hs _ => hs
  · exact meets_pure fun s hs _ => ⟨hs.1, hs.2.1⟩

theorem Switching.perform (hx : Switching own rely guar) (w : Work) :
    Safe rely guar (w.perform (H := H)) (Owned own RefOpen) fun _ s =>
      (w.enables = true → own 1) → Owned own RefOpen s := by
  match w with
  | .entry mem =>
    refine Meets.bind (R := fun _ => Owned own RefOpen) ?_ fun _ => hx.enabled.bind fun _ =>
      meets_pure fun s hs _ => ⟨hs.1, hs.2.1⟩
    refine (hx.mmcFileWrite ..).bind fun err => ?_
    split_ifs with herr hflush
    · exact meets_halt
    · exact absurd rfl hflush
    · exact meets_pure fun _ hs => hs
  | .request .getStats => exact meets_pure fun _ hs _ => hs
  | .request .rm => exact hx.mmcFileRm.bind fun _ => meets_pure fun _ hs _ => hs
  | .request .getFileSize => exact hx.mmcFileSize.bind fun _ => meets_pure fun _ hs _ => hs
  | .request .getState =>
    exact (safe_mmcFileGetEnabled hx.guar_refl (hx.stable RefOpen)).bind fun _ =>
      meets_pure fun _ hs _ => hs
  | .request (.setState state) =>
    have hstable : StableUnder rely fun s => (state = 0 ∨ own 1) → Owned own RefOpen s :=
      fun s s' hs hrely hcases => hx.stable RefOpen s s' (hs hcases) hrely
    refine (hx.mmcFileSetEnabled state).bind fun err => ?_
    refine Meets.bind (R := fun _ s => (state = 0 ∨ own 1) → Owned own RefOpen s) ?_ fun _ =>
      (safe_mmcFileGetEnabled hx.guar_refl hstable).bind fun _ => meets_pure fun s hs hown =>
        hs ?_
    · split_ifs with herr
      · exact (hx.mmcFileSetEnabled 0).mono (fun s hs => hs (Or.inl herr))
          fun _ s hs _ => hs (Or.inr (Or.inl rfl))
      · exact meets_pure fun s hs hcases => hs (Or.inr hcases)
    · by_cases hstate : state = 0
      · exact Or.inl hstate
      · exact Or.inr (hown (decide_eq_true hstate))

/-- **The MMC thread is safe** if it is always its turn, or if it leaves the file alone from when it
may be enabled on. -/
theorem Switching.serve (hx : Switching own rely guar) {ws : List Work}
    (h : own 1 ∨ LeavesAlone false ws) :
    Safe rely guar (serve (H := H) ws) (Owned own RefOpen) fun _ _ => True := by
  induction ws with
  | nil => exact meets_pure fun _ _ => trivial
  | cons w ws ih =>
    refine (hx.perform w).bind fun _ => ?_
    rcases h with hown | h
    · exact (ih (Or.inl hown)).mono (fun s hs => hs fun _ => hown) fun _ _ hs => hs
    · change LeavesAlone w.enables ws at h
      cases hw : w.enables with
      | false =>
        rw [hw] at h
        exact (ih (Or.inr h)).mono (fun s hs => hs (by simp)) fun _ _ hs => hs
      | true =>
        rw [hw] at h
        exact (safe_serve hx.guar_refl h).mono (fun _ _ => trivial) fun _ _ hs => hs

end Exclusive

/-! ### The two threads -/

/-- An enabled file that has a handle has an open one. Of a disabled file nothing is said. -/
def Sound (io : FileIo H) : Prop := io.file.enabled ≠ 0 → RefOpen io

/-- What the MMC thread does to the file while it leaves an enabled one alone. This is its
promise, and what the timer relies on. -/
def MmcChanges (s s' : FileIo H) : Prop :=
  (s.file.enabled ≠ 0 → s' = s) ∧ (Sound s → Sound s')

/-- What the timer does to the file: nothing while it is disabled, and it never changes the flag.
This is what the MMC thread relies on. -/
def TimerChanges (s s' : FileIo H) : Prop :=
  (s.file.enabled = 0 → s' = s) ∧ s'.file.enabled = s.file.enabled

omit [DecidableEq H] in
theorem exclusive_timer : Exclusive (H := H) (· ≠ 0) MmcChanges TimerChanges where
  eq_of_rely hown hrely := hrely.1 hown
  guar_of_eq hown heq := ⟨fun hzero => absurd hzero hown, heq⟩

omit [DecidableEq H] in
theorem switching_mmc : Switching (H := H) (· = 0) TimerChanges MmcChanges where
  eq_of_rely hown hrely := hrely.1 hown
  guar_of_eq hown heq :=
    ⟨fun hne => absurd hown hne, fun _ hne => absurd (heq.trans hown) hne⟩
  guar_refl _ := ⟨fun _ => rfl, fun h => h⟩
  own_zero := rfl
  guar_of_refOpen hown hopen := ⟨fun hne => absurd hown hne, fun _ _ => hopen⟩

omit [DecidableEq H] in
/-- The MMC thread without a timer. -/
theorem switching_alone :
    Switching (H := H) (fun _ => True) (fun s s' => s' = s) fun _ _ => True where
  eq_of_rely _ h := h
  guar_of_eq _ _ := trivial
  guar_refl _ := trivial
  own_zero := trivial
  guar_of_refOpen _ _ := trivial

omit [DecidableEq H] in
theorem stable_sound : StableUnder (MmcChanges (H := H)) Sound := fun _ _ hs h => h.2 hs

theorem safe_hardFlushTimeoutCb :
    Safe MmcChanges TimerChanges (hardFlushTimeoutCb (H := H)) Sound fun _ => Sound := by
  have hrefl : ∀ s : FileIo H, TimerChanges s s := fun _ => ⟨fun _ => rfl, rfl⟩
  have hx := exclusive_timer (H := H)
  refine Meets.bind (R := fun _ => Sound) ?_ fun _ => meets_pure fun _ hs => hs
  refine (safe_initCheck hrefl stable_sound true).bind fun ret => ?_
  rw [if_pos (show (1 : UInt32) ≠ 0 by decide)]
  unfold whenEnabled
  split_ifs with hret
  · -- once the flag has been seen, it is the timer's turn until it is done
    refine Meets.bind (R := fun en s => Sound s ∧ (en ≠ 0 → s.file.enabled ≠ 0)) ?_ fun en => ?_
    · refine meets_query (fun _ _ => trivial) ?_ ?_
      · rintro en s s' ⟨hs, hen⟩ h
        refine ⟨h.2 hs, fun hne => ?_⟩
        rw [h.1 (hen hne)]
        exact hen hne
      · rintro s _ _ hs ⟨rfl, rfl⟩
        exact ⟨hrefl _, hs, fun h => h⟩
    · split_ifs with hen
      · refine Meets.bind (hx.mmcFclose.mono (fun s hs => ⟨hs.2 hen, hs.1 (hs.2 hen)⟩)
          fun _ _ hs => hs) fun _ => hx.mmcFopen.mono (fun _ hs => hs) fun _ s hs _ => hs.2
      · exact meets_pure fun s hs => hs.1
  · exact meets_pure fun _ hs => hs

theorem safe_hardFlushes (n : ℕ) :
    Safe MmcChanges TimerChanges (hardFlushes (H := H) n) Sound fun _ => Sound := by
  induction n with
  | zero => exact meets_pure fun _ hs => hs
  | succ n ih => exact safe_hardFlushTimeoutCb.bind fun _ => ih

/-- The MMC thread alone. -/
theorem allowedFrom_alone (ws : List Work) {io : FileIo H} (h : RefOpen io) :
    AllowedFrom (fileWorld H) FileAccess.Allowed (serve ws, hardFlushes 0, io) := by
  have htimer : Safe (fun _ _ => True) (fun s s' => s' = s) (hardFlushes (H := H) 0)
      (fun _ => True) fun _ _ => True := meets_pure fun _ hs => hs
  exact allowedFrom_of_meets (switching_alone.serve (Or.inl trivial)) htimer
    (fun _ _ _ => trivial) (fun _ _ h => h) (switching_alone.stable RefOpen) (fun _ _ h _ => h)
    ⟨trivial, h⟩ trivial

/-- **The two threads, while the file is left alone.** The flag says whose turn it is, and each of
the two keeps what the other one relies on. -/
theorem allowedFrom_of_leavesAlone (n : ℕ) {ws : List Work} {io : FileIo H} (hopen : RefOpen io)
    (h : LeavesAlone (io.file.enabled ≠ 0) ws) :
    AllowedFrom (fileWorld H) FileAccess.Allowed (serve ws, hardFlushes n, io) := by
  by_cases hen : io.file.enabled = 0
  · rw [decide_eq_false (not_not.mpr hen)] at h
    exact allowedFrom_of_meets (switching_mmc.serve (Or.inr h)) (safe_hardFlushes n)
      (fun _ _ h => h) (fun _ _ h => h) (switching_mmc.stable RefOpen) stable_sound
      ⟨hen, hopen⟩ fun _ => hopen
  · rw [decide_eq_true hen] at h
    exact allowedFrom_of_meets (safe_serve switching_mmc.guar_refl h) (safe_hardFlushes n)
      (fun _ _ h => h) (fun _ _ h => h) (fun _ _ _ _ => trivial) stable_sound trivial
      fun _ => hopen

/-! ### Interleavings that go wrong -/

section Walks

variable {α β : Type} {io io₁ io₂ : FileIo H} {e : FileProgram H α}

theorem walk_access (q : FileAccess H) {f : q.Answer → FileProgram H α} {x : q.Answer}
    (h : (fileWorld H).serves q x io io₁) (hw : Walk (fileWorld H) (f x) io₁ e io₂) :
    Walk (fileWorld H) (query q >>= f) io e io₂ :=
  Walk.query h hw

theorem walk_of_talks {d : FileProgram H β} {f : β → FileProgram H α} {b : β}
    (h : (d >>= pure).Talks (fileWorld H) io [] b io₁) (hw : Walk (fileWorld H) (f b) io₁ e io₂) :
    Walk (fileWorld H) (d >>= f) io e io₂ :=
  Talks.walk not_moves (bind_pure d ▸ h) hw

theorem talks_pure_self {b : β} :
    (pure b : FileProgram H β).Talks (fileWorld H) io [] b io :=
  talks_pure.mpr ⟨rfl, rfl, Relation.ReflTransGen.refl⟩

theorem walk_initCheck {checkFile : Bool} {f : MmcFileErr → FileProgram H α}
    (hw : Walk (fileWorld H) (f (HobdSystem.initCheck io.file checkFile)) io e io₂) :
    Walk (fileWorld H) (initCheck checkFile >>= f) io e io₂ :=
  walk_of_talks (talks_initCheck.mpr talks_pure_self) hw

theorem walk_whenEnabled {body : FileProgram H β} {otherwise : β} {f : β → FileProgram H α}
    (hen : io.file.enabled ≠ 0) (hw : Walk (fileWorld H) (body >>= f) io e io₂) :
    Walk (fileWorld H) (whenEnabled .ok otherwise body >>= f) io e io₂ := by
  rw [whenEnabled, if_pos rfl, bind_assoc]
  refine walk_access .enabled ⟨rfl, rfl⟩ ?_
  rwa [if_pos hen]

/-- A server with this file. -/
def serverOf (io : FileIo H) : MmcServer H := ⟨io, ⟨0, 0⟩, Vector.replicate 120 0⟩

/-- What can be done in one piece is walked through. -/
theorem walk_work {w : Work} {r : FatResults H} {f : Unit → FileProgram H α}
    (h : ((Round.work w).whole 0 r (serverOf io)).map MmcServer.io = some io₁) :
    Walk (fileWorld H) (w.perform >>= f) io (f ()) io₁ := by
  obtain ⟨s₁, hwhole, rfl⟩ := Option.map_eq_some_iff.mp h
  exact walk_of_talks ((talks_round (.work w) 0 (serverOf io)).mpr ⟨r, s₁, hwhole, talks_pure_self⟩)
    (.refl _ _)

end Walks

section Wrong

variable {io : FileIo H}

/-- The file is enabled and has a handle. -/
structure InUse (io : FileIo H) : Prop where
  isInit : io.file.isInit = isInitValue
  enabled : io.file.enabled ≠ 0
  ref : io.file.ref.isSome

omit [DecidableEq H] in
theorem InUse.initCheck (h : InUse io) : HobdSystem.initCheck io.file true = .ok :=
  (initCheck_true_eq_ok h.isInit).mpr fun _ => h.ref

/-- The timer gets to where it closes the file. -/
theorem exists_walk_hardFlushes (h : InUse io) (n : ℕ) : ∃ k : Unit → FileProgram H Unit,
    Walk (fileWorld H) (hardFlushes (n + 1)) io (mmcFclose >>= k) io := by
  refine ⟨fun _ => mmcFopen >>= fun _ => hardFlushes n, ?_⟩
  rw [hardFlushes, hardFlushTimeoutCb, mmcFileFlush, bind_assoc, bind_assoc]
  refine walk_initCheck ?_
  rw [h.initCheck, if_pos (by decide)]
  refine walk_whenEnabled h.enabled ?_
  rw [bind_assoc]
  exact .refl _ _

/-- A program gets to where it reads the handle and then does what is wrong if there is none. -/
def UsesHandle (d : FileProgram H Unit) (io : FileIo H) : Prop :=
  ∃ k io₁, Walk (fileWorld H) d io (ref >>= k) io₁ ∧
    ∀ io₂, ¬NextAllowed FileAccess.Allowed (k none) io₂

/-- **The timer closes the file before the handle is read**: the program has got to where it reads
it, and finds none, since the timer has not opened the file again yet. -/
theorem UsesHandle.not_allowedFrom {d : FileProgram H Unit} (hd : UsesHandle d io) (h : InUse io)
    (n : ℕ) :
    ¬AllowedFrom (fileWorld H) FileAccess.Allowed (d, hardFlushes (n + 1), io) := by
  intro hall
  obtain ⟨k, io₁, hwalk, hk⟩ := hd
  obtain ⟨k', htimer⟩ := exists_walk_hardFlushes h n
  have hclose : Walk (fileWorld H) (mmcFclose >>= k') io₁ (k' ()) (HobdSystem.mmcFclose io₁) :=
    walk_of_talks (talks_mmcFclose.mpr talks_pure_self) (.refl _ _)
  have hread : Walk (fileWorld H) (ref >>= k) (HobdSystem.mmcFclose io₁) (k none)
      (HobdSystem.mmcFclose io₁) :=
    walk_access .ref ⟨(mmcFclose_ref io₁).symm, rfl⟩ (.refl _ _)
  have hrun := (((htimer.right d).trans (hwalk.left _)).trans (hclose.right _)).trans
    (hread.left (k' ()))
  exact hk _ (hall _ hrun).1

omit [DecidableEq H] in
theorem not_nextAllowed (q : FileAccess H) (hq : q.Allowed io → ∃ a ∈ io.handles, none = some a)
    {f : q.Answer → FileProgram H Unit} : ¬NextAllowed FileAccess.Allowed (query q >>= f) io :=
  not_nextAllowed_query fun hallowed => by simpa using hq hallowed

/-- What closes an open file uses its handle. -/
theorem usesHandle_mmcFclose (h : io.file.ref.isSome) (k : Unit → FileProgram H Unit) :
    UsesHandle (mmcFclose >>= k) io := by
  refine ⟨fun r => flFclose r >>= fun _ => setRef none >>= k, io, ?_,
    fun _ => not_nextAllowed (.fclose none) id⟩
  rw [mmcFclose, bind_assoc]
  refine walk_access .ref ⟨rfl, rfl⟩ ?_
  rw [if_pos h, bind_assoc]
  simp only [bind_assoc]
  exact .refl _ _

theorem UsesHandle.of_walk {d d' : FileProgram H Unit} {io₁ : FileIo H}
    (hw : Walk (fileWorld H) d io d' io₁) (h : UsesHandle d' io₁) : UsesHandle d io := by
  obtain ⟨k, io₂, hwalk, hk⟩ := h
  exact ⟨k, io₂, hw.trans hwalk, hk⟩

/-- What checks the handle of an enabled file uses it after that. -/
theorem usesHandle_checked {α : Type} (h : InUse io) (q : Option H → FileAccess H)
    (hq : ∀ io₁, (q none).Allowed io₁ → ∃ a ∈ io₁.handles, none = some a)
    {otherwise : MmcFileErr → α} (f : MmcFileErr → ∀ r, (q r).Answer → FileProgram H α)
    (k : α → FileProgram H Unit) :
    UsesHandle ((initCheck true >>= fun ret => whenEnabled ret (otherwise ret)
      (ref >>= fun r => query (q r) >>= f ret r)) >>= k) io := by
  refine ⟨fun r => query (q r) >>= fun x => f .ok r x >>= k, io, ?_,
    fun _ => not_nextAllowed (q none) (hq _)⟩
  rw [bind_assoc]
  refine walk_initCheck ?_
  rw [h.initCheck]
  refine walk_whenEnabled h.enabled ?_
  rw [bind_assoc]
  simp only [bind_assoc]
  exact .refl _ _

theorem usesHandle_mmcFileSetEnabled_zero (h : InUse io) (k : MmcFileErr → FileProgram H Unit) :
    UsesHandle (mmcFileSetEnabled 0 >>= k) io := by
  rw [mmcFileSetEnabled, bind_assoc]
  refine .of_walk (walk_initCheck (.refl _ _)) ?_
  rw [initCheck_false h.isInit, if_pos rfl, if_pos rfl, bind_assoc]
  refine .of_walk (walk_access .enabled ⟨rfl, rfl⟩ (.refl _ _)) ?_
  rw [if_pos h.enabled, bind_assoc]
  refine .of_walk (walk_access (.setEnabled 0) (x := ()) rfl (.refl _ _)) ?_
  rw [bind_assoc]
  have href : ({ io with file.enabled := 0 } : FileIo H).file.ref.isSome := h.ref
  exact usesHandle_mmcFclose href _

theorem usesHandle_of_touches {w : Work} (hw : w.Touches) (henables : w.enables = false)
    (h : InUse io) (k : Unit → FileProgram H Unit) : UsesHandle (w.perform >>= k) io := by
  match w with
  | .entry mem =>
    rw [Work.perform, writeMmcEntry, bind_assoc, bind_assoc]
    exact usesHandle_checked h (fun r => .fwrite mem 1 _ r) (fun _ => id) (fun _ _ => _) _
  | .request .getFileSize =>
    rw [Work.perform, bind_assoc]
    exact usesHandle_checked h (fun r => .filelength r) (fun _ => id)
      (fun ret _ size => pure (ret, size)) _
  | .request .rm =>
    rw [Work.perform, bind_assoc, mmcFileRm, bind_assoc]
    refine .of_walk (walk_initCheck (.refl _ _)) ?_
    rw [initCheck_false h.isInit]
    refine .of_walk (walk_whenEnabled h.enabled (.refl _ _)) ?_
    rw [bind_assoc]
    exact usesHandle_mmcFclose h.ref _
  | .request (.setState state) =>
    obtain rfl : state = 0 := by simpa [Work.enables] using henables
    rw [Work.perform, bind_assoc]
    exact usesHandle_mmcFileSetEnabled_zero h _

/-- A program gets to where it throws the handle of the file away. -/
def DropsHandle (d : FileProgram H Unit) (io : FileIo H) : Prop :=
  ∃ k io₁, Walk (fileWorld H) d io (setRef none >>= k) io₁ ∧ io₁.file.ref.isSome

theorem DropsHandle.of_walk {d d' : FileProgram H Unit} {io₁ : FileIo H}
    (hw : Walk (fileWorld H) d io d' io₁) (h : DropsHandle d' io₁) : DropsHandle d io := by
  obtain ⟨k, io₂, hwalk, href⟩ := h
  exact ⟨k, io₂, hw.trans hwalk, href⟩

/-- The library need not be able to open a file that is open. -/
theorem dropsHandle_mmcFileSetEnabled {value : UInt32} (hvalue : value ≠ 0) (h : InUse io)
    (k : MmcFileErr → FileProgram H Unit) : DropsHandle (mmcFileSetEnabled value >>= k) io := by
  rw [mmcFileSetEnabled, bind_assoc]
  refine .of_walk (walk_initCheck (.refl _ _)) ?_
  rw [initCheck_false h.isInit, if_pos rfl, if_neg hvalue, bind_assoc, mmcFopen, bind_assoc]
  refine .of_walk (walk_access .fopen (x := none) ⟨fun _ hnone => by simp at hnone, rfl⟩
    (.refl _ _)) ?_
  rw [bind_assoc]
  exact ⟨_, _, .refl _ _, h.ref⟩

/-- **The handle is thrown away while the timer closes the file**, which has looked whether there
is one and reads it again to close it. -/
theorem DropsHandle.not_allowedFrom {d : FileProgram H Unit} (hd : DropsHandle d io) (h : InUse io)
    (n : ℕ) : ¬AllowedFrom (fileWorld H) FileAccess.Allowed (d, hardFlushes (n + 1), io) := by
  intro hall
  obtain ⟨k, io₁, hwalk, href⟩ := hd
  obtain ⟨k', htimer⟩ := exists_walk_hardFlushes h n
  obtain ⟨k'', io₂, hclose, hk⟩ := usesHandle_mmcFclose href k'
  have hset : Walk (fileWorld H) (setRef none >>= k) io₂ (k ()) { io₂ with file.ref := none } :=
    walk_access (.setRef none) (x := ()) rfl (.refl _ _)
  have hread : Walk (fileWorld H) (ref >>= k'') { io₂ with file.ref := none } (k'' none)
      { io₂ with file.ref := none } :=
    walk_access .ref ⟨rfl, rfl⟩ (.refl _ _)
  have hrun := ((((htimer.right d).trans (hwalk.left _)).trans (hclose.right _)).trans
    (hset.left _)).trans (hread.right (k ()))
  exact hk _ (hall _ hrun).2

/-- **Whatever uses the file can be interrupted at the wrong moment**, from every state in which
the file is in use and whatever the thread has to do afterwards. -/
theorem not_allowedFrom_of_touches {w : Work} (hw : w.Touches) (h : InUse io)
    (k : Unit → FileProgram H Unit) (n : ℕ) :
    ¬AllowedFrom (fileWorld H) FileAccess.Allowed (w.perform >>= k, hardFlushes (n + 1), io) := by
  cases henables : w.enables with
  | false => exact (usesHandle_of_touches hw henables h k).not_allowedFrom h n
  | true =>
    match w with
    | .request (.setState state) =>
      rw [Work.perform, bind_assoc]
      exact (dropsHandle_mmcFileSetEnabled (of_decide_eq_true henables) h _).not_allowedFrom h n

end Wrong

/-! ### The runs that are safe -/

section Runs

variable {io : FileIo H}

/-- What does not use an enabled file leaves it as it is. -/
theorem walk_of_not_touches {w : Work} (hw : ¬w.Touches) (k : Unit → FileProgram H Unit) :
    Walk (fileWorld H) (w.perform >>= k) io (k ()) io := by
  match w with
  | .request .getStats | .request .getState => exact walk_work (r := default) rfl
  | .entry _ | .request .rm | .request .getFileSize | .request (.setState _) =>
    exact absurd trivial hw

/-- A disabled file stays as it is until it is enabled. -/
theorem walk_of_disabled {w : Work} (hinit : io.file.isInit = isInitValue)
    (hen : io.file.enabled = 0) (hw : w.enables = false) (k : Unit → FileProgram H Unit) :
    Walk (fileWorld H) (w.perform >>= k) io (k ()) io := by
  refine walk_work (r := default) ?_
  match w with
  | .request .getStats | .request .getState | .request .getFileSize => rfl
  | .entry mem =>
    have hcheck : HobdSystem.initCheck io.file true = .ok :=
      (initCheck_true_eq_ok hinit).mpr fun hne => absurd hen hne
    have hwrite : HobdSystem.writeMmcEntry mem 0 default io = some io := by
      simp only [HobdSystem.writeMmcEntry, HobdSystem.mmcFileWrite, hcheck, hen]
      rfl
    simp only [Round.whole, serverOf, hwrite, Option.map_some, countEntry_io]
  | .request .rm =>
    refine congrArg some ((mmcFileRm_snd default hinit).trans (if_neg (not_not.mpr hen)))
  | .request (.setState state) =>
    obtain rfl : state = 0 := by simpa [Work.enables] using hw
    have hset : HobdSystem.mmcFileSetEnabled 0 default io = (.ok, io) := by
      simp only [HobdSystem.mmcFileSetEnabled, initCheck_false hinit, hen, if_true]
      rfl
    simp only [Round.whole, MmcRequest.perform, stateSetReq, serverOf, hset, Option.map_some]
    rfl

/-- A file that is enabled then has the handle it has been given. -/
theorem exists_walk_of_enables {w : Work} (hinit : io.file.isInit = isInitValue)
    (hhandles : io.handles = []) (hw : w.enables = true) (h : H)
    (k : Unit → FileProgram H Unit) :
    ∃ io₁, Walk (fileWorld H) (w.perform >>= k) io (k ()) io₁ ∧
      io₁.file = ⟨isInitValue, 1, some h⟩ ∧ io₁.handles = [h] := by
  match w with
  | .request (.setState state) =>
    have hstate : state ≠ 0 := of_decide_eq_true hw
    have hfopen : (fatAnswers (some h) 0 0).fopen io.handles = some h :=
      fatAnswers_fopen (fun _ _ => by rw [hhandles]; exact List.not_mem_nil) 0 0
    refine ⟨{ (HobdSystem.mmcFopen (fatAnswers (some h) 0 0) io).2 with file.enabled := 1 },
      walk_work (r := fatAnswers (some h) 0 0) ?_, ?_, ?_⟩
    · have hset : HobdSystem.mmcFileSetEnabled state (fatAnswers (some h) 0 0) io = (.ok,
          { (HobdSystem.mmcFopen (fatAnswers (some h) 0 0) io).2 with file.enabled := 1 }) := by
        simp only [HobdSystem.mmcFileSetEnabled, initCheck_false hinit, if_true, if_neg hstate,
          mmcFopen_fst, hfopen]
        rfl
      simp only [Round.whole, MmcRequest.perform, stateSetReq, serverOf, hset, Option.map_some]
      rfl
    · simp only [mmcFopen_ref, mmcFopen_isInit, hfopen, hinit]
    · rw [mmcFopen_handles, hfopen, hhandles]
      rfl

/-- Both threads on the file of a server between two rounds. -/
theorem not_allowedFrom_of_not_leavesAlone [Nonempty H] (n : ℕ) {ws : List Work}
    (hone : OneHandle io) (hsettled : Settled io)
    (h : ¬LeavesAlone (io.file.enabled ≠ 0) ws) :
    ¬AllowedFrom (fileWorld H) FileAccess.Allowed (serve ws, hardFlushes (n + 1), io) := by
  induction ws generalizing io with
  | nil => exact absurd (by simp [LeavesAlone]) h
  | cons w ws ih =>
    intro hall
    by_cases hen : io.file.enabled ≠ 0
    · rw [decide_eq_true hen] at h
      have hio : InUse io :=
        ⟨hone.isInit, hen, Option.isSome_iff_ne_none.mpr (hsettled.enabled_iff.mp hen)⟩
      by_cases hw : w.Touches
      · exact not_allowedFrom_of_touches hw hio _ n hall
      · refine ih hone hsettled ?_ (hall.of_run ((walk_of_not_touches hw _).left _))
        rw [decide_eq_true hen]
        exact fun hws => h ⟨hw, hws⟩
    · rw [decide_eq_false hen] at h
      change ¬LeavesAlone w.enables ws at h
      have hnone : io.file.ref = none := by
        by_contra href
        exact hen (hsettled.enabled_iff.mpr href)
      cases hw : w.enables with
      | false =>
        refine ih hone hsettled ?_ (hall.of_run ((walk_of_disabled hone.isInit (not_not.mp hen)
          hw _).left _))
        rwa [decide_eq_false hen, ← hw]
      | true =>
        obtain ⟨a⟩ := ‹Nonempty H›
        obtain ⟨io₁, hwalk, hfile, hhandles⟩ := exists_walk_of_enables hone.isInit
          (by rw [hone.handles, hnone]; rfl) hw a fun _ => serve ws
        refine ih ⟨by rw [hfile], by rw [hfile, hhandles]; rfl⟩ ⟨by rw [hfile], by simp [hfile]⟩ ?_
          (hall.of_run (hwalk.left _))
        rw [hfile, decide_eq_true (show (1 : UInt32) ≠ 0 by decide), ← hw]
        exact h

/-- **The two threads on one file**: a handle that is passed to the library is open all along, in
every interleaving, exactly if the timer does not come at all or nothing uses the file from when it
is enabled on. -/
theorem shared_file_safe_iff [Nonempty H] (ws : List Work) (n : ℕ) {io : FileIo H}
    (hone : OneHandle io) (hsettled : Settled io) :
    AllowedFrom (fileWorld H) FileAccess.Allowed (serve ws, hardFlushes n, io) ↔
      n = 0 ∨ LeavesAlone (io.file.enabled ≠ 0) ws := by
  have hopen : RefOpen io := fun a => (hone.handlesKept a).mpr
  constructor
  · intro hall
    rcases n with - | n
    · exact Or.inl rfl
    · by_contra hc
      exact not_allowedFrom_of_not_leavesAlone n hone hsettled (fun h => hc (Or.inr h)) hall
  · rintro (rfl | h)
    · exact allowedFrom_alone ws hopen
    · exact allowedFrom_of_leavesAlone n hopen h

/-- One entry and one flush are enough: the entry with the message that wakes the ECU up, behind a
request for the state. -/
theorem shared_file_safe_iff_entry : ¬AllowedFrom (fileWorld ℕ) FileAccess.Allowed
    (serve [.request .getState, .entry (MmcEntry.bytes ⟨0x0100, 4, 7, [0xFE, 4, 0xFF, 0xFF]⟩)],
      hardFlushes 1, ⟨⟨1, 1, some 1⟩, [1], []⟩) := by
  rw [shared_file_safe_iff _ 1 ⟨rfl, rfl⟩ ⟨rfl, by decide⟩]
  rintro (h | h)
  · exact absurd h (by decide)
  · exact h.2.1 trivial

end Runs

end Shared

end HobdSystem
