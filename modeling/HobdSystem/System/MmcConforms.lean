import HobdSystem.Mmc.Actions
import HobdSystem.System.Threads

/-!
# The MMC thread and its timer do what their skeletons say

The MMC thread handles one message after the other, and the time server flushes the file in between,
in its own thread. Their skeletons in `HobdSystem.systemNet` are compared here with `mmc_thread_fn`
as it is traced in `HobdSystem.Mmc.Actions`: what the thread does, and in which order, is what that
program emits.

## The FAT library

The library is not part of the source, and how often it takes `g_fs_mutex` in one of its calls is
not known. So the number is a parameter: `locks k` is how often the call with the number `k` takes
and gives back the mutex, and there is one more for `fl_attach_media`. The skeletons allow any
number (`HobdSystem.does_fatCall`), for whatever the mutex is needed for within one call, the
others can only come to wait for its next release.

Each function of `mmc_file.c` makes the calls of its skeleton, however often they take the mutex
(`HobdSystem.FileDoes`). The functions of the thread follow with the rules of `Blocking.Follows`,
and **a run of both threads is one of their skeletons** (`HobdSystem.mmc_conforms`). Which threads
take part in a run is settled by the actions: what the MMC thread does is nothing to the skeleton of
the time server, and the other way round.
-/

namespace HobdSystem

open Blocking Traced

/-! ### The file -/

/-- The mutex of the file system is taken and given back, some number of times. -/
def fsActs : ℕ → List (Act Mutex Message)
  | 0 => []
  | n + 1 => [.lock .fs, .unlock .fs] ++ fsActs n

/-- A call of the library, however often it takes the mutex. -/
theorem does_fatCall (i : ThreadId) (n : ℕ) : Does systemNet i Skeleton.fatCall (fsActs n) := by
  induction n with
  | zero => exact does_star_nil
  | succ n ih => exact (does_skip.hold Mutex.fs).star_cons ih

section File

variable {H : Type*} {i : ThreadId} {p q : Skeleton} {x y z : FileIo H}

/-- What a thread has called the library for on the way from one state of the file to another is
what its skeleton does, however often each of the calls takes the mutex. -/
def FileDoes (i : ThreadId) (p : Skeleton) (x y : FileIo H) : Prop :=
  ∃ calls, y.calls = x.calls ++ calls ∧
    ∀ ns : List ℕ, ns.length = calls.length → Does systemNet i p (ns.flatMap fsActs)

theorem FileDoes.seq (hp : FileDoes i p x y) (hq : FileDoes i q y z) :
    FileDoes i (.seq p q) x z := by
  obtain ⟨calls, hcalls, hp⟩ := hp
  obtain ⟨calls', hcalls', hq⟩ := hq
  refine ⟨calls ++ calls', by rw [hcalls', hcalls, List.append_assoc], fun ns hns => ?_⟩
  rw [List.length_append] at hns
  rw [← List.take_append_drop calls.length ns, List.flatMap_append]
  exact (hp _ (by rw [List.length_take]; omega)).seq (hq _ (by rw [List.length_drop]; omega))

theorem FileDoes.left (hp : FileDoes i p x y) : FileDoes i (.choice p q) x y :=
  hp.imp fun _ h => ⟨h.1, fun ns hns => (h.2 ns hns).left⟩

theorem FileDoes.right (hq : FileDoes i q x y) : FileDoes i (.choice p q) x y :=
  hq.imp fun _ h => ⟨h.1, fun ns hns => (h.2 ns hns).right⟩

theorem fileDoes_skip (h : y.calls = x.calls) : FileDoes i .skip x y := by
  refine ⟨[], by rw [h, List.append_nil], fun ns hns => ?_⟩
  rw [List.length_eq_zero_iff.mp hns]
  exact does_skip

theorem fileDoes_fatCall {c : Issued H} (h : y.calls = x.calls ++ [c]) :
    FileDoes i Skeleton.fatCall x y := by
  refine ⟨[c], h, fun ns hns => ?_⟩
  obtain ⟨n, rfl⟩ := List.length_eq_one_iff.mp hns
  rw [List.flatMap_singleton]
  exact does_fatCall i n

theorem fileDoes_mmcFopen (r : FatResults H) (x : FileIo H) :
    FileDoes i Skeleton.mmcFopen x (mmcFopen r x).2 :=
  fileDoes_fatCall (mmcFopen_calls r x)

theorem fileDoes_mmcFileOpen (r : FatResults H) (x : FileIo H) :
    FileDoes i Skeleton.mmcFileOpen x (mmcFileOpen r x).2 := by
  simp only [mmcFileOpen]
  split_ifs
  · exact (fileDoes_mmcFopen r x).left
  · exact (fileDoes_skip rfl).right

theorem fileDoes_mmcFileWrite (data : List UInt8) (size count : UInt32) (r : FatResults H)
    (x : FileIo H) : FileDoes i Skeleton.mmcFileWrite x (mmcFileWrite data size count r x).2 := by
  by_cases h : initCheck x.file true = .ok ∧ x.file.enabled ≠ 0
  · simp only [mmcFileWrite, if_pos h]
    exact (fileDoes_fatCall rfl).left
  · simp only [mmcFileWrite, if_neg h]
    exact (fileDoes_skip rfl).right

variable [DecidableEq H]

theorem fileDoes_mmcFclose (x : FileIo H) : FileDoes i Skeleton.mmcFclose x (mmcFclose x) := by
  unfold mmcFclose
  cases x.file.ref with
  | none => exact (fileDoes_skip rfl).right
  | some ref => exact (fileDoes_fatCall rfl).left

theorem fileDoes_mmcFileSetEnabled (enabled : UInt32) (r : FatResults H) (x : FileIo H) :
    FileDoes i Skeleton.mmcFileSetEnabled x (mmcFileSetEnabled enabled r x).2 := by
  simp only [mmcFileSetEnabled]
  split_ifs
  · exact (fileDoes_mmcFclose { x with file.enabled := 0 }).left.left.left
  · exact (fileDoes_skip rfl).right
  · exact (fileDoes_mmcFopen r x).right.left
  · exact (fileDoes_mmcFopen r x).right.left
  · exact (fileDoes_skip rfl).right

theorem fileDoes_mmcFileRm (r : FatResults H) (x : FileIo H) :
    FileDoes i Skeleton.mmcFileRm x (mmcFileRm r x).2 := by
  by_cases h : initCheck x.file false = .ok ∧ x.file.enabled ≠ 0
  · simp only [mmcFileRm, if_pos h]
    exact ((fileDoes_mmcFclose x).seq ((fileDoes_fatCall rfl).seq (fileDoes_mmcFopen r _))).left
  · simp only [mmcFileRm, if_neg h]
    exact (fileDoes_skip rfl).right

theorem fileDoes_mmcFileFlush (hardFlush : UInt32) (r : FatResults H) (x : FileIo H) :
    FileDoes i Skeleton.mmcFileFlush x (mmcFileFlush hardFlush r x).2 := by
  by_cases h : initCheck x.file true = .ok ∧ x.file.enabled ≠ 0
  · by_cases hhard : hardFlush = 0
    · simp only [mmcFileFlush, if_pos h, if_neg (not_not.mpr hhard)]
      exact (fileDoes_fatCall rfl).right.left
    · simp only [mmcFileFlush, if_pos h, if_pos hhard]
      exact ((fileDoes_mmcFclose x).seq (fileDoes_mmcFopen r _)).left.left
  · simp only [mmcFileFlush, if_neg h]
    exact (fileDoes_skip rfl).right

end File

/-! ### Actions -/

/-- The message of a label, and of the word that is sent with it. -/
def mmcMessageOf (label word : UInt32) : Option Message :=
  if label = ipcMsgTypeStatsReq then some (.mmc .getStats)
  else if label = ipcMsgTypeEntryLog then some .entryLog
  else if label = ipcMsgTypeFileSizeReq then some (.mmc .getFileSize)
  else if label = ipcMsgTypeRmFileReq then some (.mmc .rm)
  else if label = ipcMsgTypeStateReq then some (.mmc .getState)
  else if label = ipcMsgTypeStateSetReq then some (.mmc (.setState word))
  else none

section Actions

variable {H : Type}

/-- What an action is to the other threads, if the library takes the mutex so often. -/
def MmcAction.acts (attachLocks : ℕ) (locks : ℕ → ℕ) : MmcAction H → List (Act Mutex Message)
  | .attachMedia => fsActs attachLocks
  | .fatCall _ k => fsActs (locks k)
  | .allocId | .registerPeriodicCb | .getTime => tmActs
  | .recv label word => ((mmcMessageOf label word).map .got).toList
  | .reply _ => [.reply]

variable {attachLocks : ℕ} {locks : ℕ → ℕ} {i : ThreadId} {k : List (Item Mutex Message)}

/-- A thread does what its skeleton does from one place to another. -/
abbrev MmcFollows {α : Type} (attachLocks : ℕ) (locks : ℕ → ℕ) (i : ThreadId)
    (k : List (Item Mutex Message)) (x : Traced (MmcAction H) α)
    (Q : α → List (Item Mutex Message)) : Prop :=
  Follows systemNet i (MmcAction.acts attachLocks locks) k x Q

/-- **A function of `mmc_file.c`** is followed by its skeleton: the calls it has added to the record
are numbered on, and each takes the mutex as often as it does. -/
theorem follows_onFile {α : Type} {p : Skeleton} {f : FileIo H → α × FileIo H} {io : FileIo H}
    (h : FileDoes i p io (f io).2) :
    MmcFollows attachLocks locks i (.run p :: k) (onFile f io) fun _ => k := by
  obtain ⟨calls, hcalls, hdoes⟩ := h
  refine Follows.bind (Q := fun _ => k) (follows_emit ?_) fun _ => follows_pure (.nil k)
  have hacts : (((newCalls io (f io).2).zipIdx io.calls.length).map
      fun x => MmcAction.fatCall x.1 x.2).flatMap (MmcAction.acts attachLocks locks) =
      ((calls.zipIdx io.calls.length).map fun x => locks x.2).flatMap fsActs := by
    rw [newCalls_eq hcalls, List.flatMap_map, List.flatMap_map]
    rfl
  rw [hacts]
  exact hdoes _ (by rw [List.length_map, List.length_zipIdx]) k

theorem follows_answer (reply : IpcReply) (s : MmcServer H) :
    MmcFollows attachLocks locks i (.run .reply :: k) (answer reply s) fun _ => k :=
  (follows_emit (does_reply k)).bind fun _ => follows_pure (.nil k)

theorem follows_check (ok : Bool) :
    MmcFollows (H := H) attachLocks locks i k (require ok) fun _ => k := follows_ofOption _

variable [DecidableEq H] (r : FatResults H)

/-- The entry is written, and the file is flushed if it is asked for. -/
theorem follows_traceWriteMmcEntry (mem : List UInt8) (hardFlush : UInt32) (io : FileIo H) :
    MmcFollows attachLocks locks i (.run (Skeleton.writeMmcEntry (hardFlush ≠ 0)) :: k)
      (traceWriteMmcEntry mem hardFlush r io) fun _ => k := by
  refine .of_performs (.tau (.seq ..) (.nil _)) ?_
  refine (follows_onFile (fileDoes_mmcFileWrite mem 1 _ r io)).bind fun x => ?_
  refine (follows_check _).bind fun _ => ?_
  by_cases hhard : hardFlush ≠ 0
  · rw [if_pos hhard, if_pos (decide_eq_true hhard)]
    exact (follows_onFile (fileDoes_mmcFileFlush 1 r _)).bind fun _ => follows_pure (.nil k)
  · rw [if_neg hhard, if_neg (by simpa using hhard)]
    exact follows_pure (does_skip k)

/-- The callback of the timer. -/
theorem follows_traceHardFlushTimeoutCb (s : MmcServer H) :
    MmcFollows attachLocks locks i (.run Skeleton.hardFlushTimeoutCb :: k)
      (traceHardFlushTimeoutCb r s) fun _ => k :=
  (follows_onFile (fileDoes_mmcFileFlush 1 r s.io)).bind fun _ => follows_pure (.nil k)

/-! ### The MMC thread -/

/-- **What the MMC thread does in front of its loop.** -/
theorem follows_traceMmcThreadStart (mediaAttached : Bool) (rOpen rMarker : FatResults H)
    (now : UInt64) (msgRxBuffer : Vector UInt32 120) (io : FileIo H) :
    MmcFollows attachLocks locks .mmc [.run (systemNet.start .mmc)]
      (traceMmcThreadStart mediaAttached rOpen rMarker now msgRxBuffer io) fun _ => [] := by
  have hattach : Does systemNet .mmc Skeleton.fatCall
      ([MmcAction.attachMedia].flatMap (MmcAction.acts (H := H) attachLocks locks)) := by
    rw [List.flatMap_singleton]
    exact does_fatCall .mmc attachLocks
  refine .of_performs (.tau (.seq ..) (.nil _)) ?_
  refine (follows_emit_of_does hattach).bind fun _ => (follows_check _).bind fun _ => ?_
  refine .of_performs (.tau (.seq ..) (.nil _)) ?_
  refine (follows_onFile (fileDoes_mmcFileOpen rOpen _)).bind fun x => ?_
  refine (follows_check _).bind fun _ => ?_
  refine .of_performs (.tau (.seq ..) (.nil _)) ?_
  refine (follows_emit_of_does (does_tm _)).bind fun _ => ?_
  refine .of_performs (.tau (.seq ..) (.nil _)) ?_
  refine (follows_emit_of_does (does_tm _)).bind fun _ => ?_
  refine .of_performs (.tau (.seq ..) (.nil _)) ?_
  refine (follows_emit_of_does (does_tm _)).bind fun _ => ?_
  exact (follows_traceWriteMmcEntry rMarker _ 1 _).bind fun _ => follows_pure (.nil _)

variable (s : MmcServer H)

omit [DecidableEq H] in
theorem follows_traceStatsReq (now : UInt64) :
    MmcFollows attachLocks locks .mmc [.run (Skeleton.mmcRequest .getStats)] (traceStatsReq now s)
      fun _ => [] := by
  refine .of_performs (.tau (.seq ..) (.nil _)) ?_
  exact (follows_emit (does_tm _ _)).bind fun _ => follows_answer _ _

/-- An entry is written, and not answered. -/
theorem follows_traceEntryLog (m : IpcMessage) :
    MmcFollows attachLocks locks .mmc [.run (Skeleton.writeMmcEntry false)] (traceEntryLog m r s)
      fun _ => [] := by
  refine (follows_ofOption _).bind fun _ => ?_
  refine (follows_check _).bind fun _ => (follows_check _).bind fun _ => ?_
  exact (follows_traceWriteMmcEntry r _ 0 _).bind fun _ => follows_pure (.nil _)

theorem follows_traceRmFileReq :
    MmcFollows attachLocks locks .mmc [.run (Skeleton.mmcRequest .rm)] (traceRmFileReq r s)
      fun _ => [] := by
  refine .of_performs (.tau (.seq ..) (.nil _)) ?_
  exact (follows_onFile (fileDoes_mmcFileRm r s.io)).bind fun _ => follows_answer _ _

theorem follows_traceDisable (err : MmcFileErr) (io : FileIo H) :
    MmcFollows attachLocks locks i (.run (Skeleton.opt Skeleton.mmcFileSetEnabled) :: k)
      (traceDisable err r io) fun _ => k := by
  unfold traceDisable
  split_ifs
  · exact (follows_onFile (fileDoes_mmcFileSetEnabled 0 r io).left).bind
      fun _ => follows_pure (.nil k)
  · exact follows_pure (does_skip.right k)

/-- The state is set, and perhaps a second time. -/
theorem follows_traceStateSetReq (desiredState : UInt32) :
    MmcFollows attachLocks locks .mmc [.run (Skeleton.mmcRequest (.setState desiredState))]
      (traceStateSetReq desiredState r s) fun _ => [] := by
  refine .of_performs (.tau (.seq ..) (.nil _)) ?_
  refine (follows_onFile (fileDoes_mmcFileSetEnabled desiredState r s.io)).bind fun x => ?_
  refine .of_performs (.tau (.seq ..) (.nil _)) ?_
  exact (follows_traceDisable r x.1 x.2).bind fun _ => follows_answer _ _

/-- What is left to do when a message has been received. -/
def afterMessage : Option Message → List (Item Mutex Message)
  | some msg => [.run (systemNet.handler msg)]
  | none => atRecv

theorem owner_of_mmcMessageOf {label word : UInt32} {msg : Message}
    (h : mmcMessageOf label word = some msg) : systemNet.owner msg = .mmc := by
  unfold mmcMessageOf at h
  split_ifs at h <;> · obtain rfl := Option.some.inj h; rfl

omit [DecidableEq H] in
theorem follows_recv (label word : UInt32) :
    MmcFollows (H := H) attachLocks locks .mmc atRecv (emit [.recv label word])
      fun _ => afterMessage (mmcMessageOf label word) := by
  refine follows_emit ?_
  simp only [List.flatMap_cons, List.flatMap_nil, List.append_nil, MmcAction.acts]
  cases hmsg : mmcMessageOf label word with
  | none => exact .nil _
  | some msg => exact .act (.got true msg [] (owner_of_mmcMessageOf hmsg)) (.nil _)

/-- **A message is handled as the skeleton handles it**, also one that nobody should have sent,
which ends the program. -/
theorem follows_traceMmcThreadStep (m : IpcMessage) (now : UInt64) :
    MmcFollows attachLocks locks .mmc atRecv (traceMmcThreadStep m now r s) fun _ => [] := by
  refine (follows_recv _ _).bind fun _ => (follows_check _).bind fun _ => ?_
  unfold mmcMessageOf
  split_ifs
  · exact follows_traceStatsReq s now
  · exact follows_traceEntryLog r s m
  · exact follows_answer _ s
  · exact follows_traceRmFileReq r s
  · exact follows_answer _ s
  · exact follows_traceStateSetReq r s _
  · -- a foreign label ends the program
    exact fun _ hnone => absurd hnone (by simp [ofOption])

end Actions

/-! ### Both threads -/

section MmcRuns

variable {H : Type}

/-- What one of the threads does: the MMC thread, or the time server, which calls the callback of
the module while it has its mutex. -/
inductive LogAction (H : Type) where
  | mmc (a : MmcAction H)
  /-- `seL4_Wait` has returned, for an interrupt of the timer. -/
  | timerIrq
  | tmLock
  | callback (a : MmcAction H)
  | tmUnlock

/-- What an action is to the skeleton of a thread: nothing, if another thread takes it. -/
def LogAction.acts (attachLocks : ℕ) (locks : ℕ → ℕ) (i : ThreadId) :
    LogAction H → List (Act Mutex Message)
  | .mmc a => if i = .mmc then a.acts attachLocks locks else []
  | .timerIrq => if i = .timeServer then [.got .timerIrq] else []
  | .tmLock => if i = .timeServer then [.lock .tm] else []
  | .callback a => if i = .timeServer then a.acts attachLocks locks else []
  | .tmUnlock => if i = .timeServer then [.unlock .tm] else []

variable [DecidableEq H]

/-- A round of the MMC thread, or a round of the time server in which the file is flushed. -/
def traceMmcEvent (e : MmcEvent H) (s : MmcServer H) : Traced (LogAction H) (MmcServer H) :=
  match e with
  | .request m now r => do
    let (_, s) ← (traceMmcThreadStep m now r s).mapTrace .mmc
    return s
  | .hardFlush r => do
    emit [.timerIrq, .tmLock]
    let s ← (traceHardFlushTimeoutCb r s).mapTrace .callback
    emit [.tmUnlock]
    return s

/-- A run of both threads, from the start of `mmc_thread_fn` on. -/
def mmcTrace (mediaAttached : Bool) (rOpen rMarker : FatResults H) (now : UInt64)
    (msgRxBuffer : Vector UInt32 120) (io : FileIo H) (es : List (MmcEvent H)) :
    Traced (LogAction H) (MmcServer H) :=
  run traceMmcEvent
    ((traceMmcThreadStart mediaAttached rOpen rMarker now msgRxBuffer io).mapTrace .mmc) es

theorem result_traceMmcEvent (e : MmcEvent H) (s : MmcServer H) :
    (traceMmcEvent e s).result = mmcEvent e s := by
  cases e with
  | request m now r =>
    rw [traceMmcEvent, result_bind, mapTrace, result_traceMmcThreadStep]
    exact Option.map_eq_bind.symm
  | hardFlush r => rfl

/-- **The traced run is the run of the server.** -/
theorem result_mmcTrace (mediaAttached : Bool) (rOpen rMarker : FatResults H) (now : UInt64)
    (msgRxBuffer : Vector UInt32 120) (io : FileIo H) (es : List (MmcEvent H)) :
    (mmcTrace mediaAttached rOpen rMarker now msgRxBuffer io es).result =
      (mmcThreadStart mediaAttached rOpen rMarker now msgRxBuffer io).bind fun s =>
        es.foldlM (fun s e => mmcEvent e s) s := by
  rw [mmcTrace, result_run _ result_traceMmcEvent]
  rw [mapTrace, result_traceMmcThreadStart]

section Follows

variable {attachLocks : ℕ} {locks : ℕ → ℕ} {i : ThreadId} {k : List (Item Mutex Message)}
  {α : Type} {x : Traced (MmcAction H) α} {Q : α → List (Item Mutex Message)}

omit [DecidableEq H] in
/-- What the MMC thread does is followed by its own skeleton, and by no other. -/
theorem follows_mmc (hown : i = .mmc → MmcFollows attachLocks locks i k x Q)
    (hother : i ≠ .mmc → Q = fun _ => k) :
    Follows systemNet i (LogAction.acts attachLocks locks i) k (x.mapTrace .mmc) Q := by
  refine follows_mapTrace ?_
  by_cases hi : i = .mmc
  · simpa only [LogAction.acts, if_pos hi] using hown hi
  · rw [hother hi]
    exact follows_of_nil fun a _ => if_neg hi

omit [DecidableEq H] in
theorem follows_callback (hown : i = .timeServer → MmcFollows attachLocks locks i k x Q)
    (hother : i ≠ .timeServer → Q = fun _ => k) :
    Follows systemNet i (LogAction.acts attachLocks locks i) k (x.mapTrace .callback) Q := by
  refine follows_mapTrace ?_
  by_cases hi : i = .timeServer
  · simpa only [LogAction.acts, if_pos hi] using hown hi
  · rw [hother hi]
    exact follows_of_nil fun a _ => if_neg hi

/-- **An event is what the threads do from the head of their loops to the head of their loops.** -/
theorem follows_traceMmcEvent (e : MmcEvent H) (s : MmcServer H) :
    Follows systemNet i (LogAction.acts attachLocks locks i) atRecv (traceMmcEvent e s)
      fun _ => atRecv := by
  cases e with
  | request m now r =>
    refine (follows_mmc (Q := fun _ => atRecv) ?_ fun _ => rfl).bind fun _ => follows_pure (.nil _)
    rintro rfl
    exact (follows_traceMmcThreadStep r s m now).then fun _ => .tau .again (.nil _)
  | hardFlush r =>
    by_cases hi : i = .timeServer
    · subst hi
      have hlock : Performs systemNet .timeServer atRecv [.got .timerIrq, .lock .tm]
          [.run Skeleton.tmUpdate, .release .tm] :=
        .act (.got true _ [] rfl) (.act (.lock ..) (.nil _))
      have hunlock : Performs systemNet .timeServer [.run Skeleton.tmUpdate, .release .tm]
          [.unlock .tm] atRecv :=
        .tau (.stop ..) (.act (.unlock ..) (.tau .again (.nil _)))
      refine (follows_emit hlock).bind fun _ => ?_
      refine .of_performs (.tau (.more ..) (.tau (.left ..) (.nil _))) ?_
      refine (follows_callback (fun _ => follows_traceHardFlushTimeoutCb r s)
        fun h => absurd rfl h).bind fun s => ?_
      exact (follows_emit hunlock).bind fun _ => follows_pure (.nil _)
    · refine (follows_of_nil ?_).bind fun _ => ?_
      · simp [emit, LogAction.acts, hi]
      refine (follows_callback (fun h => absurd h hi) fun _ => rfl).bind fun s => ?_
      refine (follows_of_nil ?_).bind fun _ => follows_pure (.nil _)
      simp [emit, LogAction.acts, hi]

end Follows

/-- **A run of the MMC thread, with the timer flushing the file in between, is one of the
skeletons.** Whatever is asked, whatever the FAT library answers and however often it takes its
mutex in each of its calls: the mutexes are taken and the messages received and answered by the MMC
thread and by the time server in an order in which their skeletons do. -/
theorem mmc_conforms (attachLocks : ℕ) (locks : ℕ → ℕ) (mediaAttached : Bool)
    (rOpen rMarker : FatResults H) (now : UInt64) (msgRxBuffer : Vector UInt32 120) (io : FileIo H)
    (es : List (MmcEvent H)) {s₀ s : MmcServer H}
    (hstart : mmcThreadStart mediaAttached rOpen rMarker now msgRxBuffer io = some s₀)
    (hs : es.foldlM (fun s e => mmcEvent e s) s₀ = some s)
    (i : ThreadId) (hi : i = .mmc ∨ i = .timeServer) :
    (mmcTrace mediaAttached rOpen rMarker now msgRxBuffer io es).result = some s ∧
      Performs systemNet i [.run (systemNet.start i)]
        ((mmcTrace mediaAttached rOpen rMarker now msgRxBuffer io es).trace.flatMap
          (LogAction.acts attachLocks locks i)) atRecv := by
  have hresult : (mmcTrace mediaAttached rOpen rMarker now msgRxBuffer io es).result = some s := by
    rw [result_mmcTrace, hstart]
    exact hs
  have hfirst : Follows systemNet i (LogAction.acts attachLocks locks i)
      [.run (systemNet.start i)]
      ((traceMmcThreadStart mediaAttached rOpen rMarker now msgRxBuffer io).mapTrace .mmc)
      fun _ => atRecv := by
    by_cases hmmc : i = .mmc
    · subst hmmc
      refine follows_mmc (fun _ => ?_) fun h => absurd rfl h
      exact (follows_traceMmcThreadStart mediaAttached rOpen rMarker now msgRxBuffer io).then
        fun _ => .tau .again (.nil _)
    · -- the time server comes to wait for an interrupt
      obtain rfl : i = .timeServer := hi.resolve_left hmmc
      refine .of_performs (performs_atRecv rfl does_skip) ?_
      exact follows_mmc (fun h => absurd h hmmc) fun _ => rfl
  exact ⟨hresult, hfirst.run (fun e _ s => follows_traceMmcEvent e s) s hresult⟩

end MmcRuns

/-- The file is flushed, and cannot be opened again until it is removed. -/
def flushedEvents : List (MmcEvent ℕ) :=
  [.hardFlush fatFail, .request ⟨mmcmodBaseBadge, ipcMsgTypeRmFileReq, 0,
    ⟨Vector.replicate 4 0, Vector.replicate 120 0⟩⟩ 1 (fatOk 0)]

/-- The library takes its mutex once when the media are attached, and in the call with the number
`k` as often as that. -/
theorem mmc_conforms_flushed :
    ∃ s₀ s, mmcThreadStart true (fatOk 0) (fatOk 12) 0 (Vector.replicate 120 0) blankIo = some s₀ ∧
      flushedEvents.foldlM (fun s e => mmcEvent e s) s₀ = some s ∧
      Performs systemNet .timeServer [.run (systemNet.start .timeServer)]
        ((mmcTrace true (fatOk 0) (fatOk 12) 0 (Vector.replicate 120 0) blankIo
          flushedEvents).trace.flatMap (LogAction.acts 1 id .timeServer)) atRecv := by
  have hsome : ((mmcThreadStart true (fatOk 0) (fatOk 12) 0 (Vector.replicate 120 0) blankIo).bind
      fun s₀ => flushedEvents.foldlM (fun s e => mmcEvent e s) s₀).isSome = true := by
    decide +kernel
  obtain ⟨s, hs⟩ := Option.isSome_iff_exists.mp hsome
  obtain ⟨s₀, hstart, hrun⟩ := Option.bind_eq_some_iff.mp hs
  exact ⟨s₀, s, hstart, hrun, (mmc_conforms 1 id true (fatOk 0) (fatOk 12) 0
    (Vector.replicate 120 0) blankIo flushedEvents hstart hrun .timeServer (Or.inr rfl)).2⟩

end HobdSystem
