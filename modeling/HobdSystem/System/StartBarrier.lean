import HobdSystem.Library.Run
import Mathlib.Logic.Function.Basic

/-!
# The start barrier

The model of `sys_thread_fn` up to its loop and of `system_module_wait_for_start`. The system
thread takes the mutex, sets `g_is_init`, registers the heartbeat and gives the mutex back. A
thread that waits for the start spins until `g_is_init` is set, and then takes the mutex and gives
it back.

The threads that wait are those of any type `ι`, and each may call as often as it likes. A move of
a run is one access of one thread, so a list of moves is an interleaving, and a thread that cannot
take the mutex stays where it is. Of `sync_mutex` it is assumed that only one thread has it at a
time and that nobody has it at first; an operation on it may fail, and ends the thread that called
it.

The flag alone would not do, for it is set before the heartbeat is registered, and neither would
the mutex, for a thread might take it before the system thread does. **Together they hold every
call back until `signal_ready_to_start`** (`HobdSystem.start_barrier`): who has passed the flag
finds the mutex taken by the system thread (`HobdSystem.BarrierInv`).

The invariant is about who has the mutex at each place of the system thread and of a thread that
waits. The one move that is worth a proof is the lock of the system thread: it succeeds only if
nobody else has the mutex, and nobody else can have come to it, since the flag is not set. From
there on the system thread has it until the signal. A thread that fails to give the mutex back
keeps it for ever, and the others then wait for ever; this keeps nobody from starting too early,
and the barrier says nothing about starting in time.
-/

namespace HobdSystem

/-! ### The threads -/

/-- Where the system thread is. -/
inductive SysPoint where
  /-- `system_module_init` has made the mutex and not yet started the thread. -/
  | notStarted
  /-- At `if(g_is_init == 0)`. -/
  | checkInit
  /-- At `sync_mutex_lock`. -/
  | lockReady
  /-- At `g_is_init = 1`. -/
  | setInit
  /-- At `time_server_alloc_id`. -/
  | allocId
  /-- At `time_server_register_periodic_cb`. -/
  | registerCb
  /-- At `signal_ready_to_start`. -/
  | signalReady
  /-- Behind `signal_ready_to_start`. -/
  | started
  /-- The mutex could not be locked. -/
  | lockFailed
  /-- The mutex could not be unlocked. -/
  | signalFailed
  deriving DecidableEq, Repr

/-- Where a thread is in `system_module_wait_for_start`. -/
inductive WaitPoint where
  /-- Not in a call: before the first one, or behind one that has returned. -/
  | outside
  /-- At `while(g_is_init == 0)`. -/
  | spin
  /-- At `sync_mutex_lock`. -/
  | lock
  /-- At `sync_mutex_unlock`. -/
  | unlock
  /-- The mutex could not be locked. -/
  | lockFailed
  /-- The mutex could not be unlocked. -/
  | unlockFailed
  deriving DecidableEq, Repr

/-- Who may have the mutex: the system thread, or one of the threads that wait for it to be ready.
-/
inductive BarrierThread (ι : Type*) where
  | system
  | waiter (i : ι)
  deriving DecidableEq

/-- The state of the barrier: the flag, the mutex, and where each thread is. There may be any
number of threads that wait. -/
structure Barrier (ι : Type*) where
  /-- `g_is_init`. -/
  isInit : UInt32
  /-- Who has `g_sys_ready_mutex`. -/
  mutex : Option (BarrierThread ι)
  sys : SysPoint
  waiter : ι → WaitPoint

/-- One access of one thread. The environment decides whether an operation on the mutex fails. -/
inductive BarrierMove (ι : Type*) where
  /-- `thread_start`, in `system_module_init`. -/
  | threadStart
  /-- The system thread goes on. -/
  | sys (err : Bool)
  /-- A thread calls `system_module_wait_for_start`. -/
  | call (i : ι)
  /-- A thread in a call goes on. -/
  | wait (i : ι) (err : Bool)

section Model

variable {ι : Type*}

/-- `thread_start` on the system thread. -/
def threadStart (s : Barrier ι) : Barrier ι :=
  if s.sys = .notStarted then { s with sys := .checkInit } else s

/-- `signal_ready_to_start`. The mutex is given back whoever has it. -/
def signalReadyToStart (err : Bool) (s : Barrier ι) : Barrier ι :=
  if err then { s with sys := .signalFailed } else { s with mutex := none, sys := .started }

/-- `sys_thread_fn` up to its loop. -/
def sysThreadFn (err : Bool) (s : Barrier ι) : Barrier ι :=
  match s.sys with
  | .checkInit => { s with sys := if s.isInit = 0 then .lockReady else .allocId }
  | .lockReady =>
    if err then { s with sys := .lockFailed }
    else
      match s.mutex with
      | none => { s with mutex := some .system, sys := .setInit }
      | some _ => s
  | .setInit => { s with isInit := 1, sys := .allocId }
  | .allocId => { s with sys := .registerCb }
  | .registerCb => { s with sys := .signalReady }
  | .signalReady => signalReadyToStart err s
  | .notStarted | .started | .lockFailed | .signalFailed => s

variable [DecidableEq ι]

/-- A thread that waits moves to another point. -/
def Barrier.moveTo (s : Barrier ι) (i : ι) (p : WaitPoint) : Barrier ι :=
  { s with waiter := Function.update s.waiter i p }

/-- A call of `system_module_wait_for_start` begins. -/
def callWaitForStart (i : ι) (s : Barrier ι) : Barrier ι :=
  if s.waiter i = .outside then s.moveTo i .spin else s

/-- `system_module_wait_for_start`, and whether it returns. -/
def systemModuleWaitForStart (i : ι) (err : Bool) (s : Barrier ι) : Bool × Barrier ι :=
  match s.waiter i with
  | .spin => (false, if s.isInit = 0 then s else s.moveTo i .lock)
  | .lock =>
    if err then (false, s.moveTo i .lockFailed)
    else
      match s.mutex with
      | none => (false, { s with mutex := some (.waiter i) }.moveTo i .unlock)
      | some _ => (false, s)
  | .unlock =>
    if err then (false, s.moveTo i .unlockFailed)
    else (true, { s with mutex := none }.moveTo i .outside)
  | .outside | .lockFailed | .unlockFailed => (false, s)

/-- A move, and whether a call returns by it. -/
def barrierStep : BarrierMove ι → Barrier ι → Bool × Barrier ι
  | .threadStart, s => (false, threadStart s)
  | .sys err, s => (false, sysThreadFn err s)
  | .call i, s => (false, callWaitForStart i s)
  | .wait i err, s => systemModuleWaitForStart i err s

/-- The barrier when `system_module_init` has made the mutex. Some threads may have called
already. -/
def Barrier.start (calling : ι → Bool) : Barrier ι where
  isInit := 0
  mutex := none
  sys := .notStarted
  waiter i := if calling i then .spin else .outside

end Model

/-! ### The invariant -/

/-- The system thread has not taken the mutex. -/
def SysPoint.early : SysPoint → Bool
  | .notStarted | .checkInit | .lockReady | .lockFailed => true
  | _ => false

/-- The system thread has taken the mutex and not given it back. -/
def SysPoint.holds : SysPoint → Bool
  | .setInit | .allocId | .registerCb | .signalReady | .signalFailed => true
  | _ => false

/-- A call has seen the flag. -/
def WaitPoint.passed : WaitPoint → Bool
  | .outside | .spin => false
  | _ => true

/-- A call has taken the mutex and not given it back. -/
def WaitPoint.holds : WaitPoint → Bool
  | .unlock | .unlockFailed => true
  | _ => false

theorem WaitPoint.passed_of_holds {p : WaitPoint} (h : p.holds = true) : p.passed = true := by
  cases p <;> first | rfl | exact absurd h Bool.false_ne_true

theorem SysPoint.early_or_holds (p : SysPoint) :
    p.early = true ∨ p.holds = true ∨ p = .started := by
  cases p <;> decide

/-- **What holds in every state**: the flag is set behind the lock, nobody passes it before, and
the mutex is with whoever has taken it last. -/
structure BarrierInv {ι : Type*} (s : Barrier ι) : Prop where
  /-- The flag is set by the system thread, when it has the mutex. -/
  isInit_eq_zero : s.sys.early = true ∨ s.sys = .setInit → s.isInit = 0
  /-- Before it has come to that, nobody else has the mutex either. -/
  mutex_eq_none : s.sys.early = true → s.mutex = none
  mutex_eq_system : s.sys.holds = true → s.mutex = some .system
  passed : ∀ i, (s.waiter i).passed = true → s.isInit ≠ 0
  mutex_eq_waiter : ∀ i, (s.waiter i).holds = true → s.mutex = some (.waiter i)

namespace BarrierInv

variable {ι : Type*} {s : Barrier ι}

theorem start (calling : ι → Bool) : BarrierInv (Barrier.start calling) where
  isInit_eq_zero _ := rfl
  mutex_eq_none _ := rfl
  mutex_eq_system h := absurd h Bool.false_ne_true
  passed i h := by
    simp only [Barrier.start] at h
    split at h <;> exact absurd h Bool.false_ne_true
  mutex_eq_waiter i h := by
    simp only [Barrier.start] at h
    split at h <;> exact absurd h Bool.false_ne_true

/-- Whoever has passed the flag has come behind the lock of the system thread. -/
theorem not_early (h : BarrierInv s) {i : ι} (hi : (s.waiter i).passed = true) :
    ¬(s.sys.early = true) :=
  fun hearly => h.passed i hi (h.isInit_eq_zero (.inl hearly))

/-- **Whoever has passed the flag has come behind the signal, unless the system thread has the
mutex.** -/
theorem started_of_passed (h : BarrierInv s) {i : ι} (hi : (s.waiter i).passed = true)
    (hmutex : s.mutex ≠ some .system) : s.sys = .started := by
  rcases s.sys.early_or_holds with hearly | hholds | hstarted
  · exact absurd hearly (h.not_early hi)
  · exact absurd (h.mutex_eq_system hholds) hmutex
  · exact hstarted

theorem started_of_holds (h : BarrierInv s) {i : ι} (hi : (s.waiter i).holds = true) :
    s.sys = .started :=
  h.started_of_passed (WaitPoint.passed_of_holds hi) (by rw [h.mutex_eq_waiter i hi]; simp)

/-! ### The moves of the system thread -/

/-- A move that changes nothing but the point. -/
theorem sysTo (h : BarrierInv s) {p : SysPoint}
    (hinit : p.early = true ∨ p = .setInit → s.isInit = 0)
    (hnone : p.early = true → s.mutex = none) (hsystem : p.holds = true → s.mutex = some .system) :
    BarrierInv { s with sys := p } :=
  ⟨hinit, hnone, hsystem, h.passed, h.mutex_eq_waiter⟩

/-- The system thread has not taken the mutex and does not take it. -/
theorem sysTo_early (h : BarrierInv s) {p : SysPoint} (hs : s.sys.early = true)
    (hp : p.holds = false) : BarrierInv { s with sys := p } :=
  h.sysTo (fun _ => h.isInit_eq_zero (.inl hs)) (fun _ => h.mutex_eq_none hs)
    fun hc => absurd (hp.symm.trans hc) Bool.false_ne_true

/-- The system thread has the mutex and keeps it. -/
theorem sysTo_holds (h : BarrierInv s) {p : SysPoint} (hs : s.sys.holds = true)
    (hp : p.early = false) (hne : p ≠ .setInit) : BarrierInv { s with sys := p } := by
  have hearly : ¬(p.early = true) := fun hc => absurd (hp.symm.trans hc) Bool.false_ne_true
  exact h.sysTo (fun hc => absurd hc (not_or.mpr ⟨hearly, hne⟩)) (fun hc => absurd hc hearly)
    fun _ => h.mutex_eq_system hs

theorem threadStart (h : BarrierInv s) : BarrierInv (threadStart s) := by
  unfold HobdSystem.threadStart
  split_ifs with hsys
  · exact h.sysTo_early (by rw [hsys]; rfl) rfl
  · exact h

/-- **The lock**: the flag is not set, so nobody else has come to the mutex. -/
theorem lockReady (h : BarrierInv s) (hsys : s.sys = .lockReady) :
    BarrierInv { s with mutex := some .system, sys := .setInit } := by
  have hearly : s.sys.early = true := by rw [hsys]; rfl
  refine ⟨fun _ => h.isInit_eq_zero (.inl hearly), fun hc => absurd hc Bool.false_ne_true,
    fun _ => rfl, h.passed, fun i hi => ?_⟩
  exact absurd hearly (h.not_early (WaitPoint.passed_of_holds hi))

/-- **The signal**: the system thread has the mutex, so nobody else loses it. -/
theorem signalReadyToStart (h : BarrierInv s) (hsys : s.sys = .signalReady) (err : Bool) :
    BarrierInv (signalReadyToStart err s) := by
  unfold HobdSystem.signalReadyToStart
  split_ifs
  · exact h.sysTo_holds (by rw [hsys]; rfl) rfl (by decide)
  · refine ⟨by simp [SysPoint.early], by simp [SysPoint.early], by simp [SysPoint.holds],
      h.passed, fun i hi => ?_⟩
    have hstarted := h.started_of_holds hi
    rw [hsys] at hstarted
    exact absurd hstarted (by decide)

theorem sysThreadFn (h : BarrierInv s) (err : Bool) : BarrierInv (sysThreadFn err s) := by
  unfold HobdSystem.sysThreadFn
  cases hsys : s.sys with
  | checkInit =>
    have hearly : s.sys.early = true := by rw [hsys]; rfl
    rw [if_pos (h.isInit_eq_zero (.inl hearly))]
    exact h.sysTo_early hearly rfl
  | lockReady =>
    dsimp only
    split_ifs
    · exact h.sysTo_early (by rw [hsys]; rfl) rfl
    · split
      · exact h.lockReady hsys
      · exact h
  | setInit =>
    have hmutex : s.mutex = some .system := h.mutex_eq_system (by rw [hsys]; rfl)
    exact ⟨by simp [SysPoint.early], by simp [SysPoint.early], fun _ => hmutex,
      fun _ _ => by simp, h.mutex_eq_waiter⟩
  | allocId => exact h.sysTo_holds (by rw [hsys]; rfl) rfl (by decide)
  | registerCb => exact h.sysTo_holds (by rw [hsys]; rfl) rfl (by decide)
  | signalReady => exact h.signalReadyToStart hsys err
  | notStarted | started | lockFailed | signalFailed => exact h

/-! ### The moves of a thread that waits -/

/-- The mutex goes to another thread, or to nobody. -/
theorem setMutex (h : BarrierInv s) {mutex : Option (BarrierThread ι)} (hsys : s.sys = .started)
    (hwaiter : ∀ i, (s.waiter i).holds = true → mutex = some (.waiter i)) :
    BarrierInv { s with mutex := mutex } :=
  ⟨h.isInit_eq_zero, by simp [hsys, SysPoint.early], by simp [hsys, SysPoint.holds], h.passed,
    hwaiter⟩

variable [DecidableEq ι]

theorem moveTo (h : BarrierInv s) {i : ι} {p : WaitPoint}
    (hpassed : p.passed = true → s.isInit ≠ 0)
    (hholds : p.holds = true → s.mutex = some (.waiter i)) : BarrierInv (s.moveTo i p) := by
  refine ⟨h.isInit_eq_zero, h.mutex_eq_none, h.mutex_eq_system, fun j hj => ?_, fun j hj => ?_⟩
  · simp only [Barrier.moveTo, Function.update_apply] at hj
    split_ifs at hj
    · exact hpassed hj
    · exact h.passed j hj
  · simp only [Barrier.moveTo, Function.update_apply] at hj
    split_ifs at hj with hji
    · exact hji ▸ hholds hj
    · exact h.mutex_eq_waiter j hj

theorem callWaitForStart (h : BarrierInv s) (i : ι) : BarrierInv (callWaitForStart i s) := by
  unfold HobdSystem.callWaitForStart
  split_ifs
  · exact h.moveTo (fun hc => absurd hc Bool.false_ne_true) fun hc => absurd hc Bool.false_ne_true
  · exact h

theorem systemModuleWaitForStart (h : BarrierInv s) (i : ι) (err : Bool) :
    BarrierInv (systemModuleWaitForStart i err s).2 := by
  unfold HobdSystem.systemModuleWaitForStart
  cases hi : s.waiter i with
  | spin =>
    dsimp only
    split_ifs with hinit
    · exact h
    · exact h.moveTo (fun _ => hinit) fun hc => absurd hc Bool.false_ne_true
  | lock =>
    have hpassed : (s.waiter i).passed = true := by rw [hi]; rfl
    dsimp only
    split_ifs
    · exact h.moveTo (fun _ => h.passed i hpassed) fun hc => absurd hc Bool.false_ne_true
    · split
      case _ hmutex =>
        refine (h.setMutex (h.started_of_passed hpassed (by simp [hmutex])) fun j hj => ?_).moveTo
          (fun _ => h.passed i hpassed) fun _ => rfl
        rw [h.mutex_eq_waiter j hj] at hmutex
        exact absurd hmutex (by simp)
      case _ => exact h
  | unlock =>
    have hholds : (s.waiter i).holds = true := by rw [hi]; rfl
    dsimp only
    split_ifs
    · exact h.moveTo (fun _ => h.passed i (WaitPoint.passed_of_holds hholds))
        fun _ => h.mutex_eq_waiter i hholds
    · -- the thread moves on and then leaves the mutex to nobody
      have hmove : BarrierInv (s.moveTo i .outside) :=
        h.moveTo (fun hc => absurd hc Bool.false_ne_true) fun hc => absurd hc Bool.false_ne_true
      refine hmove.setMutex (h.started_of_holds hholds) fun j hj => ?_
      simp only [Barrier.moveTo, Function.update_apply] at hj
      split_ifs at hj with hji
      · exact absurd hj Bool.false_ne_true
      · have hmutex := h.mutex_eq_waiter j hj
        rw [h.mutex_eq_waiter i hholds] at hmutex
        exact absurd (BarrierThread.waiter.inj (Option.some.inj hmutex)).symm hji
  | outside | lockFailed | unlockFailed => exact h

end BarrierInv

/-! ### Runs -/

section Runs

variable {ι : Type*} [DecidableEq ι] {s : Barrier ι}

theorem BarrierInv.step (h : BarrierInv s) (move : BarrierMove ι) :
    BarrierInv (barrierStep move s).2 := by
  cases move with
  | threadStart => exact h.threadStart
  | sys err => exact h.sysThreadFn err
  | call i => exact h.callWaitForStart i
  | wait i err => exact h.systemModuleWaitForStart i err

/-- A call returns when it gives the mutex back. -/
theorem holds_of_returns {move : BarrierMove ι} (h : (barrierStep move s).1 = true) :
    ∃ i, (s.waiter i).holds = true := by
  cases move with
  | threadStart | sys | call => exact absurd h Bool.false_ne_true
  | wait i err =>
    refine ⟨i, ?_⟩
    change (systemModuleWaitForStart i err s).1 = true at h
    unfold systemModuleWaitForStart at h
    cases hi : s.waiter i with
    | unlock => rfl
    | lock =>
      rw [hi] at h
      dsimp only at h
      split_ifs at h
      split at h <;> exact absurd h Bool.false_ne_true
    | spin | outside | lockFailed | unlockFailed =>
      rw [hi] at h
      exact absurd h Bool.false_ne_true

/-- **Nobody passes the barrier early.** Whatever threads call, and in whatever order they and
the system thread take their steps: a call returns only behind `signal_ready_to_start`, and from
its lock until then the system thread has the mutex and nobody else does. -/
theorem start_barrier (calling : ι → Bool) (moves : List (BarrierMove ι)) :
    Run.Along barrierStep (fun s move =>
      ((barrierStep move s).1 = true → s.sys = .started) ∧
        (s.sys.holds = true →
          s.mutex = some .system ∧ ∀ i, (s.waiter i).holds = false))
      (Barrier.start calling) moves := by
  refine Run.along_of_invariant barrierStep BarrierInv (fun s move h => ⟨h.step move, ?_, ?_⟩)
    moves (BarrierInv.start calling)
  · intro hreturns
    obtain ⟨i, hi⟩ := holds_of_returns hreturns
    exact h.started_of_holds hi
  · intro hholds
    refine ⟨h.mutex_eq_system hholds, fun i => ?_⟩
    rw [← Bool.not_eq_true]
    intro hi
    rw [h.started_of_holds hi] at hholds
    exact absurd hholds Bool.false_ne_true

/-- A call spins, finds the mutex taken, and returns behind the signal. -/
example : Run.answers barrierStep (Barrier.start fun _ : Unit => false)
    [.call (), .threadStart, .wait () false, .sys false, .sys false, .sys false, .wait () false,
      .wait () false, .sys false, .sys false, .sys false, .wait () false, .wait () false] =
    List.replicate 12 false ++ [true] := by
  decide

end Runs

end HobdSystem
