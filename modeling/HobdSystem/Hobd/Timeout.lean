import HobdSystem.Hobd.Comm

/-!
# The timer and the thread that runs it

The flag `timeout_signaled` is shared by two threads, and so the calls of `comm_recv_msg` are
looked at here step by step: each call of the time server is one step, each access to the flag is
one step, and between any two of them the thread of the time server may go on. It calls
`tm_update` with the mutex of the time manager held, and it is only there that `timeout_cb` runs.
A call of the time server takes the same mutex, so it waits as long as `tm_update` runs.

Of the time manager it is assumed that a callback that was registered runs at most once, and not
at all once it is deregistered. Registrations are numbered, to tell them apart; the numbers are in
no part of the source and are looked at by no step.

**A timeout that ends a wait was registered by that wait** (`HobdSystem.observed_own_timeout`).
The danger is a timer that fires late: after the call it was set up for has seen a message, say,
but before the next call has set up its own. The flag would then be set when the next wait begins,
and end it at once. The order in which the source does things excludes this. The callback is
deregistered first and the flag is cleared behind that, both when a timer is set up and when it is
taken back, so the flag is cleared when nothing is registered and nothing stale is left when the
timer is set up again. The invariant (`HobdSystem.AtRecvPoint`) says for each place in
`comm_recv_msg` what may be registered there.

The finer steps are those of the model in `HobdSystem.Hobd.Comm` when the other thread keeps
still: `HobdSystem.run_enterSteps`, `HobdSystem.run_roundSteps` and `HobdSystem.run_leaveSteps`
are the results that tie the two together.
-/

namespace HobdSystem

open Traced

/-! ### The steps -/

/-- Where the thread is in a call of `comm_recv_msg`. -/
inductive RecvPoint where
  /-- Not in a call. -/
  | outside
  /-- In `comm_start_timeout`, in front of `time_server_deregister_cb`. -/
  | restart
  /-- Behind it. -/
  | restartClear
  /-- In front of `time_server_register_rel_cb`. -/
  | register
  /-- At the head of the loop. -/
  | getchar
  /-- In front of `comm_get_timeout`, with a message or without. -/
  | getTimeout (found : Bool)
  /-- In `comm_stop_timeout`, in front of `time_server_deregister_cb`. -/
  | stop
  /-- Behind it. -/
  | stopClear
  deriving DecidableEq, Repr

/-- What is done, as far as the timer is concerned. Registrations are numbered, so that a timeout
can be traced back to the call that asked for it. -/
inductive TimerEvent where
  /-- `comm_recv_msg` is called. -/
  | called
  | deregistered
  /-- The flag is cleared. -/
  | cleared
  | registered (n : ℕ)
  /-- `timeout_cb` runs, for a registration. -/
  | fired (n : ℕ)
  /-- `comm_get_timeout` returns. -/
  | observed (v : UInt32)
  deriving DecidableEq, Repr

/-- The two threads and the time manager. The thread of the time server has no state of its own
but whether it is in `tm_update`. -/
structure TimerSystem where
  point : RecvPoint
  parser : HobdParser
  comm : Comm
  /-- The registration that is pending. -/
  pending : Option ℕ
  /-- How many there have been. -/
  registrations : ℕ
  /-- `tm_update` runs, with the mutex held. -/
  updating : Bool

/-- What makes the system move. -/
inductive TimerInput where
  /-- The thread goes on. The UART has `data` for it, and the time server answers with `err`. -/
  | comm (data err : Int32)
  /-- `tm_update` is called. -/
  | lock
  /-- It runs the callback. -/
  | callback
  /-- It returns. -/
  | unlock

/-- `time_server_deregister_cb`. -/
def deregisterStep (next : RecvPoint) (err : Int32) (s : TimerSystem) :
    Traced TimerEvent TimerSystem :=
  -- the mutex is taken
  if s.updating then pure s
  else do
    emit [.deregistered]
    require (err = 0)
    return { s with pending := none, point := next }

/-- The flag is cleared. -/
def clearStep (next : RecvPoint) (s : TimerSystem) : Traced TimerEvent TimerSystem := do
  emit [.cleared]
  return { s with comm.timeoutSignaled := 0, point := next }

/-- `time_server_register_rel_cb`. -/
def registerStep (err : Int32) (s : TimerSystem) : Traced TimerEvent TimerSystem :=
  if s.updating then pure s
  else do
    emit [.registered s.registrations]
    require (err = 0)
    return { s with
      pending := some s.registrations, registrations := s.registrations + 1, point := .getchar }

/-- The condition of the loop, behind `comm_get_timeout`. -/
def getTimeoutStep (found : Bool) (s : TimerSystem) : Traced TimerEvent TimerSystem := do
  emit [.observed (commGetTimeout s.comm)]
  return { s with point := if found ∨ commGetTimeout s.comm ≠ 0 then .stop else .getchar }

/-- One step of the thread. -/
def recvStep (data err : Int32) (s : TimerSystem) : Traced TimerEvent TimerSystem :=
  match s.point with
  | .outside => do
    emit [.called]
    return { s with point := .restart }
  | .restart => deregisterStep .restartClear err s
  | .restartClear => clearStep .register s
  | .register => registerStep err s
  | .getchar => pure { s with
      parser := (pollUart data s.parser).2, point := .getTimeout (pollUart data s.parser).1 }
  | .getTimeout found => getTimeoutStep found s
  | .stop => deregisterStep .stopClear err s
  | .stopClear => clearStep .outside s

/-- One step of the system. -/
def timerStep : TimerInput → TimerSystem → Traced TimerEvent TimerSystem
  | .comm data err, s => recvStep data err s
  | .lock, s => pure { s with updating := true }
  | .callback, s =>
    match s.updating, s.pending with
    | true, some n => do
      emit [.fired n]
      return { s with comm := timeoutCb s.comm, pending := none }
    | _, _ => pure s
  | .unlock, s => pure { s with updating := false }

/-- The system with nothing registered, and whatever is in the flag. -/
def timerStart (parser : HobdParser) (comm : Comm) : TimerSystem :=
  ⟨.outside, parser, comm, none, 0, false⟩

/-- What the system has done after some steps. -/
def timerRun (parser : HobdParser) (comm : Comm) (is : List TimerInput) :
    Traced TimerEvent TimerSystem :=
  run timerStep (pure (timerStart parser comm)) is

/-! ### The steps without the other thread -/

section Uninterrupted

variable (r : CommResults) (s : TimerSystem)

/-- The steps of `comm_start_timeout`. -/
def enterSteps : List TimerInput := [.comm 0 r.restartCb, .comm 0 0, .comm 0 r.registerRelCb]

/-- A round of the loop. -/
def roundSteps : List TimerInput := [.comm r.getchar 0, .comm 0 0]

/-- The steps of `comm_stop_timeout`. -/
def leaveSteps : List TimerInput := [.comm 0 r.deregisterCb, .comm 0 0]

/-- **The steps in front of the loop are `comm_recv_msg` in front of its loop.** With the mutex
free, the small steps come to what the function of the model does in one. -/
theorem run_enterSteps (hpoint : s.point = .restart) (hfree : s.updating = false) :
    (run timerStep (pure s) (enterSteps r)).result.map (fun s' => (s'.point, s'.comm)) =
      (commRecvMsgEnter 1 r s.comm).result.map (fun comm => (.getchar, comm)) := by
  obtain ⟨point, parser, comm, pending, registrations, updating⟩ := s
  obtain rfl : point = .restart := hpoint
  obtain rfl : updating = false := hfree
  simp only [enterSteps, run_cons, run_nil, pure_bind, timerStep, recvStep, deregisterStep,
    commRecvMsgEnter, commStartTimeout, commStopTimeout]
  by_cases hstop : r.restartCb = 0
  · by_cases hstart : r.registerRelCb = 0 <;>
      simp [timerStep, recvStep, clearStep, registerStep, hstop, hstart]
  · simp [hstop]

/-- **The steps behind the loop are `comm_recv_msg` behind its loop.** -/
theorem run_leaveSteps (hpoint : s.point = .stop) (hfree : s.updating = false) :
    (run timerStep (pure s) (leaveSteps r)).result.map (fun s' => (s'.point, s'.comm)) =
      (commRecvMsgLeave 1 r s.comm).result.map (fun comm => (.outside, comm)) := by
  obtain ⟨point, parser, comm, pending, registrations, updating⟩ := s
  obtain rfl : point = .stop := hpoint
  obtain rfl : updating = false := hfree
  simp only [leaveSteps, run_cons, run_nil, pure_bind, timerStep, recvStep, deregisterStep,
    commRecvMsgLeave, commStopTimeout]
  by_cases hstop : r.deregisterCb = 0 <;> simp [timerStep, recvStep, clearStep, hstop]

/-- **The steps of a round are a round of `comm_recv_msg`**, which leaves the loop exactly if
they lead to its end. -/
theorem run_roundSteps (hpoint : s.point = .getchar) :
    ∃ s', (run timerStep (pure s) (roundSteps r)).result = some s' ∧ s'.comm = s.comm ∧
      s'.updating = s.updating ∧ s'.parser = (pollUart r.getchar s.parser).2 ∧
      (s'.point = .getchar ∧
          commRecvMsgRound 1 r s.parser s.comm = pure (.goesOn, s'.parser, s.comm) ∨
        s'.point = .stop ∧ ∃ poll, poll ≠ .goesOn ∧ commRecvMsgRound 1 r s.parser s.comm = (do
          let comm ← commRecvMsgLeave 1 r s.comm
          return (poll, s'.parser, comm))) := by
  obtain ⟨point, parser, comm, pending, registrations, updating⟩ := s
  obtain rfl : point = .getchar := hpoint
  refine ⟨_, rfl, rfl, rfl, rfl, ?_⟩
  simp only [commRecvMsgRound]
  by_cases hfound : (pollUart r.getchar parser).1 = true
  · exact Or.inr ⟨if_pos (Or.inl hfound), .found (), nofun, if_pos hfound⟩
  · by_cases hflag : comm.timeoutSignaled = 0
    · refine Or.inl ⟨if_neg (not_or.mpr ⟨hfound, not_not.mpr hflag⟩), ?_⟩
      rw [if_neg hfound, if_neg fun hc => hc.2 hflag]
    · refine Or.inr ⟨if_pos (Or.inr hflag), .timedOut, nofun, ?_⟩
      rw [if_neg hfound, if_pos ⟨by decide, hflag⟩]

end Uninterrupted

/-! ### The invariant -/

/-- `comm_recv_msg` is called. -/
def TimerEvent.isCalled : TimerEvent → Bool
  | .called => true
  | _ => false

/-- **The timer has fired in the call that is going on**: for a registration that the call made,
after it made it, and the flag has not been cleared since. -/
def FiredInCall (t : List TimerEvent) : Prop :=
  Since TimerEvent.isCalled (fun since => ∃ n before between after,
    since = before ++ .registered n :: (between ++ .fired n :: after) ∧ .cleared ∉ after) t

/-- The registration `n` is one the call that is going on has made. -/
def RegisteredInCall (n : ℕ) (t : List TimerEvent) : Prop :=
  Since TimerEvent.isCalled (.registered n ∈ ·) t

/-- There is a call that is going on. -/
def InCall (t : List TimerEvent) : Prop := Since TimerEvent.isCalled (fun _ => True) t

/-- In the loop what is pending, or what has fired, belongs to the call. In the first case the
flag is still clear, so a flag that is set can only come from the second. -/
def AtLoop (t : List TimerEvent) (s : TimerSystem) : Prop :=
  (∃ n, s.pending = some n ∧ s.comm.timeoutSignaled = 0 ∧ RegisteredInCall n t) ∨
    s.pending = none ∧ FiredInCall t

/-- **The invariant.** Where the flag is cleared nothing is pending, and from there until the
timer is set up nobody can set it. -/
def AtRecvPoint (t : List TimerEvent) (s : TimerSystem) : Prop :=
  match s.point with
  | .outside => True
  | .restart => InCall t
  | .restartClear => InCall t ∧ s.pending = none
  | .register => InCall t ∧ s.pending = none ∧ s.comm.timeoutSignaled = 0
  | .getchar | .getTimeout _ => AtLoop t s
  | .stop | .stopClear => True

/-- What is observed is a timeout of the call: whenever the flag is found to be set, a
registration that this call has made has fired in it. -/
def ObservesOwn (t : List TimerEvent) : Prop :=
  Each (fun before e => ∀ v, e = .observed v → v ≠ 0 → FiredInCall before) t

/-- The invariant, of a system that may have ended. -/
def TimerKept (t : List TimerEvent) (o : Option TimerSystem) : Prop :=
  ObservesOwn t ∧ ∀ s ∈ o, AtRecvPoint t s

section Invariant

variable {t : List TimerEvent} {s s' : TimerSystem} {e : TimerEvent} {n : ℕ}

theorem InCall.append (h : InCall t) (he : e.isCalled = false) : InCall (t ++ [e]) :=
  Since.append h (by simpa using he) fun _ _ => trivial

theorem inCall_called (t : List TimerEvent) : InCall (t ++ [.called]) :=
  ⟨t, .called, [], rfl, rfl, by simp, trivial⟩

theorem InCall.registers (h : InCall t) : RegisteredInCall n (t ++ [.registered n]) :=
  Since.append h (by simp [TimerEvent.isCalled]) fun _ _ => by simp

theorem RegisteredInCall.append (h : RegisteredInCall n t) (he : e.isCalled = false) :
    RegisteredInCall n (t ++ [e]) :=
  Since.append h (by simpa using he) fun _ hn => List.mem_append_left _ hn

/-- The callback runs for a registration of the call. -/
theorem RegisteredInCall.fires (h : RegisteredInCall n t) : FiredInCall (t ++ [.fired n]) := by
  refine Since.append h (by simp [TimerEvent.isCalled]) fun since hn => ?_
  obtain ⟨before, between, rfl⟩ := List.append_of_mem hn
  exact ⟨n, before, between, [], by simp, by simp⟩

theorem FiredInCall.append (h : FiredInCall t) (he : e.isCalled = false) (hclear : e ≠ .cleared) :
    FiredInCall (t ++ [e]) := by
  refine Since.append h (by simpa using he) ?_
  rintro _ ⟨n, before, between, after, rfl, hafter⟩
  exact ⟨n, before, between, after ++ [e], by simp, by simpa [hafter] using hclear.symm⟩

theorem AtLoop.append (h : AtLoop t s) (he : e.isCalled = false) (hclear : e ≠ .cleared) :
    AtLoop (t ++ [e]) s := by
  rcases h with ⟨n, hpending, hflag, hn⟩ | ⟨hpending, hfired⟩
  · exact Or.inl ⟨n, hpending, hflag, hn.append he⟩
  · exact Or.inr ⟨hpending, hfired.append he hclear⟩

theorem ObservesOwn.append (h : ObservesOwn t)
    (he : ∀ v, e = .observed v → v ≠ 0 → FiredInCall t) : ObservesOwn (t ++ [e]) := by
  refine Each.append h ?_
  intro before a after heq
  obtain ⟨rfl, rfl, rfl⟩ : before = [] ∧ a = e ∧ after = [] := by
    simpa [List.singleton_eq_append_iff] using heq
  rw [List.append_nil]
  exact he

/-- A step without an event. -/
theorem timerKept_pure (hown : ObservesOwn t) (hat : AtRecvPoint t s') :
    TimerKept (t ++ (pure s' : Traced TimerEvent TimerSystem).trace) (some s') := by
  rw [trace_pure, List.append_nil]
  exact ⟨hown, fun _ hs => Option.some.inj hs ▸ hat⟩

/-- A step with one event. -/
theorem timerKept_event (hown : ObservesOwn t)
    (he : ∀ v, e = .observed v → v ≠ 0 → FiredInCall t) (hat : AtRecvPoint (t ++ [e]) s') :
    TimerKept (t ++ [e]) (some s') :=
  ⟨hown.append he, fun _ hs => Option.some.inj hs ▸ hat⟩

/-- A call of the time server that fails, which ends the program. -/
theorem timerKept_ended (hown : ObservesOwn t) (he : ∀ v, e = .observed v → v ≠ 0 → FiredInCall t) :
    TimerKept (t ++ [e]) none :=
  ⟨hown.append he, fun _ hs => absurd hs (Option.not_mem_none _)⟩

/-- **`time_server_deregister_cb`**, which waits for the mutex. If it is taken the step does
nothing, and otherwise nothing is pending behind it. -/
theorem timerKept_deregister {next : RecvPoint} {err : Int32} (hown : ObservesOwn t)
    (hat : AtRecvPoint t s)
    (hnext : AtRecvPoint (t ++ [.deregistered]) { s with pending := none, point := next }) :
    TimerKept (t ++ (deregisterStep next err s).trace) (deregisterStep next err s).result := by
  unfold deregisterStep
  split_ifs
  · exact timerKept_pure hown hat
  · generalize decide (err = 0) = ok
    cases ok with
    | false => exact timerKept_ended hown nofun
    | true => exact timerKept_event hown nofun hnext

/-- **One step of the thread** keeps the invariant. -/
theorem timerKept_recvStep (data err : Int32) (hown : ObservesOwn t) (hat : AtRecvPoint t s) :
    TimerKept (t ++ (recvStep data err s).trace) (recvStep data err s).result := by
  have hat' := hat
  unfold AtRecvPoint at hat'
  unfold recvStep
  cases hpoint : s.point with
  | outside => exact timerKept_event hown nofun (inCall_called t)
  | restart =>
    rw [hpoint] at hat'
    exact timerKept_deregister hown hat ⟨InCall.append hat' rfl, rfl⟩
  | restartClear =>
    rw [hpoint] at hat'
    exact timerKept_event hown nofun ⟨hat'.1.append rfl, hat'.2, rfl⟩
  | register =>
    rw [hpoint] at hat'
    obtain ⟨hcall, -, hflag⟩ := hat'
    simp only [registerStep]
    split_ifs
    · exact timerKept_pure hown hat
    · generalize decide (err = 0) = ok
      cases ok with
      | false => exact timerKept_ended hown nofun
      | true =>
        exact timerKept_event hown nofun (Or.inl ⟨_, rfl, hflag, hcall.registers⟩)
  | getchar =>
    rw [hpoint] at hat'
    exact timerKept_pure hown hat'
  | getTimeout found =>
    rw [hpoint] at hat'
    refine timerKept_event hown ?_ ?_
    · -- the flag is clear as long as the registration is pending
      intro v hv hne
      obtain rfl := TimerEvent.observed.inj hv
      rcases hat' with ⟨n, -, hflag, -⟩ | ⟨-, hfired⟩
      · exact absurd hflag hne
      · exact hfired
    · simp only [AtRecvPoint]
      split_ifs
      · trivial
      · exact AtLoop.append hat' rfl nofun
  | stop => exact timerKept_deregister hown hat trivial
  | stopClear => exact timerKept_event hown nofun trivial

/-- **The callback** finds its registration pending only in the loop, or in front of a call that
takes it back. -/
theorem timerKept_callback (hown : ObservesOwn t) (hat : AtRecvPoint t s)
    (hn : s.pending = some n) :
    TimerKept (t ++ [.fired n]) (some { s with comm := timeoutCb s.comm, pending := none }) := by
  have hloop : AtLoop t s → AtLoop (t ++ [.fired n])
      { s with comm := timeoutCb s.comm, pending := none } := by
    rintro (⟨m, hm, -, hreg⟩ | ⟨hnone, -⟩)
    · obtain rfl : m = n := Option.some.inj (hm.symm.trans hn)
      exact Or.inr ⟨rfl, hreg.fires⟩
    · exact absurd (hnone.symm.trans hn) nofun
  refine timerKept_event hown nofun ?_
  unfold AtRecvPoint at hat ⊢
  cases hpoint : s.point with
  | restart =>
    rw [hpoint] at hat
    exact InCall.append hat rfl
  | restartClear =>
    rw [hpoint] at hat
    exact absurd (hat.2.symm.trans hn) nofun
  | register =>
    rw [hpoint] at hat
    exact absurd (hat.2.1.symm.trans hn) nofun
  | getchar =>
    rw [hpoint] at hat
    exact hloop hat
  | getTimeout found =>
    rw [hpoint] at hat
    exact hloop hat
  | outside | stop | stopClear => trivial

/-- **One step** keeps the invariant, of the thread or of the timer. The callback is the delicate
one, since it may run at any point of the call. -/
theorem timerKept_timerStep (i : TimerInput) (hown : ObservesOwn t) (hat : AtRecvPoint t s) :
    TimerKept (t ++ (timerStep i s).trace) (timerStep i s).result := by
  cases i with
  | comm data err => exact timerKept_recvStep data err hown hat
  | lock => exact timerKept_pure hown hat
  | callback =>
    simp only [timerStep]
    split
    · exact timerKept_callback hown hat ‹_›
    · exact timerKept_pure hown hat
  | unlock => exact timerKept_pure hown hat

end Invariant

/-- **A stale timeout never ends a later wait.** In every interleaving of the two threads, over
any number of calls of `comm_recv_msg`, whenever `comm_get_timeout` returns something else than
zero the callback has run for the registration the same call has made, after that registration,
and the flag has not been written since. -/
theorem observed_own_timeout (parser : HobdParser) (comm : Comm) (is : List TimerInput) :
    Each (fun before e => ∀ v, e = .observed v → v ≠ 0 → FiredInCall before)
      (timerRun parser comm is).trace := by
  have hkept : TimerKept (timerRun parser comm is).trace (timerRun parser comm is).result := by
    refine run_induction timerStep (fun t s i h => timerKept_timerStep i h.1 (h.2 s rfl)) is ?_
    exact ⟨each_of_forall fun _ _ ha => absurd ha List.not_mem_nil,
      fun _ hs => Option.some.inj hs ▸ trivial⟩
  exact hkept.1

/-- A call in which the timer fires between the two looks at the UART and at the flag. -/
example : (timerRun ⟨.getType, 0, 0, 0, 0, 0, [], 0⟩ ⟨1, 0, .sendReq0, 0⟩
    [.comm 0 0, .comm 0 0, .comm 0 0, .comm 0 0, .comm (-1) 0, .lock, .callback,
      .comm 0 0]).trace = [.called, .deregistered, .cleared, .registered 0, .fired 0,
        .observed 1] := by
  decide

end HobdSystem
