import HobdSystem.Hobd.Moves

/-!
# Sessions on the K-line

The thread may drive the K-line only while communication is enabled and the thread does not only
listen, and each time it is set to that it has to wake the ECU up with a pulse before it talks. An
ECU that is not woken up does not understand what it is told, and a thread that drives the line
while another tester uses it destroys what that one says. Every run of the thread keeps to this,
from `hobd_module_init` on, whatever is received and whenever the timer fires:

* `HobdSystem.drives_only_active`: the line is driven only in a round that begins enabled and not
  listening;
* `HobdSystem.Session`, the invariant: away from the state `COMM_STATE_GPIO_INIT` the pulse has
  been given since the last change of the mode, and the line is high.

`HobdSystem.kline_sessions` puts them together. It is a statement about the order of actions, and
the state of the thread does not have that: that the pulse *has* been given is not written down
anywhere but in the state of the exchange, which may be entered from two sides. So the invariant
is about the trace and the state together (`Traced.run_induction`).

The actions of a move are those of the table of `HobdSystem.Hobd.Moves`. Most of them are *quiet*:
they leave the line and the mode alone (`HobdSystem.Quiet`), and a move that is made of such
actions keeps the invariant by one lemma (`HobdSystem.Session.kept_quiet`). What is left are the
pulse, the queries of a state, and the requests that set the mode. A move in which the program
ends has done only some of its actions, and the parts of a pulse are no pulse, but nothing follows
them either.
-/

namespace HobdSystem

open Traced

/-! ### What the actions do to the line -/

/-- The GPIO is changed. -/
def CommAction.isGpio : CommAction → Bool
  | .gpioClr | .gpioSet => true
  | _ => false

/-- A byte is put on the UART. -/
def CommAction.isPutchar : CommAction → Bool
  | .putchar _ => true
  | _ => false

/-- The line is driven. -/
def CommAction.drives (a : CommAction) : Bool := a.isGpio || a.isPutchar

/-- A request that sets the mode is accepted. -/
def CommAction.setsMode : CommAction → Bool
  | .request label _ =>
    label = ipcMsgTypeCommStateSetReq || label = ipcMsgTypeListenOnlySetReq
  | _ => false

/-- The level of the GPIO after some actions, once it has been changed. -/
def gpioLevel (t : List CommAction) : Option Bool :=
  t.foldl (fun level a => match a with
    | .gpioClr => some false
    | .gpioSet => some true
    | _ => level) none

/-- There has been a change of the mode: a request that sets one of the flags, to whatever value. -/
def Requested (t : List CommAction) : Prop := Since CommAction.setsMode (fun _ => True) t

/-- The pulse has been given since the last change of the mode. -/
def Pulsed (t : List CommAction) : Prop := Since CommAction.setsMode (initPulse <:+: ·) t

/-- **No byte is transmitted before the pulse**: in front of every byte on the UART there is a
request that sets the mode, and the whole pulse between the last such request and the byte. -/
def PulsedFirst (t : List CommAction) : Prop :=
  Each (fun before a => a.isPutchar = true → Pulsed before) t

section Traces

variable {t u : List CommAction}

theorem gpioLevel_append (hu : ∀ a ∈ u, a.isGpio = false) : gpioLevel (t ++ u) = gpioLevel t := by
  induction u generalizing t with
  | nil => rw [List.append_nil]
  | cons a u ih =>
    obtain ⟨ha, hu⟩ := List.forall_mem_cons.mp hu
    rw [List.append_cons, ih hu, gpioLevel, List.foldl_concat]
    cases a <;> first | rfl | exact absurd ha (by decide)

theorem Requested.append (h : Requested t) (hu : ∀ a ∈ u, a.setsMode = false) :
    Requested (t ++ u) :=
  Since.append h hu fun _ _ => trivial

theorem Pulsed.append (h : Pulsed t) (hu : ∀ a ∈ u, a.setsMode = false) : Pulsed (t ++ u) :=
  Since.append h hu fun _ hin => hin.trans (List.prefix_append _ _).isInfix

theorem Requested.pulsed (h : Requested t) (hu : ∀ a ∈ u, a.setsMode = false) :
    Pulsed (t ++ (initPulse ++ u)) :=
  Since.append h (List.forall_mem_append.mpr ⟨by decide, hu⟩)
    fun since _ => ⟨since, u, by simp⟩

/-- Actions that transmit nothing. -/
theorem PulsedFirst.append (h : PulsedFirst t) (hu : ∀ a ∈ u, a.isPutchar = false) :
    PulsedFirst (t ++ u) :=
  Each.append h (each_of_forall fun _ a ha hput => absurd (hu a ha) (by simp [hput]))

/-- Actions after the pulse. -/
theorem PulsedFirst.append_of_pulsed (h : PulsedFirst t) (hp : Pulsed t)
    (hu : ∀ a ∈ u, a.setsMode = false) : PulsedFirst (t ++ u) := by
  refine Each.append h ?_
  rintro before a after rfl -
  exact hp.append fun a ha => hu a (List.mem_append_left _ ha)

end Traces

/-! ### What the moves do to the line -/

/-- An action that leaves the line and the mode alone: in the traces of such actions the invariant
has nothing to look at. -/
def Quiet (a : CommAction) : Prop := a.drives = false ∧ a.setsMode = false

instance : DecidablePred Quiet := fun a => inferInstanceAs (Decidable (a.drives = false ∧ _))

/-- An action that leaves the GPIO and the mode alone. -/
def Sends (a : CommAction) : Prop := a.isGpio = false ∧ a.setsMode = false

theorem Quiet.not_isGpio {a : CommAction} (h : Quiet a) : a.isGpio = false :=
  (Bool.or_eq_false_iff.mp h.1).1

theorem Quiet.not_isPutchar {a : CommAction} (h : Quiet a) : a.isPutchar = false :=
  (Bool.or_eq_false_iff.mp h.1).2

theorem Quiet.sends {a : CommAction} (h : Quiet a) : Sends a := ⟨h.not_isGpio, h.2⟩

/-- A request sets the mode. -/
def HobdRequest.setsMode : HobdRequest → Bool
  | .setCommState _ | .setListenOnly _ => true
  | _ => false

section Requests

variable {label word : UInt32} {q : HobdRequest}

/-- An action sets the mode if it accepts a request that does. -/
theorem setsMode_request (hq : hobdRequestOf label word = some q) :
    (CommAction.request label word).setsMode = q.setsMode := by
  unfold hobdRequestOf at hq
  split_ifs at hq with h₁ h₂ h₃ h₄ h₅ <;> obtain rfl := Option.some.inj hq
  · subst h₁
    rfl
  · subst h₂
    rfl
  · subst h₃
    rfl
  · subst h₄
    rfl
  · subst h₅
    rfl

/-- A request that sets the mode starts the exchange over, on a parser that is reset. -/
theorem perform_of_setsMode (hset : q.setsMode = true) (now : UInt64) (s : CommThread) :
    ∃ enabled listenOnly, (q.perform now s).2 =
      CommThread.startOver { s with comm.enabled := enabled, comm.listenOnly := listenOnly } := by
  cases q with
  | setCommState state => exact ⟨desiredFlag state, s.comm.listenOnly, rfl⟩
  | setListenOnly state => exact ⟨s.comm.enabled, desiredFlag state, rfl⟩
  | getStats | getCommState | getListenOnly => exact absurd hset (by decide)

/-- Any other request leaves everything alone but the counters, which are brought up to date. -/
theorem perform_of_not_setsMode (hset : q.setsMode = false) (now : UInt64) (s : CommThread) :
    ∃ stats : HobdStats, (q.perform now s).2 = { s with stats := stats, point := .top } ∧
      stats.commGpioRetryCount = s.stats.commGpioRetryCount ∧
      stats.commInitRetryCount = s.stats.commInitRetryCount := by
  cases q with
  | getStats => exact ⟨s.statsAt now, rfl, rfl, rfl⟩
  | getCommState | getListenOnly => exact ⟨s.stats, rfl, rfl, rfl⟩
  | setCommState state | setListenOnly state => exact absurd hset (by simp [HobdRequest.setsMode])

end Requests

section Moves

variable {r : CommResults} {s s' : CommThread} {t : List CommAction} {o : Option CommThread}

theorem quiet_startTimer : ∀ a ∈ startTimer, Quiet a := by decide

theorem quiet_logReceived (msg : List UInt8) (time : UInt64) : Quiet (logReceived msg time) :=
  ⟨rfl, rfl⟩

/-- A message is transmitted without a change of the GPIO. -/
theorem sends_transmit (dataSize : UInt16) (msg : List UInt8) (now : UInt64) :
    ∀ a ∈ transmit dataSize msg now, Sends a := by
  refine List.forall_mem_append.mpr ⟨fun a ha => ?_, by simp [Sends, CommAction.isGpio,
    CommAction.setsMode]⟩
  obtain ⟨byte, -, rfl⟩ := List.mem_map.mp ha
  exact ⟨rfl, rfl⟩

theorem sends_queryActs (r : CommResults) (tx : List UInt8) (state : CommStateKind) :
    ∀ a ∈ queryActs r tx state, Sends a := by
  cases state with
  | gpioInit => exact fun a ha => absurd ha List.not_mem_nil
  | sendEcuInit =>
    refine List.forall_mem_append.mpr ⟨sends_transmit _ _ _, ?_⟩
    exact List.forall_mem_append.mpr ⟨by simp [Sends, CommAction.isGpio, CommAction.setsMode],
      sends_transmit _ _ _⟩
  | sendReq0 | sendReq1 => exact sends_transmit _ _ _

/-- **The line is driven only from the head of an active round.** All other lines of the table
leave the GPIO and the UART alone. -/
theorem CommMoves.active_or_undriven (h : CommMoves r s t o) :
    s.point = .top ∧ Active s ∨ ∀ a ∈ t, a.drives = false := by
  cases h with
  | pulses hpoint hactive => exact Or.inl ⟨hpoint, hactive⟩
  | asks w hpoint hactive => exact Or.inl ⟨hpoint, hactive⟩
  | listens => exact Or.inr fun a ha => (quiet_startTimer a ha).1
  | passedOver =>
    exact Or.inr (List.forall_mem_cons.mpr ⟨rfl, fun a ha => (quiet_startTimer a ha).1⟩)
  | _ => exact Or.inr (by simp [logReceived, CommAction.drives, CommAction.isGpio,
      CommAction.isPutchar])

/-- **The flags change only with a message**, which is received at the end of a round. -/
theorem CommMoves.flags (h : CommMoves r s t (some s'))
    (hquiet : ∀ blocking, s.point = .recv blocking → r.message = none) :
    s'.comm.enabled = s.comm.enabled ∧ s'.comm.listenOnly = s.comm.listenOnly := by
  cases h with
  | answered blocking m q hpoint hm => simp [hquiet blocking hpoint] at hm
  | _ => exact ⟨rfl, rfl⟩

end Moves

/-! ### The invariant -/

/-- What is known at a point of the loop. A round that began active ends with the line high,
also one that is about to start the exchange over. -/
def AtPoint (t : List CommAction) (s : CommThread) : Prop :=
  match s.point with
  | .top => True
  | .wait _ => s.comm.state ≠ .gpioInit
  | .listen => s.comm.listenOnly ≠ 0
  | .recv _ => Active s → gpioLevel t = some true

/-- **The invariant**, of what the thread has done and its state. A thread that is enabled was
enabled by a request, since it starts disabled, and so there is a last change of the mode to count
from. -/
structure Session (t : List CommAction) (s : CommThread) : Prop where
  requested : s.comm.enabled ≠ 0 → Requested t
  pulsed : s.comm.state ≠ .gpioInit → Pulsed t ∧ gpioLevel t = some true
  atPoint : AtPoint t s

/-- The invariant, of a program that may have ended. -/
def Kept (t : List CommAction) (o : Option CommThread) : Prop :=
  PulsedFirst t ∧ ∀ s ∈ o, Session t s

section Session

variable {t u : List CommAction} {s s' : CommThread}

theorem Session.extend (h : Session t s) (hu : ∀ a ∈ u, Sends a) (hmode : SameMode s.comm s'.comm)
    (hpoint : AtPoint (t ++ u) s') : Session (t ++ u) s' := by
  obtain ⟨hen, -, hstate⟩ := hmode
  refine ⟨fun hc => ?_, fun hc => ?_, hpoint⟩
  · rw [hen] at hc
    exact (h.requested hc).append fun a ha => (hu a ha).2
  · rw [hstate] at hc
    obtain ⟨hp, hlevel⟩ := h.pulsed hc
    exact ⟨hp.append fun a ha => (hu a ha).2,
      (gpioLevel_append fun a ha => (hu a ha).1).trans hlevel⟩

/-- A quiet move that keeps the mode. -/
theorem Session.kept_quiet (h : Session t s) (hfirst : PulsedFirst t) (hu : ∀ a ∈ u, Quiet a)
    (hmode : SameMode s.comm s'.comm) (hpoint : AtPoint (t ++ u) s') : Kept (t ++ u) (some s') := by
  refine ⟨hfirst.append fun a ha => (hu a ha).not_isPutchar, ?_⟩
  rintro _ ⟨⟩
  exact h.extend (fun a ha => (hu a ha).sends) hmode hpoint

/-- A quiet move of a thread that waits, wherever it leads. The line is high. -/
theorem Session.kept_wait {w : RespWait} (h : Session t s) (hfirst : PulsedFirst t)
    (hpoint : s.point = .wait w) (hu : ∀ a ∈ u, Quiet a)
    (hen : s'.comm.enabled = s.comm.enabled) (hrecv : s'.point = .recv false) :
    Kept (t ++ u) (some s') := by
  have hat : s.comm.state ≠ .gpioInit := by
    have hat := h.atPoint
    simpa only [AtPoint, hpoint] using hat
  obtain ⟨hp, hlevel⟩ := h.pulsed hat
  have hlevel' := (gpioLevel_append fun a ha => (hu a ha).not_isGpio).trans hlevel
  refine ⟨hfirst.append fun a ha => (hu a ha).not_isPutchar, ?_⟩
  rintro _ ⟨⟩
  refine ⟨fun hc => ?_, fun _ => ⟨hp.append fun a ha => (hu a ha).2, hlevel'⟩, ?_⟩
  · rw [hen] at hc
    exact (h.requested hc).append fun a ha => (hu a ha).2
  · simp only [AtPoint, hrecv]
    exact fun _ => hlevel'

/-- **The pulse** starts a session. It is behind the last change of the mode, since it is at the
end of the trace and there has been such a change. -/
theorem Session.kept_pulse (h : Session t s) (hfirst : PulsedFirst t) (hactive : Active s)
    (hrecv : s'.point = .recv false) :
    Kept (t ++ (initPulse ++ [.serialConfigure hobdKlineBaud 8 1])) (some s') := by
  have hlevel : gpioLevel (t ++ (initPulse ++ [.serialConfigure hobdKlineBaud 8 1])) =
      some true := by
    simp [gpioLevel, initPulse]
  have hp : Pulsed (t ++ (initPulse ++ [.serialConfigure hobdKlineBaud 8 1])) :=
    (h.requested hactive.1).pulsed (by decide)
  refine ⟨hfirst.append (by decide), ?_⟩
  rintro _ ⟨⟩
  refine ⟨fun _ => (h.requested hactive.1).append (by decide), fun _ => ⟨hp, hlevel⟩, ?_⟩
  simp only [AtPoint, hrecv]
  exact fun _ => hlevel

/-- **The queries of a state** are transmitted behind the pulse, which the thread has in its
history as soon as its state is not the first one. -/
theorem Session.kept_query {w : RespWait} (h : Session t s) (hfirst : PulsedFirst t)
    (hstate : s.comm.state ≠ .gpioInit) (hu : ∀ a ∈ u, Sends a) (hmode : SameMode s.comm s'.comm)
    (hwait : s'.point = .wait w) : Kept (t ++ u) (some s') := by
  refine ⟨hfirst.append_of_pulsed (h.pulsed hstate).1 fun a ha => (hu a ha).2, ?_⟩
  rintro _ ⟨⟩
  refine h.extend hu hmode ?_
  simp only [AtPoint, hwait]
  exact hmode.2.2 ▸ hstate

/-- **A request** sets the mode and starts the exchange over, or keeps both. There is no request
that sets the mode and leaves the exchange as it is, and this is what the result rests on. -/
theorem Session.kept_request {label word : UInt32} {q : HobdRequest} (reply : IpcReply)
    (now : UInt64) (h : Session t s) (hfirst : PulsedFirst t)
    (hq : hobdRequestOf label word = some q) :
    Kept (t ++ [.request label word, .reply reply]) (some (q.perform now s).2) := by
  cases hset : q.setsMode with
  | true =>
    -- the request is now the last that set the mode
    obtain ⟨enabled, listenOnly, heq⟩ := perform_of_setsMode hset now s
    rw [heq]
    refine ⟨hfirst.append (by simp [CommAction.isPutchar]), ?_⟩
    rintro _ ⟨⟩
    exact ⟨fun _ => ⟨t, _, [.reply reply], rfl, (setsMode_request hq).trans hset,
      by simp [CommAction.setsMode], trivial⟩, fun hc => absurd rfl hc, trivial⟩
  | false =>
    obtain ⟨stats, heq, -⟩ := perform_of_not_setsMode hset now s
    rw [heq]
    refine h.kept_quiet hfirst ?_ (SameMode.refl _) trivial
    refine List.forall_mem_cons.mpr ⟨⟨rfl, (setsMode_request hq).trans hset⟩, ?_⟩
    exact List.forall_mem_singleton.mpr ⟨rfl, rfl⟩

/-- **What a move of the table does** keeps the invariant, line by line: the pulse, the queries,
the requests, and the lines that are quiet. -/
theorem Session.kept_moves {r : CommResults} {o : Option CommThread} (h : Session t s)
    (hfirst : PulsedFirst t) (hm : CommMoves r s u o) : Kept (t ++ u) o := by
  have hat := h.atPoint
  have hstop : Quiet .deregisterCb := ⟨rfl, rfl⟩
  cases hm with
  | disabled hpoint hen =>
    exact h.kept_quiet hfirst (by simp) (SameMode.refl _) fun hactive => absurd hen hactive.1
  | listens hpoint hen hlisten =>
    exact h.kept_quiet hfirst quiet_startTimer (sameMode_untimed _) hlisten
  | pulses hpoint hactive hstate => exact h.kept_pulse hfirst hactive rfl
  | asks w hpoint hactive hawaits =>
    refine h.kept_query hfirst ?_ ?_ (sameMode_untimed _) rfl
    · rintro hc
      rw [hc] at hawaits
      exact absurd hawaits (by simp [CommStateKind.awaits])
    · exact List.forall_mem_append.mpr
        ⟨sends_queryActs _ _ _, fun a ha => (quiet_startTimer a ha).sends⟩
  | responded w hpoint hfound hresp =>
    exact h.kept_wait hfirst hpoint
      (List.forall_mem_cons.mpr ⟨hstop, List.forall_mem_singleton.mpr (quiet_logReceived _ _)⟩)
      rfl rfl
  | passedOver w hpoint hfound hresp =>
    refine h.kept_quiet hfirst (List.forall_mem_cons.mpr ⟨hstop, quiet_startTimer⟩)
      (sameMode_untimed _) ?_
    rw [AtPoint, hpoint] at hat
    simpa only [AtPoint, hpoint, Comm.untimed] using hat
  | gaveUp w hpoint hfound hflag =>
    exact h.kept_wait hfirst hpoint (List.forall_mem_singleton.mpr hstop) rfl rfl
  | waited w hpoint hfound hflag =>
    refine h.kept_quiet hfirst (by simp) (SameMode.refl _) ?_
    simpa only [AtPoint, hpoint] using hat
  | heard hpoint hfound =>
    rw [AtPoint, hpoint] at hat
    exact h.kept_quiet hfirst
      (List.forall_mem_cons.mpr ⟨hstop, List.forall_mem_singleton.mpr (quiet_logReceived _ _)⟩)
      (sameMode_untimed _) fun hactive => absurd hactive.2 hat
  | unheard hpoint hfound hflag =>
    rw [AtPoint, hpoint] at hat
    exact h.kept_quiet hfirst (List.forall_mem_singleton.mpr hstop) (sameMode_untimed _)
      fun hactive => absurd hactive.2 hat
  | listened hpoint hfound hflag =>
    refine h.kept_quiet hfirst (by simp) (SameMode.refl _) ?_
    simpa only [AtPoint, hpoint] using hat
  | blocked hpoint =>
    refine h.kept_quiet hfirst (by simp) (SameMode.refl _) ?_
    rwa [List.append_nil]
  | polled => exact h.kept_quiet hfirst (by simp) (SameMode.refl _) trivial
  | answered blocking m q hpoint hm hlabelled hq => exact h.kept_request _ _ hfirst hq
  | refused =>
    exact ⟨hfirst.append (by simp [CommAction.isPutchar]), fun _ hnone => absurd hnone (by simp)⟩

/-- **One move** keeps the invariant. A program that ends in it has done a part of the move. -/
theorem Session.kept_commStep (i : CommInput) (h : Session t s) (hfirst : PulsedFirst t) :
    Kept (t ++ (commStep i s).trace) (commStep i s).result := by
  cases i with
  | timeout =>
    refine h.kept_quiet hfirst (by simp [commStep]) ⟨rfl, rfl, rfl⟩ ?_
    rw [commStep, pure_eq, List.append_nil]
    exact h.atPoint
  | run r =>
    obtain ⟨u, o, hm, htakes⟩ := takes_commStep r s
    have hkept := h.kept_moves hfirst hm
    refine htakes.induct (fun u o => Kept (t ++ u) o) hkept ?_
    rintro u' ⟨rest, rfl⟩
    rw [← List.append_assoc] at hkept
    exact ⟨Each.of_append hkept.1, fun _ hnone => absurd hnone (by simp)⟩

end Session

/-- The thread starts disabled and outside of the exchange, with nothing driven. -/
theorem obdCommThreadStart_emits (r : StartResults) :
    Emits Quiet (fun s => s.comm = hobdModuleInit ∧ s.point = .top ∧
        hobdParserInit (List.replicate 512 0) 512 = some s.parser ∧
        s.txBuffer = List.replicate 256 0 ∧ s.stats = ⟨0, 0, 0, 0, 0⟩)
      (obdCommThreadStart r hobdModuleInit) := by
  obtain ⟨p, hp⟩ : ∃ p, hobdParserInit (List.replicate 512 0) 512 = some p := ⟨_, rfl⟩
  refine (takes_obdCommThreadStart r hp).emits (by decide) ?_
  rintro _ ⟨⟩
  exact ⟨rfl, rfl, hp, rfl, rfl⟩

/-- **Every run** keeps the invariant. -/
theorem kept_commRun (r : StartResults) (is : List CommInput) :
    Kept (commRun r is).trace (commRun r is).result := by
  refine run_induction commStep (fun t s i h => (h.2 s rfl).kept_commStep i h.1) is ?_
  have hstart := obdCommThreadStart_emits r
  refine ⟨each_of_forall fun _ a ha hput => ?_, fun s hs => ?_⟩
  · rw [(hstart.1 a ha).not_isPutchar] at hput
    exact absurd hput (by decide)
  · obtain ⟨hcomm, hpoint, -⟩ := hstart.2 s hs
    refine ⟨fun hc => absurd (by rw [hcomm]; rfl) hc, fun hc => absurd (by rw [hcomm]; rfl) hc, ?_⟩
    simp only [AtPoint, hpoint]

/-! ### The results -/

/-- **The line is driven only in an active round**, from any state. -/
theorem drives_only_active (i : CommInput) (s : CommThread) {a : CommAction}
    (ha : a ∈ (commStep i s).trace) (hdrives : a.drives = true) :
    s.point = .top ∧ Active s := by
  cases i with
  | timeout => exact absurd ha List.not_mem_nil
  | run r =>
    obtain ⟨t, o, hm, ha⟩ := exists_commMoves_of_mem ha
    refine hm.active_or_undriven.resolve_right fun hundriven => ?_
    rw [hundriven a ha] at hdrives
    exact absurd hdrives (by decide)

theorem undriven_of_not_active (i : CommInput) {s : CommThread} (h : ¬(s.point = .top ∧ Active s)) :
    ∀ a ∈ (commStep i s).trace, a.drives = false :=
  fun _ ha => Bool.eq_false_iff.mpr fun hdrives => h (drives_only_active i s ha hdrives)

/-- **The flags change only at the end of a round.** -/
theorem flags_within_round (i : CommInput) {s s' : CommThread}
    (hround : ∀ blocking, s.point ≠ .recv blocking) (hs' : s' ∈ (commStep i s).result) :
    s'.comm.enabled = s.comm.enabled ∧ s'.comm.listenOnly = s.comm.listenOnly := by
  cases i with
  | timeout =>
    obtain rfl := Option.some.inj hs'
    exact ⟨rfl, rfl⟩
  | run r => exact (commMoves_of_result hs').flags fun blocking h => absurd h (hround blocking)

/-- **The thread keeps its sessions**, in every run from `hobd_module_init` on:

* nothing is driven in front of the loop, and in the loop only from the head of a round that is
  enabled and does not only listen, and these flags do not change until the round ends;
* the line is high when such a round ends;
* no byte is transmitted unless the whole pulse has been given since the last request that set
  the mode. -/
theorem kline_sessions (r : StartResults) (is : List CommInput) :
    (∀ a ∈ (obdCommThreadStart r hobdModuleInit).trace, a.drives = false) ∧
      (∀ s, (commRun r is).result = some s → ∀ i,
        (∀ a ∈ (commStep i s).trace, a.drives = true → s.point = .top ∧ Active s) ∧
        ((∀ blocking, s.point ≠ .recv blocking) → ∀ s' ∈ (commStep i s).result,
          s'.comm.enabled = s.comm.enabled ∧ s'.comm.listenOnly = s.comm.listenOnly) ∧
        ((∃ blocking, s.point = .recv blocking) → Active s →
          gpioLevel (commRun r (is ++ [i])).trace = some true)) ∧
      PulsedFirst (commRun r is).trace := by
  obtain ⟨hfirst, hsession⟩ := kept_commRun r is
  refine ⟨fun a ha => ((obdCommThreadStart_emits r).1 a ha).1, fun s hs i => ⟨?_, ?_, ?_⟩, hfirst⟩
  · exact fun a ha hdrives => drives_only_active i s ha hdrives
  · exact fun hround s' hs' => flags_within_round i hround hs'
  · -- the line is high when the thread receives, and receiving does not change it
    rintro ⟨blocking, hpoint⟩ hactive
    have hat : Active s → gpioLevel (commRun r is).trace = some true := by
      have hat := (hsession s hs).atPoint
      simpa only [AtPoint, hpoint] using hat
    have hquiet := undriven_of_not_active i (s := s) (by simp [hpoint])
    have hrun : (commRun r (is ++ [i])).trace = (commRun r is).trace ++ (commStep i s).trace := by
      rw [commRun, run_concat commStep hs]
      rfl
    rw [hrun, gpioLevel_append fun a ha => (Bool.or_eq_false_iff.mp (hquiet a ha)).1]
    exact hat hactive

/-- Every call succeeds, the UART has no byte, and a message is received or not. -/
def quietLine (message : Option IpcMessage) : CommInput :=
  .run ⟨0, 0, 0, -1, 0, 0, 0, fun _ => some 0, message⟩

/-- A message from the endpoint of the thread. -/
def modeRequest (label word : UInt32) : Option IpcMessage :=
  some ⟨hobdmodBaseBadge, label, 1, ⟨#v[word, 0, 0, 0], Vector.replicate 120 0⟩⟩

/-- The thread is set to talk and to be enabled, and gives the pulse. -/
def wakeUpRun : List CommInput :=
  [quietLine none, quietLine (modeRequest ipcMsgTypeListenOnlySetReq 0), quietLine none,
    quietLine (modeRequest ipcMsgTypeCommStateSetReq 1), quietLine none]

theorem kline_sessions_wakeUp :
    ∃ s, (commRun ⟨0, 0, 0⟩ wakeUpRun).result = some s ∧ s.point = .recv false ∧ Active s ∧
      gpioLevel (commRun ⟨0, 0, 0⟩ (wakeUpRun ++ [quietLine none])).trace = some true ∧
      ((commRun ⟨0, 0, 0⟩ (wakeUpRun ++ [quietLine none, quietLine none])).trace)[11]? =
        some (.putchar 0xFE) ∧
      PulsedFirst (commRun ⟨0, 0, 0⟩ (wakeUpRun ++ [quietLine none, quietLine none])).trace :=
  ⟨_, rfl, rfl, by decide,
    ((kline_sessions ⟨0, 0, 0⟩ wakeUpRun).2.1 _ rfl (quietLine none)).2.2 ⟨false, rfl⟩ (by decide),
    rfl, (kline_sessions ⟨0, 0, 0⟩ _).2.2⟩

end HobdSystem
