import HobdSystem.Hobd.Client
import HobdSystem.Hobd.Recording

/-!
# What the module reports

Other threads see the thread that talks to the ECU only through its counters and its two flags.
Both are kept across everything the thread does: waits that time out, sessions that are opened
again and again, changes of the mode.

**The counters say what has happened on the line** (`HobdSystem.hobdGetStats_counts`): how many
frames have come in and how many were thrown away, as a receiver counts them that starts over
where the parser is reset; how often the line was pulled down and how often a session was opened.
They are counters of sixteen bits. **The flags say what was last asked for**
(`HobdSystem.hobd_flags_requested`): nothing but a request changes one.

Two of the four counters are the parser's, and they are where the difficulty is. A parser is reset
in the middle of a frame now and then, and the bytes of that frame are then neither a valid nor an
invalid message. A count of the frames in all the bytes that were read would be wrong; the
receiver that the counters are held against starts over where the thread does
(`HobdSystem.receiver`), which is where a session is opened and where the mode is set
(`HobdSystem.Move.restarts`). What one move does to the parser and to the other two counters is
`HobdSystem.Tallied`, and it is read off the table of moves.

The last part takes this to the functions that other threads call. A call that is answered is a
move of the thread (`HobdSystem.hobdCall_move`), so a caller is told what has happened up to its
call; and a call that sets a flag is itself the last request of its kind from then on.
-/

namespace HobdSystem

open Bytes Framing Run Traced

/-! ### What has happened on the line -/

/-- The parser starts over: a session is opened, or the mode is set. -/
def Move.restarts (m : Move) : Bool := m.sendsInit || m.setsMode

/-- The ECU is woken up. -/
def Move.pulses (m : Move) : Bool := m.actions.any CommAction.isGpio

/-- A receiver that is given the moves and starts over with the parser. -/
def receiver (m : Move) (pre : List UInt8) : Option Verdict × List UInt8 :=
  if m.restarts then (none, [])
  else match m.read? with
    | none => (none, pre)
    | some b => (some (collect hobdFormat b pre).1, (collect hobdFormat b pre).2)

/-- The verdicts of the receiver. -/
def verdicts (ms : List Move) : List Verdict := (answers receiver [] ms).filterMap id

/-- **The counters of some moves**, as they should be reported at some time: numbers of moves and
of frames, cut off to the sixteen bits that the module has for them. -/
def tally (now : UInt64) (ms : List Move) : HobdStats where
  timestamp := now
  validRxCount := UInt16.ofNat ((verdicts ms).countP Verdict.isValid)
  invalidRxCount := UInt16.ofNat ((verdicts ms).countP Verdict.isInvalid)
  commGpioRetryCount := UInt16.ofNat (ms.countP Move.pulses)
  commInitRetryCount := UInt16.ofNat (ms.countP Move.sendsInit)

theorem verdicts_concat (ms : List Move) (m : Move) :
    verdicts (ms ++ [m]) = verdicts ms ++ (receiver m (final receiver [] ms)).1.toList := by
  rw [verdicts, answers_append, List.filterMap_append]
  change _ ++ ([(receiver m (final receiver [] ms)).1]).filterMap id = _
  cases (receiver m (final receiver [] ms)).1 <;> rfl

theorem final_receiver_concat (ms : List Move) (m : Move) :
    final receiver [] (ms ++ [m]) = (receiver m (final receiver [] ms)).2 := by
  rw [final_append]
  rfl

/-! ### What a move counts -/

/-- **What a move does to the parser and the counters**: the parser is reset, or is given the byte
that was read, or is left alone, and each of the two other counters goes up by one or stays. -/
structure Tallied (m : Move) (s' : CommThread) : Prop where
  parser : s'.parser = if m.restarts then hobdParserReset m.1.parser
    else m.read?.elim m.1.parser fun b => (hobdParserParseByte b m.1.parser).2
  pulses : s'.stats.commGpioRetryCount =
    m.1.stats.commGpioRetryCount + if m.pulses then 1 else 0
  inits : s'.stats.commInitRetryCount =
    m.1.stats.commInitRetryCount + if m.sendsInit then 1 else 0

/-- The counters that are not the parser's are left alone. -/
def SameCounts (stats stats' : HobdStats) : Prop :=
  stats'.commGpioRetryCount = stats.commGpioRetryCount ∧
    stats'.commInitRetryCount = stats.commInitRetryCount

section Step

variable {s s' : CommThread} {i : CommInput} {r : CommResults} {t : List CommAction}

/-- What polling does to the parser. -/
theorem pollUart_snd (r : CommResults) (p : HobdParser) : (pollUart r.getchar p).2 =
    (CommInput.run r).byte?.elim p fun b => (hobdParserParseByte b p).2 := by
  simp only [pollUart, CommInput.byte?]
  split_ifs <;> rfl

/-- A move that drives nothing and leaves the mode alone. -/
theorem tallied_of_actions {m : Move} (ht : m.actions = t) (hsent : sentBy t = [])
    (hset : t.any CommAction.setsMode = false) (hgpio : t.any CommAction.isGpio = false)
    (hparser : s'.parser = m.read?.elim m.1.parser fun b => (hobdParserParseByte b m.1.parser).2)
    (hcounts : SameCounts m.1.stats s'.stats) : Tallied m s' := by
  obtain ⟨hinit, hmode⟩ := unmarked_of_actions ht hsent hset
  have hpulse : m.pulses = false := by rw [Move.pulses, ht, hgpio]
  refine ⟨?_, ?_, ?_⟩
  · rw [Move.restarts, hinit, hmode]
    exact hparser
  · rw [hpulse]
    simpa using hcounts.1
  · rw [hinit]
    simpa using hcounts.2

/-- A move that does not read. -/
theorem tallied_quiet (ht : Move.actions (s, .run r) = t) (hread : Move.read? (s, .run r) = none)
    (hsent : sentBy t = []) (hset : t.any CommAction.setsMode = false)
    (hgpio : t.any CommAction.isGpio = false) (hparser : s'.parser = s.parser)
    (hstats : s'.stats = s.stats) : Tallied (s, .run r) s' := by
  refine tallied_of_actions ht hsent hset hgpio ?_ (hstats ▸ ⟨rfl, rfl⟩)
  rw [hread]
  exact hparser

/-- A move that polls the UART. -/
theorem tallied_poll (ht : Move.actions (s, .run r) = t)
    (hread : Move.read? (s, .run r) = (CommInput.run r).byte?) (hsent : sentBy t = [])
    (hset : t.any CommAction.setsMode = false) (hgpio : t.any CommAction.isGpio = false)
    (hparser : s'.parser = (pollUart r.getchar s.parser).2) (hstats : s'.stats = s.stats) :
    Tallied (s, .run r) s' := by
  refine tallied_of_actions ht hsent hset hgpio ?_ (hstats ▸ ⟨rfl, rfl⟩)
  rw [hread, hparser, pollUart_snd]

/-- **The pulse** is counted. -/
theorem tallied_pulse (hpoint : s.point = .top)
    (ht : Move.actions (s, .run r) = initPulse ++ [.serialConfigure hobdKlineBaud 8 1]) :
    Tallied (s, .run r) { s with
      comm.state := .sendEcuInit, stats.commGpioRetryCount := s.stats.commGpioRetryCount + 1
      point := .recv false } := by
  have hread : Move.read? (s, .run r) = none := by simp only [Move.read?, hpoint]
  obtain ⟨hsends, hmode⟩ := unmarked_of_actions ht rfl rfl
  have hpulse : Move.pulses (s, .run r) = true := by rw [Move.pulses, ht]; rfl
  refine ⟨?_, ?_, ?_⟩
  · rw [Move.restarts, hsends, hmode, hread]
    rfl
  · rw [hpulse]
    rfl
  · rw [hsends]
    exact (UInt16.add_zero _).symm

/-- **The queries of a state**: a session that is opened is counted, and starts on a parser that is
reset. -/
theorem tallied_asks {w : RespWait} (htx : 8 ≤ s.txBuffer.length) (hpoint : s.point = .top)
    (ht : Move.actions (s, .run r) = queryActs r s.txBuffer s.comm.state ++ startTimer) :
    Tallied (s, .run r) { s.queried with comm := s.comm.untimed, point := .wait w } := by
  have hread : Move.read? (s, .run r) = none := by simp only [Move.read?, hpoint]
  have hacts : ∀ a ∈ Move.actions (s, .run r), Sends a := by
    rw [ht]
    exact List.forall_mem_append.mpr
      ⟨sends_queryActs _ _ _, fun a ha => (quiet_startTimer a ha).sends⟩
  have hmode : Move.setsMode (s, .run r) = false :=
    List.any_eq_false.mpr fun a ha => by simp [(hacts a ha).2]
  have hpulse : Move.pulses (s, .run r) = false :=
    List.any_eq_false.mpr fun a ha => by simp [(hacts a ha).1]
  have hq := queries_sentBy r htx s.comm.state
  have hsends : Move.sendsInit (s, .run r) = decide (s.comm.state = .sendEcuInit) := by
    rw [Move.sendsInit, ht]
    by_cases hopen : s.comm.state = .sendEcuInit
    · rw [hopen] at hq ⊢
      rw [show sentBy _ = wakeUpFrame.bytes ++ initQuery from hq]
      decide
    · rw [decide_eq_false hopen, decide_eq_false (initQuery_not_within hq hopen)]
  refine ⟨?_, ?_, ?_⟩
  · rw [Move.restarts, hsends, hmode, hread, Bool.or_false]
    simp only [decide_eq_true_eq]
    rfl
  · rw [hpulse]
    exact (UInt16.add_zero _).symm
  · rw [hsends]
    simp only [decide_eq_true_eq]
    rfl

/-- **A request** leaves the counters alone, also the one that reads them. -/
theorem tallied_answered {blocking : Bool} {m : IpcMessage} {q : HobdRequest} {reply : IpcReply}
    (now : UInt64) (hpoint : s.point = .recv blocking)
    (ht : Move.actions (s, .run r) = [.request m.label m.ipc.getMR0, .reply reply])
    (hq : hobdRequestOf m.label m.ipc.getMR0 = some q) :
    Tallied (s, .run r) (q.perform now s).2 := by
  have hread : Move.read? (s, .run r) = none := by simp only [Move.read?, hpoint]
  have hmark : Move.setsMode (s, .run r) = q.setsMode := by
    rw [Move.setsMode, ht, List.any_cons, setsMode_request hq]
    exact Bool.or_false _
  have hsends : Move.sendsInit (s, .run r) = false := sendsInit_of_sentBy_nil (by rw [ht]; rfl)
  have hpulse : Move.pulses (s, .run r) = false := by rw [Move.pulses, ht]; rfl
  cases hset : q.setsMode with
  | true =>
    obtain ⟨enabled, listenOnly, heq⟩ := perform_of_setsMode hset now s
    rw [heq]
    refine ⟨?_, ?_, ?_⟩
    · rw [Move.restarts, hmark, hset, Bool.or_true]
      rfl
    · rw [hpulse]
      exact (UInt16.add_zero _).symm
    · rw [hsends]
      exact (UInt16.add_zero _).symm
  | false =>
    obtain ⟨stats, heq, hcounts⟩ := perform_of_not_setsMode hset now s
    rw [heq]
    refine tallied_of_actions ht rfl ?_ rfl ?_ hcounts
    · rw [List.any_cons, (setsMode_request hq).trans hset]
      rfl
    · rw [hread]
      rfl

/-- **One move** is counted. What is needed of the invariant is that the transmit buffer has room
for the queries. -/
theorem Exchanging.tallied {h : List Move} (hex : Exchanging h s)
    (hs' : (commStep i s).result = some s') : Tallied (s, i) s' := by
  cases i with
  | timeout =>
    obtain rfl := Option.some.inj hs'
    refine ⟨?_, (UInt16.add_zero _).symm, (UInt16.add_zero _).symm⟩
    rw [Move.read?_timeout]
    rfl
  | run r =>
    have hmoves := commMoves_of_result hs'
    generalize ht : (commStep (.run r) s).trace = t at hmoves
    cases hmoves with
    | pulses hpoint => exact tallied_pulse hpoint ht
    | asks w hpoint => exact tallied_asks hex.tx hpoint ht
    | answered blocking m q hpoint hm hlabelled hq => exact tallied_answered _ hpoint ht hq
    | disabled hpoint => exact tallied_quiet ht (Move.read?_top hpoint) rfl rfl rfl rfl rfl
    | listens hpoint => exact tallied_quiet ht (Move.read?_top hpoint) rfl rfl rfl rfl rfl
    | blocked hpoint => exact tallied_quiet ht (Move.read?_recv hpoint) rfl rfl rfl rfl rfl
    | polled blocking hpoint => exact tallied_quiet ht (Move.read?_recv hpoint) rfl rfl rfl rfl rfl
    | responded w hpoint => exact tallied_poll ht (Move.read?_wait hpoint) rfl rfl rfl rfl rfl
    | passedOver w hpoint => exact tallied_poll ht (Move.read?_wait hpoint) rfl rfl rfl rfl rfl
    | gaveUp w hpoint => exact tallied_poll ht (Move.read?_wait hpoint) rfl rfl rfl rfl rfl
    | waited w hpoint => exact tallied_poll ht (Move.read?_wait hpoint) rfl rfl rfl rfl rfl
    | heard hpoint => exact tallied_poll ht (Move.read?_listen hpoint) rfl rfl rfl rfl rfl
    | unheard hpoint => exact tallied_poll ht (Move.read?_listen hpoint) rfl rfl rfl rfl rfl
    | listened hpoint => exact tallied_poll ht (Move.read?_listen hpoint) rfl rfl rfl rfl rfl

end Step

/-! ### Runs -/

/-- **The counters are those of the moves**, modulo the width of their type: the valid and the
invalid frames, the pulses, and the initialisations. -/
structure Counted (h : List Move) (s : CommThread) : Prop where
  reads : Reads (final receiver [] h) s.parser
  valid : s.parser.validCount = UInt16.ofNat ((verdicts h).countP Verdict.isValid)
  invalid : s.parser.invalidCount = UInt16.ofNat ((verdicts h).countP Verdict.isInvalid)
  pulses : s.stats.commGpioRetryCount = UInt16.ofNat (h.countP Move.pulses)
  inits : s.stats.commInitRetryCount = UInt16.ofNat (h.countP Move.sendsInit)

section Runs

variable {h : List Move} {s s' : CommThread} {i : CommInput}

theorem Counted.statsAt_eq (hc : Counted h s) (now : UInt64) : s.statsAt now = tally now h := by
  rw [CommThread.statsAt, tally, hc.valid, hc.invalid, hc.pulses, hc.inits]

/-- One more, or not, in a counter of sixteen bits. -/
theorem ofNat_countP_concat {α : Type*} (p : α → Bool) (l : List α) (a : α) :
    UInt16.ofNat ((l ++ [a]).countP p) = UInt16.ofNat (l.countP p) + if p a then 1 else 0 := by
  rw [List.countP_append, List.countP_singleton, UInt16.ofNat_add]
  split_ifs <;> rfl

/-- **One move** keeps the counters right: one more is counted on both sides, or on neither. -/
theorem Counted.step (hc : Counted h s) (ht : Tallied (s, i) s') : Counted (h ++ [(s, i)]) s' := by
  have hpulses : s'.stats.commGpioRetryCount =
      UInt16.ofNat ((h ++ [(s, i)]).countP Move.pulses) := by
    rw [ofNat_countP_concat, ← hc.pulses]
    exact ht.pulses
  have hinits : s'.stats.commInitRetryCount =
      UInt16.ofNat ((h ++ [(s, i)]).countP Move.sendsInit) := by
    rw [ofNat_countP_concat, ← hc.inits]
    exact ht.inits
  have hparser := ht.parser
  have hkept : ∀ pre, receiver (s, i) (final receiver [] h) = (none, pre) → Reads pre s'.parser →
      s'.parser.validCount = s.parser.validCount →
      s'.parser.invalidCount = s.parser.invalidCount → Counted (h ++ [(s, i)]) s' := by
    intro pre hrecv hreads hvalid hinvalid
    refine ⟨?_, ?_, ?_, hpulses, hinits⟩
    · rw [final_receiver_concat, hrecv]
      exact hreads
    · rw [verdicts_concat, hrecv, hvalid, hc.valid]
      simp
    · rw [verdicts_concat, hrecv, hinvalid, hc.invalid]
      simp
  by_cases hrestart : Move.restarts (s, i) = true
  · rw [if_pos hrestart] at hparser
    refine hkept [] (if_pos hrestart) (reads_nil ?_) ?_ ?_ <;> rw [hparser] <;> rfl
  · rw [if_neg hrestart] at hparser
    cases hread : Move.read? (s, i) with
    | none =>
      rw [hread] at hparser
      refine hkept _ (by rw [receiver, if_neg hrestart, hread]) ?_ ?_ ?_ <;> rw [hparser]
      · exact hc.reads
      · rfl
      · rfl
    | some b =>
      rw [hread] at hparser
      obtain ⟨-, hmoves⟩ := parseByte_reads hc.reads b
      have hrecv : receiver (s, i) (final receiver [] h) =
          (some (collect hobdFormat b (final receiver [] h)).1,
            (collect hobdFormat b (final receiver [] h)).2) := by
        rw [receiver, if_neg hrestart, hread]
      replace hparser : s'.parser = (hobdParserParseByte b s.parser).2 := hparser
      refine ⟨?_, ?_, ?_, hpulses, hinits⟩
      · rw [final_receiver_concat, hrecv, hparser]
        exact hmoves.reads
      · rw [verdicts_concat, hrecv, hparser, hmoves.validCount, hc.valid]
        exact (ofNat_countP_concat ..).symm
      · rw [verdicts_concat, hrecv, hparser, hmoves.invalidCount, hc.invalid]
        exact (ofNat_countP_concat ..).symm

theorem counted_start (r : StartResults)
    (hs : (obdCommThreadStart r hobdModuleInit).result = some s) : Counted [] s := by
  obtain ⟨-, -, hparser, -, hstats⟩ := (obdCommThreadStart_emits r).2 s hs
  obtain ⟨-, hboundary, hvalid, hinvalid, -⟩ := hobdParserInit_eq_some hparser
  exact ⟨reads_nil hboundary, hvalid, hinvalid, by rw [hstats]; rfl, by rw [hstats]; rfl⟩

/-- **Every run** keeps the counters right. -/
theorem counted_commRun (r : StartResults) (is : List CommInput)
    (hs : (commRun r is).result = some s) : Counted (commHistory r is) s :=
  (history_induction commStep (fun h s => Exchanging h s ∧ Counted h s)
    (fun _ _ _ _ hinv hs' => ⟨hinv.1.step hs', hinv.2.step (hinv.1.tallied hs')⟩) is _ []
    (fun _ hs => ⟨exchanging_start r hs, counted_start r hs⟩) s hs).2

end Runs

/-! ### The flags -/

/-- The word of a request with some label. -/
def CommAction.word? (label : UInt32) : CommAction → Option UInt32
  | .request l word => if l = label then some word else none
  | _ => none

/-- The word of the last request with some label that was accepted. -/
def lastRequest (label : UInt32) (t : List CommAction) : Option UInt32 :=
  (t.filterMap (CommAction.word? label)).getLast?

/-- The flag that a request asks for, or the one the module starts with. -/
def requested (first : UInt8) (word : Option UInt32) : UInt8 := word.elim first desiredFlag

/-- **The flags are those that were last asked for.** If nobody has, communication is off and the
thread would only listen. -/
structure Obeys (t : List CommAction) (s : CommThread) : Prop where
  enabled : s.comm.enabled = requested 0 (lastRequest ipcMsgTypeCommStateSetReq t)
  listenOnly : s.comm.listenOnly = requested 1 (lastRequest ipcMsgTypeListenOnlySetReq t)

section Flags

variable {t : List CommAction} {s : CommThread}

theorem lastRequest_append (label : UInt32) (t u : List CommAction) :
    lastRequest label (t ++ u) = (lastRequest label u).or (lastRequest label t) := by
  rw [lastRequest, List.filterMap_append, List.getLast?_append]
  rfl

/-- Only the requests that set the mode are looked for. -/
theorem lastRequest_append_unset {u : List CommAction} {label : UInt32}
    (hlabel : label = ipcMsgTypeCommStateSetReq ∨ label = ipcMsgTypeListenOnlySetReq)
    (h : ∀ a ∈ u, a.setsMode = false) : lastRequest label (t ++ u) = lastRequest label t := by
  have hnil : u.filterMap (CommAction.word? label) = [] := by
    refine List.filterMap_eq_nil_iff.mpr fun a ha => ?_
    cases a with
    | request l word =>
      refine if_neg ?_
      rintro rfl
      have hset := h _ ha
      rcases hlabel with rfl | rfl
      · simp [CommAction.setsMode] at hset
      · simp [CommAction.setsMode] at hset
    | _ => rfl
  rw [lastRequest_append, lastRequest, hnil]
  rfl

theorem Obeys.append (h : Obeys t s) {u : List CommAction} {s' : CommThread}
    (hu : ∀ a ∈ u, a.setsMode = false)
    (hflags : s'.comm.enabled = s.comm.enabled ∧ s'.comm.listenOnly = s.comm.listenOnly) :
    Obeys (t ++ u) s' := by
  constructor
  · rw [lastRequest_append_unset (Or.inl rfl) hu, hflags.1, h.enabled]
  · rw [lastRequest_append_unset (Or.inr rfl) hu, hflags.2, h.listenOnly]

/-- **A request** sets the flag it asks for, and no other. -/
theorem Obeys.answered (h : Obeys t s) {label word : UInt32} {q : HobdRequest} (reply : IpcReply)
    (now : UInt64) (hq : hobdRequestOf label word = some q) :
    Obeys (t ++ [.request label word, .reply reply]) (q.perform now s).2 := by
  cases hset : q.setsMode with
  | false =>
    obtain ⟨stats, heq, -⟩ := perform_of_not_setsMode hset now s
    rw [heq]
    refine h.append (List.forall_mem_cons.mpr ⟨(setsMode_request hq).trans hset, ?_⟩) ⟨rfl, rfl⟩
    exact List.forall_mem_singleton.mpr rfl
  | true =>
    unfold hobdRequestOf at hq
    split_ifs at hq with h₁ h₂ h₃ h₄ h₅ <;> obtain rfl := Option.some.inj hq
    · exact absurd hset (by decide)
    · exact absurd hset (by decide)
    · subst h₃
      refine ⟨?_, ?_⟩
      · rw [lastRequest_append]
        rfl
      · rw [lastRequest_append]
        exact h.listenOnly
    · exact absurd hset (by decide)
    · subst h₅
      refine ⟨?_, ?_⟩
      · rw [lastRequest_append]
        exact h.enabled
      · rw [lastRequest_append]
        rfl

/-- **One move** keeps the flags to what was asked for, since they change only with a message and
a move receives at most one. -/
theorem Obeys.step (h : Obeys t s) (i : CommInput) {s' : CommThread}
    (hs' : (commStep i s).result = some s') : Obeys (t ++ (commStep i s).trace) s' := by
  cases i with
  | timeout =>
    obtain rfl := Option.some.inj hs'
    exact h.append (by simp [commStep]) ⟨rfl, rfl⟩
  | run r =>
    have hmoves := commMoves_of_result hs'
    generalize (commStep (.run r) s).trace = u at hmoves
    have htimer : ∀ a ∈ startTimer, a.setsMode = false := by decide
    cases hmoves with
    | answered blocking m q hpoint hm hlabelled hq => exact h.answered _ _ hq
    | listens => exact h.append htimer ⟨rfl, rfl⟩
    | passedOver => exact h.append (List.forall_mem_cons.mpr ⟨rfl, htimer⟩) ⟨rfl, rfl⟩
    | pulses => exact h.append (by decide) ⟨rfl, rfl⟩
    | asks =>
      refine h.append (List.forall_mem_append.mpr ⟨fun a ha => ?_, htimer⟩) ⟨rfl, rfl⟩
      exact (sends_queryActs _ _ _ a ha).2
    | _ => exact h.append (by simp [logReceived, CommAction.setsMode]) ⟨rfl, rfl⟩

/-- The flags of a program that goes on are those that were asked for. -/
def ObeysWhile (t : List CommAction) (o : Option CommThread) : Prop := ∀ s, o = some s → Obeys t s

/-- **Every run** keeps the flags to what was asked for. -/
theorem obeys_commRun (r : StartResults) (is : List CommInput) :
    ObeysWhile (commRun r is).trace (commRun r is).result := by
  have hstep : ∀ t s i, ObeysWhile t (some s) →
      ObeysWhile (t ++ (commStep i s).trace) (commStep i s).result :=
    fun t s i h s' hs' => (h s rfl).step i hs'
  refine run_induction commStep hstep is fun s hs => ?_
  obtain ⟨hcomm, -⟩ := (obdCommThreadStart_emits r).2 s hs
  have hunset : ∀ a ∈ (obdCommThreadStart r hobdModuleInit).trace, a.setsMode = false :=
    fun a ha => ((obdCommThreadStart_emits r).1 a ha).2
  rw [← List.nil_append (obdCommThreadStart r hobdModuleInit).trace]
  exact Obeys.append ⟨by rw [hcomm]; rfl, by rw [hcomm]; rfl⟩ hunset ⟨rfl, rfl⟩

end Flags

/-! ### Calls as moves -/

/-- The answer to a call is a move of the thread, on the message that was sent. -/
theorem hobdCall_move {blocking : Bool} {r : CommResults} {ipc ipc' : Ipc} {s s' : CommThread}
    {request response : UInt32} {args : List UInt32} {respLength : ℕ} (hargs : args.length ≤ 4)
    (hcall : hobdCall blocking r (ipc, s) request response args respLength = some (ipc', s'))
    (hpoint : s.point = .recv blocking) :
    ∃ m : IpcMessage, (m.badge = hobdmodBaseBadge ∧ m.label = request ∧
        ∀ i < args.length, m.ipc.word i = args[i]?) ∧
      (commStep (.run { r with message := some m }) s).result = some s' := by
  obtain ⟨ipc₁, hsend, hserve⟩ := Option.bind_eq_some_iff.mp hcall
  obtain ⟨⟨reply, s₁⟩, hround, hrest⟩ := Option.bind_eq_some_iff.mp hserve
  obtain ⟨reply', -, hchecks⟩ := Option.bind_eq_some_iff.mp hrest
  split_ifs at hchecks
  obtain ⟨ipc₂, -, heq⟩ := Option.map_eq_some_iff.mp hchecks
  obtain ⟨-, rfl⟩ := Prod.mk.inj heq
  obtain ⟨s₂, hs₂, heq₂⟩ := Option.map_eq_some_iff.mp hround
  obtain ⟨-, rfl⟩ := Prod.mk.inj heq₂
  obtain ⟨ipc₃, hsend', hword, -⟩ := sel4MrSend_spec args ipc (by omega)
  obtain rfl := Option.some.inj (hsend.symm.trans hsend')
  exact ⟨_, ⟨rfl, rfl, hword⟩, by simpa only [commStep, hpoint] using hs₂⟩

/-- A message for the thread is handled by its label. -/
theorem commStep_message {blocking : Bool} {r : CommResults} {s : CommThread} {m : IpcMessage}
    (hpoint : s.point = .recv blocking) (hbadge : m.badge = hobdmodBaseBadge)
    (hlabel : m.label ≠ 0) :
    commStep (.run { r with message := some m }) s =
      handleRequest m.label m.ipc.getMR0 { r with message := some m } { s with point := .top } := by
  simp only [commStep, hpoint, recvRequest]
  rw [if_pos ⟨by rw [hbadge]; decide, hlabel⟩, decide_eq_true hbadge, require_true_bind]

/-- A call that is answered is the next move of a run. -/
theorem commRun_concat_call {r : StartResults} {is : List CommInput} {s s' : CommThread}
    {rs : CommResults} {m : IpcMessage} (hs : (commRun r is).result = some s)
    (hmove : (commStep (.run { rs with message := some m }) s).result = some s') :
    (commRun r (is ++ [.run { rs with message := some m }])).result = some s' := by
  rw [commRun, run_concat commStep hs]
  exact hmove

/-! ### The results -/

/-- **The counters say what has happened on the line.** In every run from `hobd_module_init` on and
wherever the thread receives, a call of `hobd_get_stats` returns, as the next move of the run. Up to
multiples of `2 ^ 16`, what it returns are the numbers of

* frames that a receiver has taken and thrown away of all the bytes that were read, if it starts
  over where a session is opened or the mode is set;
* moves in which the line was pulled down, and moves in which the query that opens a session was
  transmitted. -/
theorem hobdGetStats_counts (r : StartResults) (is : List CommInput) (s : CommThread)
    (hs : (commRun r is).result = some s) (blocking : Bool) (hpoint : s.point = .recv blocking)
    (rs : CommResults) (now : UInt64) (hnow : rs.firstTime = some now) (ipc : Ipc)
    (stats : Vector UInt32 4) :
    ∃ ipc' s' m, hobdGetStats blocking rs (ipc, s) stats =
        some (tally now (commHistory r is), ipc', s') ∧
      (commRun r (is ++ [.run { rs with message := some m }])).result = some s' := by
  obtain ⟨ipc', heq⟩ := hobdGetStats_eq blocking rs ipc s hnow stats
  rw [(counted_commRun r is hs).statsAt_eq] at heq
  obtain ⟨⟨ipc₁, s₁⟩, hcall, hrecv⟩ := Option.bind_eq_some_iff.mp heq
  obtain ⟨words, -, hres⟩ := Option.map_eq_some_iff.mp hrecv
  obtain ⟨-, hst⟩ := Prod.mk.inj hres
  obtain ⟨-, rfl⟩ := Prod.mk.inj hst
  obtain ⟨m, -, hmove⟩ := hobdCall_move (by simp) hcall hpoint
  exact ⟨ipc', _, m, heq, commRun_concat_call hs hmove⟩

/-- The thread is woken up, opens a session, gets an answer and part of another frame, and gives up
waiting. -/
def countedRun : List CommInput :=
  openingRun ++ [quietLine none, quietLine none] ++ [0x02, 0x04].map byteMove ++
    [.timeout, quietLine none]

theorem hobdGetStats_counts_opening :
    ∃ s, (commRun ⟨0, 0, 0⟩ countedRun).result = some s ∧ s.point = .recv false ∧
      tally 0 (commHistory ⟨0, 0, 0⟩ countedRun) = ⟨0, 1, 0, 1, 1⟩ ∧
      ∃ ipc' s' m, hobdGetStats false ⟨0, 0, 0, -1, 0, 0, 0, fun _ => some 0, none⟩
          (⟨Vector.replicate 4 0, Vector.replicate 120 0⟩, s) (Vector.replicate 4 0) =
          some (tally 0 (commHistory ⟨0, 0, 0⟩ countedRun), ipc', s') ∧
        (commRun ⟨0, 0, 0⟩ (countedRun ++
          [.run ⟨0, 0, 0, -1, 0, 0, 0, fun _ => some 0, some m⟩])).result = some s' := by
  have hpoint : (commRun ⟨0, 0, 0⟩ countedRun).result.map (fun s => s.point) =
      some (.recv false) := by
    decide +kernel
  obtain ⟨s, hs, hrecv⟩ := Option.map_eq_some_iff.mp hpoint
  refine ⟨s, hs, hrecv, by decide +kernel, ?_⟩
  exact hobdGetStats_counts _ _ s hs false hrecv ⟨0, 0, 0, -1, 0, 0, 0, fun _ => some 0, none⟩ 0 rfl
    _ _

/-- A call that sets a flag is the last request of its kind. -/
theorem hobdFlagCall_last {r : StartResults} {is : List CommInput} {s s' : CommThread}
    (hs : (commRun r is).result = some s) {blocking : Bool} (hpoint : s.point = .recv blocking)
    {rs : CommResults} {ipc ipc' : Ipc} {request response state flag : UInt32}
    (hrequest : request = ipcMsgTypeCommStateSetReq ∨ request = ipcMsgTypeListenOnlySetReq)
    (hcall : hobdFlagCall blocking rs (ipc, s) request response [state] =
      some (flag, ipc', s')) :
    ∃ m, (commRun r (is ++ [.run { rs with message := some m }])).result = some s' ∧
      lastRequest request (commRun r (is ++ [.run { rs with message := some m }])).trace =
        some state := by
  obtain ⟨⟨ipc₁, s₁⟩, hanswered, hmr⟩ := Option.bind_eq_some_iff.mp hcall
  obtain ⟨word, -, hres⟩ := Option.map_eq_some_iff.mp hmr
  obtain ⟨-, hst⟩ := Prod.mk.inj hres
  obtain ⟨-, rfl⟩ := Prod.mk.inj hst
  obtain ⟨m, ⟨hbadge, hlabel, hword⟩, hmove⟩ := hobdCall_move (by simp) hanswered hpoint
  refine ⟨m, commRun_concat_call hs hmove, ?_⟩
  have hstate : m.ipc.getMR0 = state := getMR0_of_word (hword 0 (by simp))
  rw [commRun, run_concat commStep hs, lastRequest_append,
    commStep_message hpoint hbadge (by rw [hlabel]; rcases hrequest with rfl | rfl <;> decide),
    hlabel, hstate]
  rcases hrequest with rfl | rfl
  · rfl
  · rfl

/-- **The flags say what was last asked for.** In every run from `hobd_module_init` on and wherever
the thread receives, `hobd_get_comm_state` and `hobd_get_listen_only` return the flag that the last
accepted request of their kind asked for, or the one the module starts with, whatever else has
happened. A call of `hobd_set_comm_state` or `hobd_set_listen_only` is the next move of the run and
then the last request of its kind; it starts the exchange over, and leaves the other flag and the
counters alone. -/
theorem hobd_flags_requested (r : StartResults) (is : List CommInput) (s : CommThread)
    (hs : (commRun r is).result = some s) (blocking : Bool) (hpoint : s.point = .recv blocking)
    (rs : CommResults) (ipc : Ipc) :
    (∃ ipc', hobdGetCommState blocking rs (ipc, s) =
      some ((requested 0 (lastRequest ipcMsgTypeCommStateSetReq (commRun r is).trace)).toUInt32,
        ipc', { s with point := .top })) ∧
    (∃ ipc', hobdGetListenOnly blocking rs (ipc, s) =
      some ((requested 1 (lastRequest ipcMsgTypeListenOnlySetReq (commRun r is).trace)).toUInt32,
        ipc', { s with point := .top })) ∧
    ∀ state,
      (∃ ipc' m, hobdSetCommState blocking rs (ipc, s) state =
          some ((desiredFlag state).toUInt32, ipc',
            CommThread.startOver { s with comm.enabled := desiredFlag state }) ∧
        (commRun r (is ++ [.run { rs with message := some m }])).result =
          some (CommThread.startOver { s with comm.enabled := desiredFlag state }) ∧
        lastRequest ipcMsgTypeCommStateSetReq
          (commRun r (is ++ [.run { rs with message := some m }])).trace = some state) ∧
      ∃ ipc' m, hobdSetListenOnly blocking rs (ipc, s) state =
          some ((desiredFlag state).toUInt32, ipc',
            CommThread.startOver { s with comm.listenOnly := desiredFlag state }) ∧
        (commRun r (is ++ [.run { rs with message := some m }])).result =
          some (CommThread.startOver { s with comm.listenOnly := desiredFlag state }) ∧
        lastRequest ipcMsgTypeListenOnlySetReq
          (commRun r (is ++ [.run { rs with message := some m }])).trace = some state := by
  obtain ⟨hen, hlisten⟩ := obeys_commRun r is s hs
  refine ⟨?_, ?_, fun state => ⟨?_, ?_⟩⟩
  · rw [← hen]
    exact hobdGetCommState_eq blocking rs ipc s
  · rw [← hlisten]
    exact hobdGetListenOnly_eq blocking rs ipc s
  · obtain ⟨ipc', heq⟩ := hobdSetCommState_eq blocking rs ipc s state
    obtain ⟨m, hrun, hlast⟩ := hobdFlagCall_last hs hpoint (Or.inl rfl) heq
    exact ⟨ipc', m, heq, hrun, hlast⟩
  · obtain ⟨ipc', heq⟩ := hobdSetListenOnly_eq blocking rs ipc s state
    obtain ⟨m, hrun, hlast⟩ := hobdFlagCall_last hs hpoint (Or.inr rfl) heq
    exact ⟨ipc', m, heq, hrun, hlast⟩

theorem hobd_flags_requested_wakeUp :
    ∃ s, (commRun ⟨0, 0, 0⟩ wakeUpRun).result = some s ∧ s.point = .recv false ∧
      lastRequest ipcMsgTypeCommStateSetReq (commRun ⟨0, 0, 0⟩ wakeUpRun).trace = some 1 ∧
      (∃ ipc', hobdGetCommState false ⟨0, 0, 0, -1, 0, 0, 0, fun _ => none, none⟩
          (⟨Vector.replicate 4 0, Vector.replicate 120 0⟩, s) =
        some ((requested 0 (some 1)).toUInt32, ipc', { s with point := .top })) :=
  ⟨_, rfl, rfl, rfl, (hobd_flags_requested ⟨0, 0, 0⟩ wakeUpRun _ rfl false rfl
    ⟨0, 0, 0, -1, 0, 0, 0, fun _ => none, none⟩
    ⟨Vector.replicate 4 0, Vector.replicate 120 0⟩).1⟩

end HobdSystem
