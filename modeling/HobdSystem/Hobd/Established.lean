import HobdSystem.Hobd.Exchange
import HobdSystem.Hobd.Wait
import Mathlib.Data.List.Infix

/-!
# Established sessions

The thread asks for tables only after the ECU has answered the query that opens a session, and
whenever it goes to wait for a response its parser is at the boundary of a frame. Both are about
what has happened before, so a run is looked at through the moves that were made
(`HobdSystem.commHistory`): what was read and what was transmitted can be told from a move, and
not from the state.

`HobdSystem.Established` is the first of the two: since the query that opened a session was last
transmitted, its response has been received, and no request that sets the mode has been accepted.
A response is a frame in the bytes that were read behind the query, and so bytes that were on the
line before it do not count.

`HobdSystem.Exchanging` is the invariant. It has to follow the parser, which is shared by the
waits and by the thread that only listens: a timeout may strike in the middle of a frame, and then
the exchange falls back to a state that resets the parser before it waits again. That is why the
parser is said to be at a boundary only *between* the waits of a session (`HobdSystem.InSession`):
outside of one it may be anywhere, and is reset when the next session is opened. In a wait, the
frame that is open is the one that a receiver would have open who has seen the bytes since the
wait was called (`HobdSystem.openFrame`).

There is one lemma for each kind of move in which something happens to the exchange – the queries
are sent, the response is found, the wait goes on or is given up, a request is answered – and
`HobdSystem.Exchanging.step` puts them together along the table of moves.
-/

namespace HobdSystem

open Bytes Framing Run Traced

/-! ### Moves -/

/-- The thread waits for a response. -/
def CommPoint.isWait : CommPoint → Bool
  | .wait _ => true
  | _ => false

/-- A move of the system: the state it is made in, and what makes it. -/
abbrev Move : Type := CommThread × CommInput

namespace Move

variable (m : Move)

/-- What is done in a move. -/
def actions : List CommAction := (commStep m.2 m.1).trace

/-- The query that opens a session is transmitted. -/
def sendsInit : Bool := decide (initQuery <:+: sentBy m.actions)

/-- A request that sets the mode is accepted. -/
def setsMode : Bool := m.actions.any CommAction.setsMode

/-- `comm_wait_for_resp` is called. -/
def callsWait : Bool :=
  decide (m.1.point = .top) && (commStep m.2 m.1).result.any fun s => s.point.isWait

/-- The byte that is read from the UART. -/
def read? : Option UInt8 :=
  match m.1.point with
  | .wait _ | .listen => m.2.byte?
  | _ => none

end Move

/-- The bytes some moves read. -/
def bytesRead (ms : List Move) : List UInt8 := ms.filterMap Move.read?

/-- The part of a frame that a receiver has after some moves, if it was at a boundary before them.
The parser of the thread has the same part, as long as it is not reset in between. -/
def openFrame (ms : List Move) : List UInt8 := final (collect hobdFormat) [] (bytesRead ms)

/-- **In the last of some moves a message is received**: the parser answers the byte with
`HOBD_ERROR_NONE`, and the message consists of the last bytes these moves read. -/
def Receives (ms : List Move) (f : List UInt8) : Prop :=
  ∃ before m b, ms = before ++ [m] ∧ m.read? = some b ∧
    (hobdParserParseByte b m.1.parser).1 = .none ∧ f <:+ bytesRead ms ∧
    Complete hobdFormat f ∧ byteSum f % 256 = 0

/-- **The session is established**: since the query that opened it was last transmitted, its
response has been received, and no request that sets the mode has been accepted. -/
def Established (h : List Move) : Prop :=
  Since Move.sendsInit (fun since => (∃ part f, part <+: since ∧ Receives part f ∧
    IsResponse hobdMsgSubtypeInit f) ∧ ∀ m ∈ since, m.setsMode = false) h

/-- The moves of a run. -/
def commHistory (r : StartResults) (is : List CommInput) : List Move :=
  history commStep (obdCommThreadStart r hobdModuleInit) is

section Moves

variable {ms : List Move} {m : Move}

/-! A byte is read in a wait and while the thread listens, and nowhere else. -/

theorem Move.read?_timeout (s : CommThread) : Move.read? (s, .timeout) = none := by
  rw [Move.read?]
  split <;> rfl

theorem Move.read?_top (h : m.1.point = .top) : m.read? = none := by
  rw [Move.read?, h]

theorem Move.read?_wait {w : RespWait} (h : m.1.point = .wait w) : m.read? = m.2.byte? := by
  rw [Move.read?, h]

theorem Move.read?_listen (h : m.1.point = .listen) : m.read? = m.2.byte? := by
  rw [Move.read?, h]

theorem Move.read?_recv {blocking : Bool} (h : m.1.point = .recv blocking) : m.read? = none := by
  rw [Move.read?, h]

theorem openFrame_concat (ms : List Move) (m : Move) :
    openFrame (ms ++ [m]) = final (collect hobdFormat) (openFrame ms) m.read?.toList := by
  rw [openFrame, bytesRead, List.filterMap_append, final_append]
  rfl

theorem openFrame_suffix (ms : List Move) : openFrame ms <:+ bytesRead ms :=
  final_suffix hobdFormat [] (bytesRead ms)

/-- A move that is not counted from: the thread neither opens a session in it nor is told to
change its mode. -/
def Move.Unmarked (m : Move) : Prop := m.sendsInit = false ∧ m.setsMode = false

theorem sendsInit_of_sentBy_nil (h : sentBy m.actions = []) : m.sendsInit = false := by
  rw [Move.sendsInit, h]
  rfl

theorem callsWait_of_point (h : m.1.point ≠ .top) : m.callsWait = false := by
  rw [Move.callsWait, decide_eq_false h]
  rfl

theorem Established.append (h : Established ms) (hm : m.Unmarked) : Established (ms ++ [m]) := by
  refine Since.append h (by simpa using hm.1) ?_
  rintro since ⟨⟨part, f, hpart, hf⟩, hmode⟩
  refine ⟨⟨part, f, hpart.trans (List.prefix_append _ _), hf⟩, ?_⟩
  exact List.forall_mem_append.mpr ⟨hmode, by simpa using hm.2⟩

end Moves

/-! ### The invariant -/

/-- The thread asks for tables. -/
def InSession (s : CommThread) : Prop := s.comm.state = .sendReq0 ∨ s.comm.state = .sendReq1

/-- **The invariant**, of the moves that were made and the state. The first four fields are what
the others need: buffers that are large enough, a parser that has read the bytes of some frame,
and a thread that only listens outside of the exchange. -/
structure Exchanging (h : List Move) (s : CommThread) : Prop where
  rx : 251 ≤ s.parser.rxBuffer.length
  tx : 8 ≤ s.txBuffer.length
  reading : ∃ pre, Reads pre s.parser
  passive : s.comm.listenOnly ≠ 0 → s.comm.state = .gpioInit
  listens : s.point = .listen → s.comm.listenOnly ≠ 0
  /-- Between two waits the parser is at the boundary of a frame. -/
  boundary : InSession s → (∀ w, s.point ≠ .wait w) → s.parser.state = .getType
  active : ∀ w, s.point = .wait w →
    s.comm.state.awaits = some w ∧ s.comm.listenOnly = 0 ∧ s.comm.enabled ≠ 0
  /-- In a wait the parser has read what has arrived since the wait was called. -/
  called : ∀ w, s.point = .wait w →
    Since Move.callsWait (fun since => Reads (openFrame since) s.parser) h
  opened : ∀ w, s.point = .wait w → s.comm.state = .sendEcuInit →
    Since Move.sendsInit (fun since => Reads (openFrame since) s.parser ∧
      ∀ m ∈ since, m.setsMode = false) h
  enabled : InSession s → s.comm.enabled ≠ 0
  established : InSession s → Established h

section Invariant

variable {h : List Move} {s s' : CommThread} {i : CommInput}

theorem not_inSession_of_gpioInit (hs : s.comm.state = .gpioInit) : ¬InSession s := by
  rintro (hc | hc) <;> exact absurd (hs.symm.trans hc) (by decide)

theorem not_inSession_of_sendEcuInit (hs : s.comm.state = .sendEcuInit) : ¬InSession s := by
  rintro (hc | hc) <;> exact absurd (hs.symm.trans hc) (by decide)

theorem inSession_of_awaits {w : RespWait} (hw : s.comm.state.awaits = some w)
    (hs : s.comm.state ≠ .sendEcuInit) : InSession s := by
  cases hstate : s.comm.state with
  | gpioInit => exact absurd (hstate ▸ hw) nofun
  | sendEcuInit => exact absurd hstate hs
  | sendReq0 => exact Or.inl hstate
  | sendReq1 => exact Or.inr hstate

theorem notFound_of_awaits {state : CommStateKind} {w : RespWait} (hw : state.awaits = some w) :
    w.notFound = .gpioInit ∨ w.notFound = .sendEcuInit := by
  cases state with
  | gpioInit => exact absurd hw nofun
  | sendEcuInit => exact Or.inl (Option.some.inj hw ▸ rfl)
  | sendReq0 => exact Or.inr (Option.some.inj hw ▸ rfl)
  | sendReq1 => exact Or.inr (Option.some.inj hw ▸ rfl)

/-- **The thread stays where it is**, at the same point of the round and in the same mode, and its
parser goes on with the byte that was read, if there was one. -/
theorem Exchanging.stay (hex : Exchanging h s) (hm : Move.Unmarked (s, i))
    (hcalls : Move.callsWait (s, i) = false) (hmode : SameMode s.comm s'.comm)
    (hpoint : s'.point = s.point) (htx : s'.txBuffer = s.txBuffer)
    (hlen : s'.parser.rxBuffer.length = s.parser.rxBuffer.length)
    (hparser : ∀ pre, Reads pre s.parser →
      Reads (final (collect hobdFormat) pre (Move.read? (s, i)).toList) s'.parser)
    (hbound : (∀ w, s.point ≠ .wait w) → InSession s → s'.parser = s.parser) :
    Exchanging (h ++ [(s, i)]) s' := by
  obtain ⟨hen, hlisten, hstate⟩ := hmode
  have hsession : InSession s' → InSession s := fun hs => by rwa [InSession, ← hstate]
  refine ⟨hlen ▸ hex.rx, htx ▸ hex.tx, ?_, ?_, ?_, ?_, ?_, ?_, ?_, ?_, ?_⟩
  · obtain ⟨pre, hpre⟩ := hex.reading
    exact ⟨_, hparser pre hpre⟩
  · rw [hlisten, hstate]
    exact hex.passive
  · rw [hpoint, hlisten]
    exact hex.listens
  · rw [hpoint]
    intro hs hw
    rw [hbound hw (hsession hs)]
    exact hex.boundary (hsession hs) hw
  · rw [hpoint, hlisten, hstate, hen]
    exact hex.active
  · rw [hpoint]
    intro w hw
    refine Since.append (hex.called w hw) (by simpa using hcalls) fun since hreads => ?_
    rw [openFrame_concat]
    exact hparser _ hreads
  · rw [hpoint, hstate]
    intro w hw hs
    refine Since.append (hex.opened w hw hs) (by simpa using hm.1) ?_
    rintro since ⟨hreads, hmodes⟩
    rw [openFrame_concat]
    exact ⟨hparser _ hreads, List.forall_mem_append.mpr ⟨hmodes, by simpa using hm.2⟩⟩
  · rw [hen]
    exact fun hs => hex.enabled (hsession hs)
  · exact fun hs => (hex.established (hsession hs)).append hm

/-- **The thread goes to where it does not wait**, with its parser as it was or reset. -/
theorem Exchanging.leave (hex : Exchanging h s) (htx : s'.txBuffer = s.txBuffer)
    (hparser : s'.parser.rxBuffer.length = s.parser.rxBuffer.length)
    (hreading : ∃ pre, Reads pre s'.parser)
    (hpassive : s'.comm.listenOnly ≠ 0 → s'.comm.state = .gpioInit)
    (hpoint : ∀ w, s'.point ≠ .wait w) (hlisten : s'.point = .listen → s'.comm.listenOnly ≠ 0)
    (hsession : InSession s' →
      s'.parser.state = .getType ∧ s'.comm.enabled ≠ 0 ∧ Established (h ++ [(s, i)])) :
    Exchanging (h ++ [(s, i)]) s' :=
  ⟨hparser ▸ hex.rx, htx ▸ hex.tx, hreading, hpassive, hlisten, fun hs _ => (hsession hs).1,
    fun w hw => absurd hw (hpoint w), fun w hw => absurd hw (hpoint w),
    fun w hw => absurd hw (hpoint w), fun hs => (hsession hs).2.1, fun hs => (hsession hs).2.2⟩

theorem unmarked_of_actions {m : Move} {t : List CommAction} (ht : m.actions = t)
    (hsent : sentBy t = []) (hmode : t.any CommAction.setsMode = false) : m.Unmarked := by
  subst ht
  exact ⟨sendsInit_of_sentBy_nil hsent, hmode⟩

/-- The timer fires. -/
theorem Exchanging.timeout (hex : Exchanging h s) :
    Exchanging (h ++ [(s, .timeout)]) { s with comm := timeoutCb s.comm } := by
  have hcalls : Move.callsWait (s, .timeout) = false := by
    refine Bool.and_eq_false_iff.mpr ?_
    by_cases htop : s.point = .top
    · exact Or.inr (congrArg CommPoint.isWait htop)
    · exact Or.inl (decide_eq_false htop)
  refine hex.stay ⟨rfl, rfl⟩ hcalls ⟨rfl, rfl, rfl⟩ rfl rfl rfl (fun pre hpre => ?_) fun _ _ => rfl
  rw [Move.read?_timeout]
  exact hpre

/-- **A message found in a wait** is made of bytes that were read since the wait was called. -/
theorem receives_of_poll {since : List Move} {m : Move} {b : UInt8}
    (hreads : Reads (openFrame since) m.1.parser) (hb : m.read? = some b)
    (hdel : (collect hobdFormat b (openFrame since)).1 = .delivered (openFrame since ++ [b])) :
    Receives (since ++ [m]) (openFrame since ++ [b]) := by
  obtain ⟨-, hcomplete, hsum⟩ := collect_delivered hreads.isOpen hdel
  refine ⟨since, m, b, rfl, hb, ?_, ?_, hcomplete, hsum⟩
  · rw [(parseByte_reads hreads b).1, hdel]
    rfl
  · have hbytes : bytesRead (since ++ [m]) = bytesRead since ++ [b] := by
      simp [bytesRead, hb]
    rw [hbytes]
    obtain ⟨l, hl⟩ := openFrame_suffix since
    exact ⟨l, by rw [← hl, List.append_assoc]⟩

/-- The response to the query that opens a session establishes it. -/
theorem Exchanging.establishes (hex : Exchanging h s) {r : CommResults} {w : RespWait}
    (hpoint : s.point = .wait w) (hstate : s.comm.state = .sendEcuInit)
    (hm : Move.Unmarked (s, .run r)) (hread : Move.read? (s, .run r) = (CommInput.run r).byte?)
    (hfound : (pollUart r.getchar s.parser).1 = true)
    (hresp : IsResponse hobdMsgSubtypeInit (pollUart r.getchar s.parser).2.rxBuffer) :
    Established (h ++ [(s, .run r)]) := by
  refine Since.append (hex.opened w hpoint hstate) (by simpa using hm.1) ?_
  rintro since ⟨hreads, hmodes⟩
  obtain ⟨-, hlen, htrue, -⟩ := pollUart_reads r hreads
  obtain ⟨b, hb, hdel, hcomplete, -, -, hholds⟩ := htrue hfound
  refine ⟨⟨since ++ [(s, .run r)], _, List.prefix_rfl,
    receives_of_poll hreads (hread.trans hb) hdel, ?_⟩, ?_⟩
  · have hrx := hex.rx
    exact (isResponse_iff_of_holds hholds hcomplete (by omega)).mp hresp
  · exact List.forall_mem_append.mpr ⟨hmodes, by simpa using hm.2⟩

/-- A query for a table is not the query that opens a session. -/
theorem initQuery_not_within {state : CommStateKind} {bytes : List UInt8}
    (hq : Queries state bytes) (hstate : state ≠ .sendEcuInit) : ¬initQuery <:+: bytes := by
  cases state with
  | gpioInit =>
    obtain rfl : bytes = [] := hq
    decide
  | sendEcuInit => exact absurd rfl hstate
  | sendReq0 =>
    obtain ⟨stale, c, rfl, -⟩ := hq
    simp [initQuery, tableQuery, List.infix_cons_iff, List.cons_prefix_cons]
  | sendReq1 =>
    obtain ⟨stale, c, rfl, -⟩ := hq
    simp [initQuery, tableQuery, List.infix_cons_iff, List.cons_prefix_cons]

/-- **The queries of a state are sent, and the thread goes to wait**, on the boundary of a
frame. -/
theorem Exchanging.asks (hex : Exchanging h s) {r : CommResults} {w : RespWait}
    (hpoint : s.point = .top) (hactive : Active s) (hawaits : s.comm.state.awaits = some w)
    (ht : Move.actions (s, .run r) = queryActs r s.txBuffer s.comm.state ++ startTimer)
    (hcalls : Move.callsWait (s, .run r) = true) :
    s.queried.parser.state = .getType ∧ Exchanging (h ++ [(s, .run r)])
      { s.queried with comm := s.comm.untimed, point := .wait w } := by
  have hq := queries_sentBy r hex.tx s.comm.state
  have hsends : Move.sendsInit (s, .run r) =
      decide (initQuery <:+: sentBy (queryActs r s.txBuffer s.comm.state ++ startTimer)) := by
    rw [Move.sendsInit, ht]
  have hmodes : Move.setsMode (s, .run r) = false := by
    rw [Move.setsMode, ht]
    refine List.any_eq_false.mpr fun a ha => ?_
    rcases List.mem_append.mp ha with ha | ha
    · simp [(sends_queryActs _ _ _ a ha).2]
    · simp [(quiet_startTimer a ha).2]
  have hrx : s.queried.parser.rxBuffer = s.parser.rxBuffer := by
    rw [CommThread.queried]
    split_ifs <;> rfl
  have hboundary : s.queried.parser.state = .getType := by
    rw [CommThread.queried]
    split_ifs with hinit
    · rfl
    · exact hex.boundary (inSession_of_awaits hawaits hinit) (by simp [hpoint])
  have hreads : Reads (openFrame []) s.queried.parser := reads_nil hboundary
  have htx : (queryTx s.txBuffer s.comm.state).length = s.txBuffer.length :=
    length_queryTx hex.tx s.comm.state
  refine ⟨hboundary, hrx ▸ hex.rx, htx ▸ hex.tx, ⟨_, hreads⟩, ?_, by simp, ?_, ?_, ?_, ?_, ?_, ?_⟩
  · exact fun hc => absurd hactive.2 hc
  · exact fun _ hw => absurd rfl (hw w)
  · intro w' hw'
    obtain rfl : w = w' := CommPoint.wait.inj hw'
    exact ⟨hawaits, hactive.2, hactive.1⟩
  · exact fun _ _ => ⟨h, _, [], rfl, hcalls, by simp, hreads⟩
  · intro _ _ hinit
    rw [show s.comm.state = .sendEcuInit from hinit] at hq hsends
    rw [show sentBy _ = wakeUpFrame.bytes ++ initQuery from hq] at hsends
    exact ⟨h, _, [], rfl, hsends.trans (by decide), by simp, hreads, by simp⟩
  · exact fun _ => hactive.1
  · intro hs
    refine (hex.established hs).append ⟨hsends.trans ?_, hmodes⟩
    refine decide_eq_false (initQuery_not_within hq fun hinit => ?_)
    exact not_inSession_of_sendEcuInit hinit hs

section Polls

variable {r : CommResults} {w : RespWait}

/-- **The response is found.** A session goes on, or it is established: if the response is the one
to the initialisation, the moves since that was sent are the evidence. -/
theorem Exchanging.responded (hex : Exchanging h s) (hpoint : s.point = .wait w)
    (hm : Move.Unmarked (s, .run r)) (hfound : (pollUart r.getchar s.parser).1 = true)
    (hresp : IsResponse w.subtype (pollUart r.getchar s.parser).2.rxBuffer) :
    Exchanging (h ++ [(s, .run r)]) { s with
      parser := (pollUart r.getchar s.parser).2, comm := { s.comm.untimed with state := w.found }
      point := .recv false } := by
  obtain ⟨hawaits, hlisten, henabled⟩ := hex.active w hpoint
  obtain ⟨pre, hpre⟩ := hex.reading
  obtain ⟨hreads, hlen, htrue, -⟩ := pollUart_reads r hpre
  obtain ⟨b, -, -, -, -, hboundary, -⟩ := htrue hfound
  refine hex.leave rfl hlen ⟨_, hreads⟩ (fun hc => absurd hlisten hc) (by simp) (by simp)
    fun _ => ⟨hboundary, henabled, ?_⟩
  by_cases hinit : s.comm.state = .sendEcuInit
  · obtain rfl : w = ⟨hobdMsgSubtypeInit, .sendReq0, .gpioInit⟩ :=
      Option.some.inj (hawaits.symm.trans (by rw [hinit]; rfl))
    exact hex.establishes hpoint hinit hm (Move.read?_wait hpoint) hfound hresp
  · exact (hex.established (inSession_of_awaits hawaits hinit)).append hm

/-- **The wait is given up**, and a session with it: the states to fall back to are outside of
one. -/
theorem Exchanging.gaveUp (hex : Exchanging h s) (hpoint : s.point = .wait w) :
    Exchanging (h ++ [(s, .run r)]) { s with
      parser := (pollUart r.getchar s.parser).2, comm := { s.comm.untimed with state := w.notFound }
      point := .recv false } := by
  obtain ⟨hawaits, hlisten, -⟩ := hex.active w hpoint
  obtain ⟨pre, hpre⟩ := hex.reading
  obtain ⟨hreads, hlen, -⟩ := pollUart_reads r hpre
  refine hex.leave rfl hlen ⟨_, hreads⟩ (fun hc => absurd hlisten hc) (by simp) (by simp)
    fun hs => ?_
  rcases notFound_of_awaits hawaits with hback | hback
  · exact absurd hs (not_inSession_of_gpioInit hback)
  · exact absurd hs (not_inSession_of_sendEcuInit hback)

/-- **The wait goes on**, with a byte more of a frame or without. It is also the case of a frame
that is passed over, where the timer is started again. -/
theorem Exchanging.waited {comm : Comm} (hex : Exchanging h s) (hpoint : s.point = .wait w)
    (hm : Move.Unmarked (s, .run r)) (hmode : SameMode s.comm comm) :
    Exchanging (h ++ [(s, .run r)])
      { s with parser := (pollUart r.getchar s.parser).2, comm := comm } := by
  obtain ⟨pre, hpre⟩ := hex.reading
  refine hex.stay hm (callsWait_of_point (by simp [hpoint])) hmode rfl rfl
    (pollUart_reads r hpre).2.1 (fun pre hpre => ?_) fun hw => absurd hpoint (hw w)
  rw [Move.read?_wait hpoint]
  exact (pollUart_reads r hpre).1

/-- **A thread that only listens** is outside of a session, so nothing has to be said of where its
parser is when it stops. -/
theorem Exchanging.listened {comm : Comm} {point : CommPoint} (hex : Exchanging h s)
    (hpoint : s.point = .listen) (hmode : SameMode s.comm comm) (hwait : ∀ w, point ≠ .wait w) :
    Exchanging (h ++ [(s, .run r)])
      { s with parser := (pollUart r.getchar s.parser).2, comm := comm, point := point } := by
  obtain ⟨-, hlisten, hstate⟩ := hmode
  obtain ⟨pre, hpre⟩ := hex.reading
  obtain ⟨hreads, hlen, -⟩ := pollUart_reads r hpre
  have hgpio : comm.state = .gpioInit := hstate.trans (hex.passive (hex.listens hpoint))
  exact hex.leave rfl hlen ⟨_, hreads⟩ (fun _ => hgpio) hwait
    (fun _ => hlisten ▸ hex.listens hpoint) fun hs => absurd hs (not_inSession_of_gpioInit hgpio)

end Polls

/-- The end of a round that changes nothing but the counters. -/
theorem Exchanging.recv {r : CommResults} {blocking : Bool} {stats : HobdStats} {point : CommPoint}
    (hex : Exchanging h s) (hpoint : s.point = .recv blocking) (hm : Move.Unmarked (s, .run r))
    (hgoes : point = .top ∨ point = .recv blocking) :
    Exchanging (h ++ [(s, .run r)]) { s with stats := stats, point := point } := by
  have hpoints : (∀ w, point ≠ .wait w) ∧ point ≠ .listen := by
    rcases hgoes with rfl | rfl
    · exact ⟨by simp, by simp⟩
    · exact ⟨by simp, by simp⟩
  refine hex.leave rfl rfl hex.reading hex.passive hpoints.1 (fun hc => absurd hc hpoints.2)
    fun hs => ?_
  exact ⟨hex.boundary hs (by simp [hpoint]), hex.enabled hs, (hex.established hs).append hm⟩

/-- **A request** keeps the exchange, or starts it over. In the second case all that was known of
the session is given up, and the thread is back in front of the pulse. -/
theorem Exchanging.answered {r : CommResults} {blocking : Bool} {m : IpcMessage} {q : HobdRequest}
    {reply : IpcReply} (now : UInt64) (hex : Exchanging h s) (hpoint : s.point = .recv blocking)
    (ht : Move.actions (s, .run r) = [.request m.label m.ipc.getMR0, .reply reply])
    (hq : hobdRequestOf m.label m.ipc.getMR0 = some q) :
    Exchanging (h ++ [(s, .run r)]) (q.perform now s).2 := by
  cases hset : q.setsMode with
  | true =>
    obtain ⟨enabled, listenOnly, heq⟩ := perform_of_setsMode hset now s
    rw [heq]
    exact hex.leave rfl rfl ⟨[], reads_nil rfl⟩ (fun _ => rfl) (by simp [CommThread.startOver])
      (by simp [CommThread.startOver]) fun hs => absurd hs (not_inSession_of_gpioInit rfl)
  | false =>
    obtain ⟨stats, heq, -⟩ := perform_of_not_setsMode hset now s
    rw [heq]
    refine hex.recv hpoint (unmarked_of_actions ht rfl ?_) (Or.inl rfl)
    rw [List.any_cons, (setsMode_request hq).trans hset]
    rfl

/-- **One move** keeps the invariant, and one that goes to wait leaves the parser on the boundary of
a frame. -/
theorem Exchanging.moves (hex : Exchanging h s) {r : CommResults}
    (hs' : (commStep (.run r) s).result = some s') :
    (s.point = .top → s'.point.isWait = true → s'.parser.state = .getType) ∧
      Exchanging (h ++ [(s, .run r)]) s' := by
  have hmoves := commMoves_of_result hs'
  generalize ht : (commStep (.run r) s).trace = t at hmoves
  cases hmoves with
  | disabled hpoint hen =>
    exact ⟨by simp [CommPoint.isWait], hex.leave rfl rfl hex.reading hex.passive (by simp)
      (by simp) fun hs => absurd hen (hex.enabled hs)⟩
  | listens hpoint hen hlisten =>
    have hgpio : s.comm.untimed.state = .gpioInit := hex.passive hlisten
    exact ⟨by simp [CommPoint.isWait], hex.leave rfl rfl hex.reading (fun _ => hgpio) (by simp)
      (fun _ => hlisten) fun hs => absurd hs (not_inSession_of_gpioInit hgpio)⟩
  | pulses hpoint hactive hstate =>
    exact ⟨by simp [CommPoint.isWait], hex.leave rfl rfl hex.reading
      (fun hc => absurd hactive.2 hc) (by simp) (by simp)
      fun hs => absurd hs (not_inSession_of_sendEcuInit rfl)⟩
  | asks w hpoint hactive hawaits =>
    have hcalls : Move.callsWait (s, .run r) = true := by
      simp [Move.callsWait, hpoint, hs', CommPoint.isWait]
    obtain ⟨hboundary, hex'⟩ := hex.asks hpoint hactive hawaits ht hcalls
    exact ⟨fun _ _ => hboundary, hex'⟩
  | responded w hpoint hfound hresp =>
    exact ⟨by simp [hpoint], hex.responded hpoint (unmarked_of_actions ht rfl rfl) hfound hresp⟩
  | passedOver w hpoint hfound hresp =>
    exact ⟨by simp [hpoint],
      hex.waited hpoint (unmarked_of_actions ht rfl rfl) (sameMode_untimed _)⟩
  | gaveUp w hpoint hfound hflag => exact ⟨by simp [hpoint], hex.gaveUp hpoint⟩
  | waited w hpoint hfound hflag =>
    exact ⟨by simp [hpoint], hex.waited hpoint (unmarked_of_actions ht rfl rfl) (SameMode.refl _)⟩
  | heard hpoint hfound =>
    exact ⟨by simp [hpoint], hex.listened hpoint (sameMode_untimed _) (by simp)⟩
  | unheard hpoint hfound hflag =>
    exact ⟨by simp [hpoint], hex.listened hpoint (sameMode_untimed _) (by simp)⟩
  | listened hpoint hfound hflag =>
    exact ⟨by simp [hpoint], hex.listened hpoint (SameMode.refl _) (by simp [hpoint])⟩
  | blocked hpoint hm =>
    exact ⟨by simp [hpoint],
      hex.recv hpoint (unmarked_of_actions ht rfl rfl) (Or.inr hpoint)⟩
  | polled blocking hpoint hm hreturned =>
    exact ⟨by simp [hpoint], hex.recv hpoint (unmarked_of_actions ht rfl rfl) (Or.inl rfl)⟩
  | answered blocking m q hpoint hm hlabelled hq =>
    exact ⟨by simp [hpoint], hex.answered _ hpoint ht hq⟩

theorem Exchanging.step (hex : Exchanging h s) (hs' : (commStep i s).result = some s') :
    Exchanging (h ++ [(s, i)]) s' := by
  cases i with
  | timeout =>
    obtain rfl := Option.some.inj hs'
    exact hex.timeout
  | run r => exact (hex.moves hs').2

end Invariant

/-- The thread starts outside of a session, with its buffers in place. -/
theorem exchanging_start (r : StartResults) {s : CommThread}
    (hs : (obdCommThreadStart r hobdModuleInit).result = some s) : Exchanging [] s := by
  obtain ⟨hcomm, hpoint, hparser, htx, -⟩ := (obdCommThreadStart_emits r).2 s hs
  obtain ⟨-, hboundary, -, -, hrx, -⟩ := hobdParserInit_eq_some hparser
  have hstate : s.comm.state = .gpioInit := by rw [hcomm]; rfl
  have hsession : ¬InSession s := not_inSession_of_gpioInit hstate
  refine ⟨?_, ?_, ⟨[], reads_nil hboundary⟩, fun _ => hstate, ?_, fun _ _ => hboundary, ?_, ?_, ?_,
    fun hs => absurd hs hsession, fun hs => absurd hs hsession⟩
  · rw [hrx, List.length_replicate]
    omega
  · rw [htx, List.length_replicate]
    omega
  all_goals simp [hpoint]

/-- The thread is woken up and opens a session, and the ECU answers. -/
def openingRun : List CommInput :=
  wakeUpRun ++ [quietLine none, quietLine none] ++ [0x02, 0x04, 0x00, 0xFA].map byteMove

end HobdSystem
