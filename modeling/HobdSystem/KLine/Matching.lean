import HobdSystem.Ecu.Answers
import HobdSystem.KLine.Link

/-!
# Responses and the queries they are taken for

An ECU that answers the queries it gets in their order, each of them once and each after as long as
it likes (`HobdSystem.OrderlyEcu`), and the thread, with its timer. A wait takes any response of
the right subtype, so a response that is late is taken for the response to a later query. In a
session both tables are asked for with the same subtype: if a response for table 10 is late by one
query, it is taken for the first response of the next session, and the one behind it for a response
for table D1 (`HobdSystem.not_matched_late`).

A session is entered when the byte is read that completes the response to the query that opens it
(`HobdSystem.EntersSession`). **If nothing is outstanding at that moment**, no byte on its way and
no query unanswered, the exchange goes in turns from there to the end of the session, and every
message that is logged is a response for the table that was asked for
(`HobdSystem.responses_matched`), whatever the timer does.

## Why the condition is one on the moment of entry alone

Inside of a session nothing has to be assumed, for there the thread sends one query at a time and
waits for the response before it sends the next one. A wait that ends without a response ends the
session as well, and what was outstanding then is outstanding still: bytes that the thread has not
read, and queries that the ECU has not answered. They can only do harm in a later session, and the
only way into one is through `COMM_STATE_SEND_ECU_INIT`, where responses for tables are passed over.
So the invariant (`HobdSystem.SessionInTurn`) says nothing of a thread that is outside of a session,
and the one thing that has to be shown of the entry is that the last byte on its way is the one that
completes the response.
-/

namespace HobdSystem

open Bytes Framing Traced

/-! ### The system -/

instance (subtype : UInt8) (msg : List UInt8) : Decidable (IsResponse subtype msg) :=
  inferInstanceAs (Decidable (_ ∧ _))

/-- A response with some bytes of a table. -/
def IsTableResponse (table : UInt8) (msg : List UInt8) : Prop :=
  IsResponse hobdMsgSubtypeTableSubgroup msg ∧ 6 ≤ msg.length ∧ msg.getD 3 0 = table

instance (table : UInt8) (msg : List UInt8) : Decidable (IsTableResponse table msg) :=
  inferInstanceAs (Decidable (_ ∧ _ ∧ _))

/-- A message that answers a query: a response to the initialisation for a query of that kind, and
a response with bytes of the same table for the other kind. -/
def Responds (query msg : List UInt8) : Prop :=
  headerSubtype query = hobdMsgSubtypeInit ∧ IsResponse hobdMsgSubtypeInit msg ∨
    headerSubtype query = hobdMsgSubtypeTableSubgroup ∧ IsTableResponse (queryTable query) msg

instance (query msg : List UInt8) : Decidable (Responds query msg) :=
  inferInstanceAs (Decidable (_ ∧ _ ∨ _ ∧ _))

/-- An ECU that answers queries in their order, whenever it likes. Nothing is assumed of its
speed, nor of the bytes of the tables it answers with. -/
structure OrderlyEcu where
  /-- What it has read of a message. -/
  frame : List UInt8
  /-- The queries it has not answered yet, the oldest one first. -/
  pending : List (List UInt8)
  deriving DecidableEq

/-- Nothing is read in part, and nothing is left to answer. -/
def OrderlyEcu.idle : OrderlyEcu := ⟨[], []⟩

/-- A byte arrives. -/
def OrderlyEcu.receive (b : UInt8) (e : OrderlyEcu) : OrderlyEcu :=
  ⟨(collect hobdFormat b e.frame).2, e.pending ++
    ((collect hobdFormat b e.frame).1.frame?.filter fun f => decide (IsQuery f)).toList⟩

/-- What makes the system move. -/
inductive OrderlyInput where
  /-- The thread runs, and the first byte on its way to it has arrived or not. -/
  | comm (r : CommResults) (arrived : Bool)
  /-- The timer fires. -/
  | timeout
  /-- The ECU reads the next byte. -/
  | ecuReads
  /-- The ECU answers the oldest query. -/
  | ecuAnswers (f : HobdFrame)

/-- A move of the system. The ECU does nothing where there is nothing to read or to answer, or if
the message is no answer. -/
def orderlyStep (i : OrderlyInput) (k : KLine OrderlyEcu) :
    Traced CommAction (KLine OrderlyEcu) :=
  match i with
  | .comm r arrived => commMove r arrived k
  | .timeout => pure { k with thread.comm := timeoutCb k.thread.comm }
  | .ecuReads =>
    match k.toEcu with
    | [] => pure k
    | b :: bytes => pure { k with ecu := k.ecu.receive b, toEcu := bytes }
  | .ecuAnswers f =>
    match k.ecu.pending with
    | [] => pure k
    | query :: rest =>
      if Responds query f.bytes then
        pure { k with ecu := ⟨k.ecu.frame, rest⟩, toComm := k.toComm ++ f.bytes }
      else pure k

/-- The thread starts, with nothing on its way and nothing to answer. -/
def orderlyStart (r : StartResults) : Traced CommAction (KLine OrderlyEcu) := do
  let s ← obdCommThreadStart r hobdModuleInit
  return ⟨s, .idle, [], []⟩

/-- The moves of a run. -/
def orderlyHistory (r : StartResults) (is : List OrderlyInput) :
    List (KLine OrderlyEcu × OrderlyInput) :=
  history orderlyStep (orderlyStart r) is

/-- **What is logged as received in a move is a response for the table that was asked for**: for
table 10 in `COMM_STATE_SEND_REQ0`, and for table D1 in `COMM_STATE_SEND_REQ1`. -/
def Matched (m : KLine OrderlyEcu × OrderlyInput) : Prop :=
  ∀ msg ∈ heardBy (orderlyStep m.2 m.1).trace,
    (m.1.thread.comm.state = .sendReq0 → IsTableResponse hobdTable10 msg) ∧
      (m.1.thread.comm.state = .sendReq1 → IsTableResponse hobdTableD1 msg)

instance (m : KLine OrderlyEcu × OrderlyInput) : Decidable (Matched m) :=
  inferInstanceAs (Decidable (∀ msg ∈ heardBy (orderlyStep m.2 m.1).trace, _))

/-- **The thread enters a session if it runs now**: in `COMM_STATE_SEND_ECU_INIT`, the byte that it
reads completes a response to the query that opens one. This is said of the state in front of the
move and of the byte alone; that it is what takes the thread into a session is
`HobdSystem.Exchanging.entersSession_iff`. -/
def EntersSession (k : KLine OrderlyEcu) (arrived : Bool) : Prop :=
  k.thread.comm.state = .sendEcuInit ∧
    ∃ b ∈ k.atUart arrived, (hobdParserParseByte b k.thread.parser).1 = .none ∧
      IsResponse hobdMsgSubtypeInit (hobdParserParseByte b k.thread.parser).2.rxBuffer

instance (k : KLine OrderlyEcu) (arrived : Bool) : Decidable (EntersSession k arrived) :=
  inferInstanceAs (Decidable (_ ∧ ∃ b ∈ k.atUart arrived, _ ∧ IsResponse _ _))

/-- **If a session is entered by a move, nothing is outstanding**: the byte that is read is the only
one on its way, and every query is answered. -/
def StartsQuietly : KLine OrderlyEcu × OrderlyInput → Prop
  | (k, .comm _ arrived) =>
    EntersSession k arrived → k.toEcu = [] ∧ k.toComm.length ≤ 1 ∧ k.ecu = .idle
  | (_, .timeout) => True
  | (_, .ecuReads) => True
  | (_, .ecuAnswers _) => True

instance : DecidablePred StartsQuietly
  | (k, .comm _ arrived) =>
    inferInstanceAs (Decidable (EntersSession k arrived →
      k.toEcu = [] ∧ k.toComm.length ≤ 1 ∧ k.ecu = .idle))
  | (_, .timeout) => inferInstanceAs (Decidable True)
  | (_, .ecuReads) => inferInstanceAs (Decidable True)
  | (_, .ecuAnswers _) => inferInstanceAs (Decidable True)

/-! ### The ECU as a partner -/

/-- The response that is awaited in a state. The thread looks at the type and the subtype of a
message only, so that the table is the right one is something to be proved. -/
def Awaited : CommStateKind → List UInt8 → Prop
  | .gpioInit, _ => False
  | .sendEcuInit, msg => IsResponse hobdMsgSubtypeInit msg
  | .sendReq0, msg => IsTableResponse hobdTable10 msg
  | .sendReq1, msg => IsTableResponse hobdTableD1 msg

/-- **The ECU**, seen from the thread. -/
def orderly : Partner OrderlyEcu where
  Hears _ pre e := e = ⟨pre, []⟩
  Owes state e := ∃ query, e = ⟨[], [query]⟩ ∧ ∀ msg, Responds query msg → Awaited state msg
  Response state f := Awaited state f.bytes
  isResponse {state f w} h hw := by
    cases state with
    | gpioInit => exact h.elim
    | sendEcuInit =>
      obtain rfl := Option.some.inj hw
      exact h
    | sendReq0 | sendReq1 =>
      obtain rfl := Option.some.inj hw
      exact h.1

section Moves

variable {e : OrderlyEcu} {f : HobdFrame} {b : UInt8} {bytes : List UInt8} {state : CommStateKind}

/-- A byte inside a message. -/
theorem receive_next {pre rest : List UInt8} (hsplit : f.bytes = pre ++ b :: rest)
    (hrest : rest ≠ []) : OrderlyEcu.receive b ⟨pre, []⟩ = ⟨pre ++ [b], []⟩ := by
  have hcollect := f.collect_eq hsplit
  rw [if_neg hrest] at hcollect
  rw [OrderlyEcu.receive, hcollect]
  rfl

/-- The last byte of a message. -/
theorem receive_last {pre : List UInt8} (hsplit : f.bytes = pre ++ [b]) :
    OrderlyEcu.receive b ⟨pre, []⟩ = ⟨[], if IsQuery f.bytes then [f.bytes] else []⟩ := by
  have hcollect := f.collect_eq hsplit
  rw [if_pos rfl] at hcollect
  have hframe : (Verdict.delivered f.bytes).frame? = some f.bytes := rfl
  rw [OrderlyEcu.receive, hcollect, hframe, Option.filter_some]
  split_ifs <;> simp_all

/-- A byte of a message: there is more of it to read, or it is complete. -/
theorem orderly_hearsPart_move {phase : EcuPhase} {after : List UInt8}
    (h : orderly.HearsPart phase f after e (b :: bytes)) :
    orderly.HearsPart phase f after (e.receive b) bytes ∨
      bytes = after ∧ e.receive b = ⟨[], if IsQuery f.bytes then [f.bytes] else []⟩ := by
  obtain ⟨pre, rest, hsplit, rfl, he⟩ := h.cons
  obtain rfl : e = ⟨pre, []⟩ := he
  by_cases hrest : rest = []
  · subst hrest
    exact Or.inr ⟨rfl, receive_last hsplit⟩
  · exact Or.inl (.of_next hsplit hrest (receive_next hsplit hrest))

/-- What answers a query for a table is a response for the table. -/
theorem responds_tableQuery {table count stale c : UInt8} {msg : List UInt8}
    (h : Responds (tableQuery table count stale c) msg) : IsTableResponse table msg := by
  rcases h with ⟨hc, -⟩ | ⟨-, h⟩
  · exact absurd hc (by decide : hobdMsgSubtypeTableSubgroup ≠ hobdMsgSubtypeInit)
  · exact h

/-- **A byte of what is sent in a state of the exchange**: there is more of it to read, or there
is a query to answer. -/
theorem orderly_reading_move (h : orderly.Reading state e (b :: bytes)) :
    orderly.Reading state (e.receive b) bytes ∨ bytes = [] ∧ orderly.Owes state (e.receive b) := by
  cases state with
  | gpioInit => exact h.elim
  | sendEcuInit =>
    rcases h with h | h
    · rcases orderly_hearsPart_move h with h' | ⟨rfl, h'⟩
      · exact Or.inl (Or.inl h')
      · rw [if_neg (by decide)] at h'
        exact Or.inl (Or.inr ⟨[], initQuery, rfl, by decide, (List.append_nil _).symm, h'⟩)
    · rcases orderly_hearsPart_move h with h' | ⟨rfl, h'⟩
      · exact Or.inl (Or.inr h')
      · rw [if_pos (by decide)] at h'
        refine Or.inr ⟨rfl, initQuery, h', fun msg hmsg => ?_⟩
        rcases hmsg with ⟨-, hmsg⟩ | ⟨hc, -⟩
        · exact hmsg
        · exact absurd hc (by decide)
  | sendReq0 | sendReq1 =>
    obtain ⟨f, hq, h⟩ := h
    rcases orderly_hearsPart_move h with h' | ⟨rfl, h'⟩
    · exact Or.inl ⟨f, hq, h'⟩
    · obtain ⟨stale, c, hf, -⟩ := hq
      have hquery : IsQuery f.bytes := by
        rw [hf]
        exact ⟨rfl, Or.inr rfl⟩
      rw [if_pos hquery] at h'
      exact Or.inr ⟨rfl, f.bytes, h', fun msg hmsg => responds_tableQuery (hf ▸ hmsg)⟩

/-- While there is something to read, nothing is left to answer. -/
theorem pending_of_reading (h : orderly.Reading state e bytes) : e.pending = [] := by
  have hpart : ∀ {phase f after}, orderly.HearsPart phase f after e bytes → e.pending = [] := by
    rintro _ _ _ ⟨pre, rest, -, -, -, he⟩
    obtain rfl : e = ⟨pre, []⟩ := he
    rfl
  cases state with
  | gpioInit => exact h.elim
  | sendEcuInit => exact h.elim hpart hpart
  | sendReq0 | sendReq1 =>
    obtain ⟨f, -, h⟩ := h
    exact hpart h

variable {k : KLine OrderlyEcu}

/-- **The ECU reads a byte**, and the exchange goes in turns. -/
theorem InTurn.ecuReads (hk : InTurn orderly k) (htoEcu : k.toEcu = b :: bytes) :
    InTurn orderly { k with ecu := k.ecu.receive b, toEcu := bytes } := by
  obtain ⟨w, hpoint, hawaits, hboundary, htoComm, hreading⟩ := hk.asked htoEcu
  rcases orderly_reading_move hreading with hreading' | ⟨rfl, howes⟩
  · exact .asking w hpoint hawaits hboundary htoComm hreading'
  · exact .owing w hpoint hawaits hboundary htoComm rfl howes

/-- **The ECU answers a query**, and the exchange goes in turns. In turn there is at most one
query that is not answered yet, and it is the one that the thread waits for. -/
theorem InTurn.ecuAnswers (hk : InTurn orderly k) {query : List UInt8} {rest : List (List UInt8)}
    (hpending : k.ecu.pending = query :: rest) (hf : Responds query f.bytes) :
    InTurn orderly { k with ecu := ⟨k.ecu.frame, rest⟩, toComm := k.toComm ++ f.bytes } := by
  cases hk with
  | idle _ _ _ _ hrests =>
    rw [show k.ecu = ⟨[], []⟩ from hrests] at hpending
    exact absurd hpending nofun
  | asking _ _ _ _ _ hreading =>
    exact absurd ((pending_of_reading hreading).symm.trans hpending) nofun
  | answering _ _ _ _ _ _ _ _ _ _ hrests =>
    rw [show k.ecu = ⟨[], []⟩ from hrests] at hpending
    exact absurd hpending nofun
  | owing w hpoint hawaits hboundary htoComm htoEcu howes =>
    obtain ⟨query', he, hresponds⟩ := howes
    rw [he] at hpending
    obtain ⟨rfl, rfl⟩ : query' = query ∧ [] = rest := by simpa using hpending
    refine .answering w hpoint hawaits f (hresponds _ hf) [] ?_ ?_ (reads_nil hboundary) htoEcu ?_
    · rw [htoComm]
      rfl
    · rw [htoComm]
      exact f.ne_nil
    · rw [he]
      rfl

end Moves

/-! ### Sessions -/

section Sessions

variable {h : List Move} {s s' : CommThread}

/-- In a session the thread takes part in the exchange. -/
theorem Exchanging.takesPart (hex : Exchanging h s) (hs : InSession s) : TakesPart s := by
  refine ⟨hex.enabled hs, ?_, hex.tx, hex.rx⟩
  by_contra hc
  exact not_inSession_of_gpioInit (hex.passive hc) hs

/-- What the wait outside of a session is for. -/
theorem eq_sendEcuInit_of_awaits {w : RespWait} (hawaits : s.comm.state.awaits = some w)
    (hout : ¬InSession s) :
    s.comm.state = .sendEcuInit ∧ w = ⟨hobdMsgSubtypeInit, .sendReq0, .gpioInit⟩ := by
  cases hstate : s.comm.state with
  | gpioInit =>
    rw [hstate] at hawaits
    exact absurd hawaits (by simp [CommStateKind.awaits])
  | sendEcuInit =>
    rw [hstate] at hawaits
    exact ⟨rfl, (Option.some.inj hawaits).symm⟩
  | sendReq0 => exact absurd (Or.inl hstate) hout
  | sendReq1 => exact absurd (Or.inr hstate) hout

/-- **A session starts with a message that is found in a wait**: with the response to the query
that opens it. -/
theorem Exchanging.found (hex : Exchanging h s) {r : CommResults}
    (hs' : (commStep (.run r) s).result = some s') (hout : ¬InSession s) (hin : InSession s') :
    s.comm.state = .sendEcuInit ∧ (pollUart r.getchar s.parser).1 = true ∧
      IsResponse hobdMsgSubtypeInit (pollUart r.getchar s.parser).2.rxBuffer ∧
      sentBy (commStep (.run r) s).trace = [] ∧ s'.point = .recv false := by
  have hmoves := commMoves_of_result hs'
  generalize (commStep (.run r) s).trace = t at hmoves ⊢
  -- the response is found, or the state is kept or is not one of a session
  cases hmoves with
  | responded w hpoint hfound hresp =>
    obtain ⟨hinit, rfl⟩ := eq_sendEcuInit_of_awaits (hex.active w hpoint).1 hout
    exact ⟨hinit, hfound, hresp, rfl, rfl⟩
  | gaveUp w hpoint =>
    rcases notFound_of_awaits (hex.active w hpoint).1 with hback | hback
    · exact absurd hin (not_inSession_of_gpioInit hback)
    · exact absurd hin (not_inSession_of_sendEcuInit hback)
  | pulses => exact absurd hin (not_inSession_of_sendEcuInit rfl)
  | answered blocking m q =>
    cases hset : q.setsMode with
    | true =>
      obtain ⟨enabled, listenOnly, heq⟩ := perform_of_setsMode hset (r.firstTime.getD 0) s
      rw [heq] at hin
      exact absurd hin (not_inSession_of_gpioInit rfl)
    | false =>
      obtain ⟨stats, heq, -⟩ := perform_of_not_setsMode hset (r.firstTime.getD 0) s
      rw [heq] at hin
      exact absurd hin hout
  | _ => exact absurd hin hout

variable {k k' : KLine OrderlyEcu} {r : CommResults} {arrived : Bool}

/-- **It is these moves that lead into a session**: the thread is outside of one in front of the
move, and in one behind it. -/
theorem Exchanging.entersSession_iff (hex : Exchanging h k.thread)
    (hk' : (HobdSystem.commMove r arrived k).result = some k') :
    EntersSession k arrived ↔ ¬InSession k.thread ∧ InSession k'.thread := by
  obtain ⟨s', hres, hk'⟩ := commMove_eq_some hk'
  obtain rfl : k'.thread = s' := by rw [hk']
  constructor
  · rintro ⟨hstate, b, hb, hdone, hresp⟩
    refine ⟨not_inSession_of_sendEcuInit hstate, ?_⟩
    have huart : k.atUart arrived = some b := hb
    have hpoll := pollUart_some b k.thread.parser
    cases hpoint : k.thread.point with
    | top => simp [KLine.atUart, hpoint, CommPoint.polls] at huart
    | recv blocking => simp [KLine.atUart, hpoint, CommPoint.polls] at huart
    | listen =>
      -- a thread that listens is at the start of the exchange
      exact absurd (hstate.symm.trans (hex.passive (hex.listens hpoint))) (by decide)
    | wait w =>
      obtain ⟨-, rfl⟩ := eq_sendEcuInit_of_awaits (hex.active w hpoint).1
        (not_inSession_of_sendEcuInit hstate)
      rw [huart] at hres
      have hcases := (commMoves_of_result hres).of_wait hpoint
      rw [hpoll] at hcases
      rcases hcases with ⟨-, -, -, ho⟩ | ⟨-, hno, -⟩ | ⟨hnone, -⟩ | ⟨hnone, -⟩
      · rw [Option.some.inj ho]
        exact Or.inl rfl
      · exact absurd hresp hno
      · exact absurd hdone (by simpa using hnone)
      · exact absurd hdone (by simpa using hnone)
  · rintro ⟨hout, hin⟩
    obtain ⟨hinit, hfound, hresp, -⟩ := hex.found hres hout hin
    cases huart : k.atUart arrived with
    | none =>
      rw [huart, pollUart_none] at hfound
      exact absurd hfound Bool.false_ne_true
    | some b =>
      rw [huart, pollUart_some] at hfound hresp
      exact ⟨hinit, b, huart, of_decide_eq_true hfound, hresp⟩

end Sessions

/-! ### Runs -/

/-- **The invariant**: in a session the exchange goes in turns. Outside of one nothing is said of
what is on its way. -/
structure SessionInTurn (k : KLine OrderlyEcu) : Prop where
  exchanging : ∃ h, Exchanging h k.thread
  inTurn : InSession k.thread → InTurn orderly k

section System

variable {k k' : KLine OrderlyEcu} {r : CommResults} {arrived : Bool}

/-- **A move of the thread** keeps the turns of a session, or the session starts or ends. -/
theorem SessionInTurn.commMove (hk : SessionInTurn k) (hok : StartsQuietly (k, .comm r arrived))
    (h : (commMove r arrived k).result = some k') : SessionInTurn k' := by
  obtain ⟨past, hex⟩ := hk.exchanging
  obtain ⟨s', hres, hk'⟩ := commMove_eq_some h
  obtain rfl : k'.thread = s' := by rw [hk']
  have hex' := hex.step hres
  refine ⟨⟨_, hex'⟩, fun hin => ?_⟩
  by_cases hs : InSession k.thread
  · rcases (hk.inTurn hs).commMove (hex.takesPart hs) h with hmoved | ⟨w, -, hawaits, -, hstate⟩ |
        ⟨-, hstate⟩
    · exact hmoved.inTurn
    · -- the wait has ended, and with it the session
      rcases notFound_of_awaits hawaits with hback | hback
      · exact absurd hin (not_inSession_of_gpioInit (hstate.trans hback))
      · exact absurd hin (not_inSession_of_sendEcuInit (hstate.trans hback))
    · exact absurd hin (not_inSession_of_gpioInit hstate)
  · obtain ⟨htoEcu, htoComm, hecu⟩ := hok ((hex.entersSession_iff h).mpr ⟨hs, hin⟩)
    obtain ⟨-, hfound, -, hsent, hrecv⟩ := hex.found hres hs hin
    have hboundary := hex'.boundary hin fun w hw => absurd (hrecv.symm.trans hw) nofun
    refine .idle (Or.inr hrecv) ?_ ?_ (fun _ => hboundary) ?_
    · rw [hk', htoEcu]
      exact hsent
    · -- the last byte is read
      cases huart : k.atUart arrived with
      | none =>
        rw [huart, pollUart_none] at hfound
        exact absurd hfound nofun
      | some b =>
        rw [hk', huart]
        exact List.drop_eq_nil_of_le htoComm
    · rw [hk']
      exact hecu

/-- **One move** keeps the invariant. The delicate move is the one that opens a session, where the
exchange has to begin with nothing on its way. -/
theorem SessionInTurn.step {i : OrderlyInput} (hk : SessionInTurn k) (hok : StartsQuietly (k, i))
    (h : (orderlyStep i k).result = some k') : SessionInTurn k' := by
  obtain ⟨past, hex⟩ := hk.exchanging
  cases i with
  | comm r arrived => exact hk.commMove hok h
  | timeout =>
    obtain rfl := Option.some.inj h
    exact ⟨⟨_, hex.timeout⟩, fun hs => (hk.inTurn hs).congr rfl rfl rfl rfl rfl rfl⟩
  | ecuReads =>
    cases htoEcu : k.toEcu with
    | nil =>
      simp only [orderlyStep, htoEcu] at h
      exact Option.some.inj h ▸ hk
    | cons b bytes =>
      simp only [orderlyStep, htoEcu] at h
      obtain rfl := Option.some.inj h
      exact ⟨⟨past, hex⟩, fun hs => (hk.inTurn hs).ecuReads htoEcu⟩
  | ecuAnswers f =>
    cases hpending : k.ecu.pending with
    | nil =>
      simp only [orderlyStep, hpending] at h
      exact Option.some.inj h ▸ hk
    | cons query rest =>
      simp only [orderlyStep, hpending] at h
      split_ifs at h with hf
      · obtain rfl := Option.some.inj h
        exact ⟨⟨past, hex⟩, fun hs => (hk.inTurn hs).ecuAnswers hpending hf⟩
      · exact Option.some.inj h ▸ hk

/-- What is logged in a session is the response that is awaited. -/
theorem SessionInTurn.awaited (hk : SessionInTurn k) (i : OrderlyInput) (hs : InSession k.thread) :
    ∀ msg ∈ heardBy (orderlyStep i k).trace, Awaited k.thread.comm.state msg := by
  intro msg hmsg
  obtain ⟨a, ha, hheard⟩ := List.mem_filterMap.mp hmsg
  obtain ⟨past, hex⟩ := hk.exchanging
  cases i with
  | comm r arrived =>
    obtain ⟨f, hf, rfl⟩ := (hk.inTurn hs).heard (hex.takesPart hs) a ha msg hheard
    exact hf
  | timeout => exact absurd ha List.not_mem_nil
  | ecuReads =>
    have hnil : (orderlyStep .ecuReads k).trace = [] := by
      unfold orderlyStep
      dsimp only
      split <;> rfl
    exact absurd (hnil ▸ ha) List.not_mem_nil
  | ecuAnswers f =>
    have hnil : (orderlyStep (.ecuAnswers f) k).trace = [] := by
      unfold orderlyStep
      dsimp only
      split
      · rfl
      · split_ifs <;> rfl
    exact absurd (hnil ▸ ha) List.not_mem_nil

end System

/-- **Every message that is logged is a response for the table that was asked for**, in every run
from `hobd_module_init` on in which nothing is outstanding whenever a session starts. -/
theorem responses_matched (r : StartResults) (is : List OrderlyInput)
    (hquiet : ∀ m ∈ orderlyHistory r is, StartsQuietly m) :
    ∀ m ∈ orderlyHistory r is, Matched m := by
  have hstart : ∀ k, (orderlyStart r).result = some k → SessionInTurn k := by
    intro k hk
    cases hres : (obdCommThreadStart r hobdModuleInit).result with
    | none =>
      rw [orderlyStart, bind_none _ hres] at hk
      exact absurd hk nofun
    | some s =>
      rw [orderlyStart, bind_some _ hres] at hk
      obtain rfl := Option.some.inj hk
      obtain ⟨hcomm, -⟩ := (obdCommThreadStart_emits r).2 s hres
      have hgpio : s.comm.state = .gpioInit := by rw [hcomm]; rfl
      exact ⟨⟨[], exchanging_start r hres⟩, fun hs => absurd hs (not_inSession_of_gpioInit hgpio)⟩
  have hinv : ∀ m ∈ orderlyHistory r is, SessionInTurn m.1 :=
    forall_history orderlyStep SessionInTurn (fun k i k' hk hok h => hk.step hok h) is _ hstart
      hquiet
  intro m hm msg hmsg
  refine ⟨fun hs => ?_, fun hs => ?_⟩
  · have h := (hinv m hm).awaited m.2 (Or.inl hs) msg hmsg
    rwa [hs] at h
  · have h := (hinv m hm).awaited m.2 (Or.inr hs) msg hmsg
    rwa [hs] at h

/-- An input of the thread, on the line. -/
def onLine : CommInput → OrderlyInput
  | .run r => .comm r true
  | .timeout => .timeout

/-- Some moves of the thread. -/
def turns (n : ℕ) : List OrderlyInput := List.replicate n (onLine (quietLine none))

/-- The ECU reads some bytes and answers, and the thread makes some moves. -/
def exchange (bytes : ℕ) (f : HobdFrame) (n : ℕ) : List OrderlyInput :=
  List.replicate bytes .ecuReads ++ .ecuAnswers f :: turns n

/-- A response for table 10. -/
def table10Frame : HobdFrame where
  bytes := tableResponse hobdTable10 0 (List.replicate 0x80 0xAA) 0xF6
  type_mem := by decide
  subtype_mem := by decide
  size_eq := by decide +kernel
  four_le := by decide +kernel
  length_le := by decide +kernel
  sum_eq := by decide +kernel

/-- A response for table D1. -/
def tableD1Frame : HobdFrame where
  bytes := tableResponse hobdTableD1 0 (List.replicate 6 0xBB) 0x4D
  type_mem := by decide
  subtype_mem := by decide
  size_eq := by decide
  four_le := by decide
  length_le := by decide
  sum_eq := by decide

/-- The wait for table 10 ends too early. The response arrives in the wait that opens the next
session, which passes it over. -/
def retriedRun : List OrderlyInput :=
  wakeUpRun.map onLine ++ turns 2 ++ exchange 9 initResponseFrame 6 ++ [.timeout] ++ turns 3 ++
    exchange 8 table10Frame 134 ++ exchange 9 initResponseFrame 6 ++ exchange 8 table10Frame 136 ++
    exchange 8 tableD1Frame 12

theorem responses_matched_retried :
    (heardBy (run orderlyStep (orderlyStart ⟨0, 0, 0⟩) retriedRun).trace).length = 4 ∧
      ∀ m ∈ orderlyHistory ⟨0, 0, 0⟩ retriedRun, Matched m := by
  refine ⟨by decide +kernel, responses_matched ⟨0, 0, 0⟩ retriedRun ?_⟩
  decide +kernel

/-- The wait that opens a session ends too early, and so does the wait for table 10 in the session
that is opened by the late response. The next session is opened by a response that is late as
well, while the query for table 10 is outstanding. -/
def lateRun : List OrderlyInput :=
  wakeUpRun.map onLine ++ turns 2 ++ [.timeout] ++ turns 5 ++ exchange 9 initResponseFrame 6 ++
    [.timeout] ++ turns 3 ++ exchange 9 initResponseFrame 6 ++ exchange 8 table10Frame 136 ++
    exchange 9 initResponseFrame 4 ++ exchange 8 table10Frame 134

/-- **A response for table 10 is logged as the response for table D1.** -/
theorem not_matched_late :
    (∃ m ∈ orderlyHistory ⟨0, 0, 0⟩ lateRun, m.1.thread.comm.state = .sendReq1 ∧
        table10Frame.bytes ∈ heardBy (orderlyStep m.2 m.1).trace) ∧
      ¬∀ m ∈ orderlyHistory ⟨0, 0, 0⟩ lateRun, Matched m := by
  have hlate : ∃ m ∈ orderlyHistory ⟨0, 0, 0⟩ lateRun, m.1.thread.comm.state = .sendReq1 ∧
      table10Frame.bytes ∈ heardBy (orderlyStep m.2 m.1).trace := by
    decide +kernel
  refine ⟨hlate, fun hmatched => ?_⟩
  obtain ⟨m, hm, hstate, hmsg⟩ := hlate
  have htable : ¬IsTableResponse hobdTableD1 table10Frame.bytes := by decide +kernel
  exact htable ((hmatched m hm _ hmsg).2 hstate)

end HobdSystem
