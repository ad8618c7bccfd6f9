import HobdSystem.Hobd.Established

/-!
# The thread and the ECU on one line

The thread that talks to the ECU, something at the other end, and the bytes on their way between
the two. Bytes are not lost and not reordered, and each takes as long as it likes: it is up to the
run whether the first byte of a link has arrived. So a query may be on its way in part while the
rest of it has been read, and the two ends are never in step.

What is at the other end is left open. It is enough to know a few things about it, which are the
fields of a `HobdSystem.Partner`: when it expects a message, when it has read one and not answered
yet, and what it answers with. The response to what the thread has asked for must be one that the
thread takes for it, and that is the only condition. An emulator that answers at once and an ECU
that takes its time are both partners.

Then the exchange goes in turns (`HobdSystem.InTurn`): while the thread does not wait the links
are empty, while the partner reads a query nothing is on its way back, and while the thread reads
a response nothing is on its way out. The second half of this is what makes the thread take a
response for the right query: there is never more than one of either. A move of the thread keeps
the turns, and the messages it logs are responses to what it has asked for last
(`HobdSystem.InTurn.commMove` and `HobdSystem.InTurn.heard`), **unless the timer ends the wait**
or a request sets the mode. In these two cases a response may still be on its way, to be taken
later for the response to another query; what becomes of that is the subject of
`HobdSystem.KLine.Matching`.

The moves of the thread are those of the table of `HobdSystem.Hobd.Moves`, with the byte that has
arrived on the UART (`HobdSystem.commMove_moves`).
-/

namespace HobdSystem

open Bytes Framing Traced

/-! ### The line -/

/-- The thread, an ECU, and the bytes on their way. The line is a queue in each direction, so a
byte may be late but is never lost or overtaken. -/
structure KLine (ε : Type) where
  thread : CommThread
  ecu : ε
  toEcu : List UInt8
  toComm : List UInt8

/-- The points where the thread reads the UART. -/
def CommPoint.polls : CommPoint → Bool
  | .wait _ => true
  | .listen => true
  | _ => false

/-- What `ps_cdev_getchar` answers. -/
def uartChar : Option UInt8 → Int32
  | some b => Int32.ofNat b.toNat
  | none => -1

section Move

variable {ε : Type}

/-- The byte the thread reads in its next move, if one has arrived and it looks for one. -/
def KLine.atUart (arrived : Bool) (k : KLine ε) : Option UInt8 :=
  if arrived && k.thread.point.polls then k.toComm.head? else none

/-- A move of the thread. -/
def commMove (r : CommResults) (arrived : Bool) (k : KLine ε) : Traced CommAction (KLine ε) :=
  let x := commStep (.run { r with getchar := uartChar (k.atUart arrived) }) k.thread
  ⟨x.trace, x.result.map fun thread => { k with
    thread := thread, toEcu := k.toEcu ++ sentBy x.trace
    toComm := k.toComm.drop (k.atUart arrived).toList.length }⟩

end Move

theorem pollUart_none (p : HobdParser) : pollUart (uartChar none) p = (false, p) := rfl

theorem pollUart_some (b : UInt8) (p : HobdParser) :
    pollUart (uartChar (some b)) p =
      (decide ((hobdParserParseByte b p).1 = .none), (hobdParserParseByte b p).2) := by
  have hb : b.toNat < 256 := b.toNat_lt
  have hnonneg : 0 ≤ Int32.ofNat b.toNat := by
    rw [Int32.le_iff_toInt_le, Int32.toInt_ofNat_of_lt (by omega)]
    exact Int.natCast_nonneg _
  have hword : (Int32.ofNat b.toNat).toUInt32.toNat = b.toNat := by
    change (BitVec.ofNat 32 b.toNat).toNat = _
    rw [BitVec.toNat_ofNat]
    omega
  have hbyte : (Int32.ofNat b.toNat).toUInt32.toUInt8 = b := by
    rw [← UInt8.toNat_inj, UInt32.toNat_toUInt8, hword]
    omega
  rw [pollUart, uartChar, if_pos hnonneg, hbyte]

/-! ### Taking turns -/

/-- The state the exchange goes on to. -/
def CommStateKind.next : CommStateKind → CommStateKind
  | .gpioInit => .sendEcuInit
  | .sendEcuInit => .sendReq0
  | .sendReq0 => .sendReq1
  | .sendReq1 => .sendReq0

theorem found_of_awaits {state : CommStateKind} {w : RespWait} (h : state.awaits = some w) :
    w.found = state.next := by
  cases state with
  | gpioInit => exact absurd h nofun
  | sendEcuInit => exact (Option.some.inj h ▸ rfl)
  | sendReq0 => exact (Option.some.inj h ▸ rfl)
  | sendReq1 => exact (Option.some.inj h ▸ rfl)

/-- The query that opens a session, as a frame. -/
def initFrame : HobdFrame where
  bytes := initQuery
  type_mem := by decide
  subtype_mem := by decide
  size_eq := by decide
  four_le := by decide
  length_le := by decide
  sum_eq := by decide

/-- A query for a table, as a frame. -/
theorem exists_tableFrame {table count stale c : UInt8}
    (hsum : byteSum (tableQuery table count stale c) % 256 = 0) :
    ∃ f : HobdFrame, f.bytes = tableQuery table count stale c := by
  have htype : ProtocolType 0x72 := by decide
  have hsubtype : ProtocolSubtype 0x72 := by decide
  exact ⟨⟨tableQuery table count stale c, htype, hsubtype, rfl, by simp [tableQuery],
    by simp [tableQuery], hsum⟩, rfl⟩

/-- What an ECU expects: to be woken up, a session to be opened, or a query of the session. -/
inductive EcuPhase where
  | asleep
  | awake
  | listening

/-- What the ECU expects when a state of the exchange is entered. -/
def CommStateKind.phase : CommStateKind → EcuPhase
  | .gpioInit | .sendEcuInit => .asleep
  | .sendReq0 | .sendReq1 => .listening

/-- What has to be known about an ECU to say that it and the thread take turns. The predicates are
on states that are left open, and how the ECU comes from one to the other is not said here. -/
structure Partner (ε : Type) where
  /-- It expects something, and has read the bytes `pre` of a message. -/
  Hears (phase : EcuPhase) (pre : List UInt8) (e : ε) : Prop
  /-- It has read what is sent in a state of the exchange, and has not answered yet. -/
  Owes (state : CommStateKind) (e : ε) : Prop
  /-- What it answers with. -/
  Response (state : CommStateKind) (f : HobdFrame) : Prop
  isResponse : ∀ {state f w}, Response state f → state.awaits = some w →
    IsResponse w.subtype f.bytes

namespace Partner

variable {ε : Type} (P : Partner ε)

/-- It waits for what is sent in a state. -/
def Rests (state : CommStateKind) : ε → Prop := P.Hears state.phase []

/-- It has read the first bytes of a message, and the others are on their way with what is behind
them. -/
def HearsPart (phase : EcuPhase) (f : HobdFrame) (after : List UInt8) (e : ε)
    (bytes : List UInt8) : Prop :=
  ∃ pre rest, f.bytes = pre ++ rest ∧ rest ≠ [] ∧ bytes = rest ++ after ∧ P.Hears phase pre e

/-- It has some bytes left to read of what is sent in a state. -/
def Reading : CommStateKind → ε → List UInt8 → Prop
  | .gpioInit, _, _ => False
  | .sendEcuInit, e, bytes => P.HearsPart .asleep wakeUpFrame initQuery e bytes ∨
      P.HearsPart .awake initFrame [] e bytes
  | state, e, bytes => ∃ f : HobdFrame, Queries state f.bytes ∧ P.HearsPart .listening f [] e bytes

variable {P} {state : CommStateKind} {e : ε} {bytes : List UInt8}

/-- What is sent is read from its first byte on. -/
theorem Rests.ask (h : P.Rests state e) (hstate : state ≠ .gpioInit) (hq : Queries state bytes) :
    P.Reading state e bytes := by
  cases state with
  | gpioInit => exact absurd rfl hstate
  | sendEcuInit => exact Or.inl ⟨[], wakeUpFrame.bytes, rfl, wakeUpFrame.ne_nil, hq, h⟩
  | sendReq0 | sendReq1 =>
    obtain ⟨stale, c, rfl, hsum⟩ := id hq
    obtain ⟨f, hf⟩ := exists_tableFrame hsum
    refine ⟨f, hf ▸ hq, [], f.bytes, rfl, f.ne_nil, ?_, h⟩
    rw [List.append_nil, hf]

theorem Reading.ne_nil (h : P.Reading state e bytes) : bytes ≠ [] := by
  have hpart : ∀ {phase f after}, P.HearsPart phase f after e bytes → bytes ≠ [] := by
    rintro _ _ _ ⟨pre, rest, -, hrest, rfl, -⟩ hc
    exact hrest (List.append_eq_nil_iff.mp hc).1
  cases state with
  | gpioInit => exact h.elim
  | sendEcuInit => exact h.elim hpart hpart
  | sendReq0 | sendReq1 =>
    obtain ⟨f, -, h⟩ := h
    exact hpart h

/-- The next byte of a message, which is the last one or not. -/
theorem HearsPart.cons {phase : EcuPhase} {f : HobdFrame} {after : List UInt8} {b : UInt8}
    (h : P.HearsPart phase f after e (b :: bytes)) :
    ∃ pre rest, f.bytes = pre ++ b :: rest ∧ bytes = rest ++ after ∧ P.Hears phase pre e := by
  obtain ⟨pre, rest, hsplit, hrest, hbytes, he⟩ := h
  obtain ⟨b', rest, rfl⟩ := List.exists_cons_of_ne_nil hrest
  obtain ⟨rfl, rfl⟩ : b = b' ∧ bytes = rest ++ after := by simpa using hbytes
  exact ⟨pre, rest, hsplit, rfl, he⟩

/-- The byte is read, and there is more of the message. -/
theorem HearsPart.of_next {phase : EcuPhase} {f : HobdFrame} {pre rest after : List UInt8}
    {b : UInt8} (hsplit : f.bytes = pre ++ b :: rest) (hrest : rest ≠ [])
    (he : P.Hears phase (pre ++ [b]) e) : P.HearsPart phase f after e (rest ++ after) := by
  refine ⟨pre ++ [b], rest, ?_, hrest, rfl, he⟩
  rw [hsplit, List.append_assoc]
  rfl

end Partner

/-- A thread that takes part in the exchange, with buffers that are large enough for what it sends
and what it is sent. -/
structure TakesPart (s : CommThread) : Prop where
  enabled : s.comm.enabled ≠ 0
  listenOnly : s.comm.listenOnly = 0
  tx : 8 ≤ s.txBuffer.length
  rx : 251 ≤ s.parser.rxBuffer.length

/-- **The exchange goes in turns.** There are four situations, and in each of them at most one of
the two links has bytes on it, which belong to one message. -/
inductive InTurn {ε : Type} (P : Partner ε) (k : KLine ε) : Prop
  /-- The thread does not wait, and nothing is on its way. -/
  | idle (point : k.thread.point = .top ∨ k.thread.point = .recv false) (toEcu : k.toEcu = [])
    (toComm : k.toComm = []) (boundary : InSession k.thread → k.thread.parser.state = .getType)
    (rests : P.Rests k.thread.comm.state k.ecu)
  /-- The ECU reads a query. -/
  | asking (w : RespWait) (point : k.thread.point = .wait w)
    (awaits : k.thread.comm.state.awaits = some w) (boundary : k.thread.parser.state = .getType)
    (toComm : k.toComm = []) (reading : P.Reading k.thread.comm.state k.ecu k.toEcu)
  /-- The ECU has read a query. -/
  | owing (w : RespWait) (point : k.thread.point = .wait w)
    (awaits : k.thread.comm.state.awaits = some w) (boundary : k.thread.parser.state = .getType)
    (toComm : k.toComm = []) (toEcu : k.toEcu = []) (owes : P.Owes k.thread.comm.state k.ecu)
  /-- The thread reads the response, and has the bytes `pre` of it. -/
  | answering (w : RespWait) (point : k.thread.point = .wait w)
    (awaits : k.thread.comm.state.awaits = some w) (f : HobdFrame)
    (response : P.Response k.thread.comm.state f) (pre : List UInt8)
    (split : f.bytes = pre ++ k.toComm) (left : k.toComm ≠ []) (reads : Reads pre k.thread.parser)
    (toEcu : k.toEcu = []) (rests : P.Rests k.thread.comm.state.next k.ecu)

section Turns

variable {ε : Type} {P : Partner ε} {k k' : KLine ε} {r : CommResults} {arrived : Bool}

theorem isResponse_iff_of_frame {f : HobdFrame} {buffer : List UInt8} (h : Holds buffer f.bytes)
    (hlen : 251 ≤ buffer.length) (subtype : UInt8) :
    IsResponse subtype buffer ↔ IsResponse subtype f.bytes := by
  have hfour := f.four_le
  have htype : headerType buffer = headerType f.bytes := h.getD_eq hlen (by omega)
  have hsubtype : headerSubtype buffer = headerSubtype f.bytes := h.getD_eq hlen (by omega)
  rw [IsResponse, IsResponse, htype, hsubtype]

theorem msgIn_of_frame {f : HobdFrame} {buffer : List UInt8} (h : Holds buffer f.bytes)
    (hlen : 251 ≤ buffer.length) : msgIn buffer = f.bytes := by
  have hfour := f.four_le
  have hle := f.length_le
  have hsize : headerSize buffer = headerSize f.bytes := h.getD_eq hlen (by omega)
  rw [msgIn, hsize, f.size_eq, h.take_eq (by omega)]

/-- A move of the thread, in terms of what it does on its own. -/
theorem commMove_eq_some (h : (commMove r arrived k).result = some k') :
    ∃ s', (commStep (.run { r with getchar := uartChar (k.atUart arrived) }) k.thread).result =
        some s' ∧
      k' = { k with
        thread := s'
        toEcu := k.toEcu ++ sentBy (commMove r arrived k).trace
        toComm := k.toComm.drop (k.atUart arrived).toList.length } := by
  obtain ⟨s', hs', heq⟩ := Option.map_eq_some_iff.mp h
  exact ⟨s', hs', heq.symm⟩

/-- The move is one of the table, with the byte that has arrived. -/
theorem commMove_moves (h : (commMove r arrived k).result = some k') :
    ∃ t s', (commMove r arrived k).trace = t ∧
      CommMoves { r with getchar := uartChar (k.atUart arrived) } k.thread t (some s') ∧
      k' = { k with
        thread := s', toEcu := k.toEcu ++ sentBy t
        toComm := k.toComm.drop (k.atUart arrived).toList.length } := by
  obtain ⟨s', hs', heq⟩ := commMove_eq_some h
  exact ⟨_, s', rfl, commMoves_of_result hs', heq⟩

theorem atUart_nil (h : k.toComm = []) : k.atUart arrived = none := by
  rw [KLine.atUart, h]
  split_ifs <;> rfl

/-- The turns are kept, the exchange stays in its state or goes on to the next one, and a wait
begins with the flag of the timer cleared. -/
structure Moved (P : Partner ε) (k k' : KLine ε) : Prop where
  takesPart : TakesPart k'.thread
  inTurn : InTurn P k'
  advances : k'.thread.comm.state = k.thread.comm.state ∨
    k'.thread.comm.state = k.thread.comm.state.next
  flag : ∀ w, k'.thread.point = .wait w → k'.thread.comm.timeoutSignaled = 0 ∨
    k.thread.point = .wait w ∧
      k'.thread.comm.timeoutSignaled = k.thread.comm.timeoutSignaled

/-- The timer ends a wait, and the exchange falls back to the state that is meant for it. -/
def GivesUp (k k' : KLine ε) : Prop :=
  ∃ w, k.thread.point = .wait w ∧ k.thread.comm.state.awaits = some w ∧
    k.thread.comm.timeoutSignaled ≠ 0 ∧ k'.thread.comm.state = w.notFound

/-- A request sets the mode. -/
def StartsOver (r : CommResults) (arrived : Bool) (k k' : KLine ε) : Prop :=
  (∃ a ∈ (commMove r arrived k).trace, a.setsMode = true) ∧ k'.thread.comm.state = .gpioInit

/-- **From the head of the loop**, with nothing on its way. It is the turn of the thread, and it
passes to the ECU if something is sent. -/
theorem moved_top (hs : TakesPart k.thread) (hpoint : k.thread.point = .top)
    (htoEcu : k.toEcu = []) (htoComm : k.toComm = [])
    (hboundary : InSession k.thread → k.thread.parser.state = .getType)
    (hrests : P.Rests k.thread.comm.state k.ecu) (h : (commMove r arrived k).result = some k') :
    Moved P k k' := by
  obtain ⟨t, s', -, hmoves, rfl⟩ := commMove_moves h
  cases hmoves with
  | disabled _ hen => exact absurd hen hs.enabled
  | listens _ _ hlisten => exact absurd hs.listenOnly hlisten
  | pulses _ hactive hgpio =>
    refine ⟨⟨hs.enabled, hs.listenOnly, hs.tx, hs.rx⟩, .idle (Or.inr rfl) ?_ ?_ ?_ ?_, ?_, ?_⟩
    · rw [htoEcu]
      rfl
    · rw [htoComm, List.drop_nil]
    · exact fun hc => absurd hc (not_inSession_of_sendEcuInit rfl)
    · rw [hgpio] at hrests
      exact hrests
    · exact Or.inr (by rw [hgpio]; rfl)
    · exact fun w hw => absurd hw (by simp)
  | asks w _ hactive hawaits =>
    have hgpio : k.thread.comm.state ≠ .gpioInit := by
      intro hc
      rw [hc] at hawaits
      exact absurd hawaits (by simp [CommStateKind.awaits])
    have hrx : k.thread.queried.parser.rxBuffer.length = k.thread.parser.rxBuffer.length := by
      rw [CommThread.queried]
      split_ifs <;> rfl
    have htx := length_queryTx hs.tx k.thread.comm.state
    refine ⟨⟨hs.enabled, hs.listenOnly, htx ▸ hs.tx, hrx ▸ hs.rx⟩,
      .asking w rfl hawaits ?_ ?_ ?_, Or.inl rfl, fun w' _ => Or.inl rfl⟩
    · dsimp only
      rw [CommThread.queried]
      split_ifs with hinit
      · rfl
      · exact hboundary (inSession_of_awaits hawaits hinit)
    · rw [htoComm, List.drop_nil]
    · rw [htoEcu]
      exact hrests.ask hgpio (queries_sentBy _ hs.tx _)
  | _ => simp_all

/-- **At the end of a round**, with nothing on its way. Only here can a request come in, and so
only here can the exchange be started over from outside. -/
theorem moved_recv (hs : TakesPart k.thread) (hpoint : k.thread.point = .recv false)
    (htoEcu : k.toEcu = []) (htoComm : k.toComm = [])
    (hboundary : InSession k.thread → k.thread.parser.state = .getType)
    (hrests : P.Rests k.thread.comm.state k.ecu) (h : (commMove r arrived k).result = some k') :
    Moved P k k' ∨ StartsOver r arrived k k' := by
  -- a round that ends without a change of the mode
  have hends : ∀ stats : HobdStats, Moved P k { k with
      thread := { k.thread with stats := stats, point := .top }, toEcu := k.toEcu ++ []
      toComm := k.toComm.drop (k.atUart arrived).toList.length } := by
    intro stats
    refine ⟨⟨hs.enabled, hs.listenOnly, hs.tx, hs.rx⟩, .idle (Or.inl rfl) ?_ ?_ hboundary hrests,
      Or.inl rfl, by simp⟩
    · rw [htoEcu]
      rfl
    · rw [htoComm, List.drop_nil]
  obtain ⟨t, s', ht, hmoves, rfl⟩ := commMove_moves h
  cases hmoves with
  | blocked hpoint' => exact absurd (hpoint.symm.trans hpoint') (by simp)
  | polled => exact Or.inl (hends k.thread.stats)
  | answered blocking m q hpoint' hm hlabelled hq =>
    cases hset : q.setsMode with
    | true =>
      obtain ⟨enabled, listenOnly, heq⟩ := perform_of_setsMode hset _ k.thread
      refine Or.inr ⟨⟨.request m.label m.ipc.getMR0, ?_, (setsMode_request hq).trans hset⟩, ?_⟩
      · rw [ht]
        exact List.mem_cons_self
      · dsimp only
        rw [heq]
        rfl
    | false =>
      obtain ⟨stats, heq, -⟩ := perform_of_not_setsMode hset _ k.thread
      rw [heq]
      exact Or.inl (hends stats)
  | _ => simp_all

/-- A move in the wait, in terms of what `comm_wait_for_resp` does with the byte. -/
theorem wait_cases (hs : TakesPart k.thread) {w : RespWait} (hpoint : k.thread.point = .wait w)
    (hawaits : k.thread.comm.state.awaits = some w) {parser : HobdParser} {found : Bool}
    (hpoll : pollUart (uartChar (k.atUart arrived)) k.thread.parser = (found, parser))
    (hlen : parser.rxBuffer.length = k.thread.parser.rxBuffer.length)
    (h : (commMove r arrived k).result = some k') :
    TakesPart k'.thread ∧ k'.ecu = k.ecu ∧ k'.thread.parser = parser ∧ k'.toEcu = k.toEcu ∧
      k'.toComm = k.toComm.drop (k.atUart arrived).toList.length ∧
      (found = true ∧ IsResponse w.subtype parser.rxBuffer ∧ k'.thread.comm.state = w.found ∧
          k'.thread.point = .recv false ∨
        found = true ∧ ¬IsResponse w.subtype parser.rxBuffer ∨
        found = false ∧ GivesUp k k' ∨
        found = false ∧ k'.thread.comm = k.thread.comm ∧ k'.thread.point = k.thread.point) := by
  obtain ⟨hfound', hparser'⟩ := Prod.mk.inj hpoll
  have htakes : TakesPart { k.thread with
      parser := (pollUart (uartChar (k.atUart arrived)) k.thread.parser).2 } :=
    ⟨hs.enabled, hs.listenOnly, hs.tx, by
      change 251 ≤ (pollUart _ _).2.rxBuffer.length
      rw [hpoll, hlen]
      exact hs.rx⟩
  subst hfound' hparser'
  obtain ⟨t, s', -, hmoves, rfl⟩ := commMove_moves h
  rcases hmoves.of_wait hpoint with ⟨hfound, hresp, rfl, ho⟩ | ⟨hfound, hresp, rfl, ho⟩ |
      ⟨hfound, hflag, rfl, ho⟩ | ⟨hfound, hflag, rfl, ho⟩ <;> obtain rfl := Option.some.inj ho
  · exact ⟨⟨htakes.enabled, htakes.listenOnly, htakes.tx, htakes.rx⟩, rfl, rfl, List.append_nil _,
      rfl, Or.inl ⟨hfound, hresp, rfl, rfl⟩⟩
  · exact ⟨⟨htakes.enabled, htakes.listenOnly, htakes.tx, htakes.rx⟩, rfl, rfl, List.append_nil _,
      rfl, Or.inr (Or.inl ⟨hfound, hresp⟩)⟩
  · exact ⟨⟨htakes.enabled, htakes.listenOnly, htakes.tx, htakes.rx⟩, rfl, rfl, List.append_nil _,
      rfl, Or.inr (Or.inr (Or.inl ⟨hfound, w, hpoint, hawaits, hflag, rfl⟩))⟩
  · exact ⟨⟨htakes.enabled, htakes.listenOnly, htakes.tx, htakes.rx⟩, rfl, rfl, List.append_nil _,
      rfl, Or.inr (Or.inr (Or.inr ⟨hfound, rfl, rfl⟩))⟩

/-- While something is on its way to the ECU, the ECU reads what was sent. -/
theorem InTurn.asked (hk : InTurn P k) {b : UInt8} {bytes : List UInt8}
    (htoEcu : k.toEcu = b :: bytes) :
    ∃ w, k.thread.point = .wait w ∧ k.thread.comm.state.awaits = some w ∧
      k.thread.parser.state = .getType ∧ k.toComm = [] ∧
      P.Reading k.thread.comm.state k.ecu (b :: bytes) := by
  cases hk with
  | idle _ hc => exact absurd (hc.symm.trans htoEcu) (by simp)
  | owing _ _ _ _ _ hc => exact absurd (hc.symm.trans htoEcu) (by simp)
  | answering _ _ _ _ _ _ _ _ _ hc => exact absurd (hc.symm.trans htoEcu) (by simp)
  | asking w hpoint hawaits hboundary htoComm hreading =>
    exact ⟨w, hpoint, hawaits, hboundary, htoComm, htoEcu ▸ hreading⟩

/-- The turns depend on what is on its way, the ECU, the parser and where the thread is. -/
theorem InTurn.congr (hk : InTurn P k) (hecu : k'.ecu = k.ecu) (htoEcu : k'.toEcu = k.toEcu)
    (htoComm : k'.toComm = k.toComm) (hparser : k'.thread.parser = k.thread.parser)
    (hstate : k'.thread.comm.state = k.thread.comm.state)
    (hpoint : k'.thread.point = k.thread.point) : InTurn P k' := by
  cases hk with
  | idle hat hout hin hboundary hrests =>
    refine .idle (hpoint ▸ hat) (htoEcu.trans hout) (htoComm.trans hin) ?_ (by rwa [hstate, hecu])
    rw [InSession, hstate, hparser]
    exact hboundary
  | asking w hat hawaits hboundary hin hreading =>
    exact .asking w (hpoint.trans hat) (by rwa [hstate]) (by rwa [hparser]) (htoComm.trans hin)
      (by rwa [hstate, hecu, htoEcu])
  | owing w hat hawaits hboundary hin hout howes =>
    exact .owing w (hpoint.trans hat) (by rwa [hstate]) (by rwa [hparser]) (htoComm.trans hin)
      (htoEcu.trans hout) (by rwa [hstate, hecu])
  | answering w hat hawaits f hresponse pre hsplit hleft hreads hout hrests =>
    exact .answering w (hpoint.trans hat) (by rwa [hstate]) f (by rwa [hstate]) pre
      (by rwa [htoComm]) (by rwa [htoComm]) (by rwa [hparser]) (htoEcu.trans hout)
      (by rwa [hstate, hecu])

/-- A move in the wait that reads nothing. -/
theorem InTurn.wait_silent (hk : InTurn P k) (hs : TakesPart k.thread) {w : RespWait}
    (hpoint : k.thread.point = .wait w) (hawaits : k.thread.comm.state.awaits = some w)
    (huart : k.atUart arrived = none) (h : (commMove r arrived k).result = some k') :
    Moved P k k' ∨ GivesUp k k' := by
  have hpoll : pollUart (uartChar (k.atUart arrived)) k.thread.parser =
      (false, k.thread.parser) := by rw [huart, pollUart_none]
  obtain ⟨hs', hecu, hparser, htoEcu, htoComm, hcases⟩ :=
    wait_cases hs hpoint hawaits hpoll rfl h
  rw [huart] at htoComm
  rcases hcases with ⟨hc, -⟩ | ⟨hc, -⟩ | ⟨-, hgives⟩ | ⟨-, hcomm, hsame⟩
  · exact absurd hc nofun
  · exact absurd hc nofun
  · exact Or.inr hgives
  · exact Or.inl ⟨hs', hk.congr hecu htoEcu htoComm hparser (by rw [hcomm]) hsame,
      Or.inl (by rw [hcomm]), fun w' hw' => Or.inr ⟨hsame.symm.trans hw', by rw [hcomm]⟩⟩

/-- A move in the wait that reads a byte of the response. -/
theorem wait_read (hs : TakesPart k.thread) {w : RespWait} (hpoint : k.thread.point = .wait w)
    (hawaits : k.thread.comm.state.awaits = some w) {f : HobdFrame}
    (hresponse : P.Response k.thread.comm.state f) {pre rest : List UInt8} {b : UInt8}
    (hsplit : f.bytes = pre ++ b :: rest) (htoComm : k.toComm = b :: rest)
    (hreads : Reads pre k.thread.parser) (htoEcu : k.toEcu = [])
    (hrests : P.Rests k.thread.comm.state.next k.ecu) (huart : k.atUart arrived = some b)
    (h : (commMove r arrived k).result = some k') : Moved P k k' ∨ GivesUp k k' := by
  have hrx := hs.rx
  have hpoll := pollUart_some b k.thread.parser
  rw [← huart] at hpoll
  by_cases hrest : rest = []
  · -- the byte is the last one, and the message is the response
    subst hrest
    obtain ⟨hcode, hboundary, hholds, hlen⟩ := f.parse_last hsplit hreads
    rw [hcode, decide_eq_true rfl] at hpoll
    obtain ⟨hs', hecu, hparser, htoEcu', htoComm', hcases⟩ :=
      wait_cases hs hpoint hawaits hpoll hlen h
    have hresp := (isResponse_iff_of_frame hholds (by omega) w.subtype).mpr
      (P.isResponse hresponse hawaits)
    rw [huart, htoComm] at htoComm'
    refine Or.inl ?_
    rcases hcases with ⟨-, -, hstate, hrecv⟩ | ⟨-, hc⟩ | ⟨hc, -⟩ | ⟨hc, -⟩
    · rw [found_of_awaits hawaits] at hstate
      refine ⟨hs', .idle (Or.inr hrecv) (htoEcu'.trans htoEcu) htoComm' (fun _ => ?_) ?_,
        Or.inr hstate, fun w' hw' => absurd (hrecv.symm.trans hw') nofun⟩
      · rw [hparser, hboundary]
      · rwa [hstate, hecu]
    · exact absurd hresp hc
    · exact absurd hc nofun
    · exact absurd hc nofun
  · obtain ⟨hcode, hreads', hlen⟩ := f.parse_next hsplit hrest hreads
    rw [decide_eq_false hcode] at hpoll
    obtain ⟨hs', hecu, hparser, htoEcu', htoComm', hcases⟩ :=
      wait_cases hs hpoint hawaits hpoll hlen h
    rw [huart, htoComm] at htoComm'
    replace htoComm' : k'.toComm = rest := htoComm'
    rcases hcases with ⟨hc, -⟩ | ⟨hc, -⟩ | ⟨-, hgives⟩ | ⟨-, hcomm, hsame⟩
    · exact absurd hc nofun
    · exact absurd hc nofun
    · exact Or.inr hgives
    · refine Or.inl ⟨hs', .answering w (hsame.trans hpoint) ?_ f ?_ (pre ++ [b]) ?_ ?_ ?_
        (htoEcu'.trans htoEcu) ?_, Or.inl (by rw [hcomm]),
        fun w' hw' => Or.inr ⟨hsame.symm.trans hw', by rw [hcomm]⟩⟩
      · rwa [hcomm]
      · rwa [hcomm]
      · rw [hsplit, htoComm', List.append_assoc]
        rfl
      · rwa [htoComm']
      · rwa [hparser]
      · rwa [hcomm, hecu]

/-- A byte the thread reads is the first one on its way. -/
theorem atUart_eq_some {b : UInt8} (h : k.atUart arrived = some b) :
    ∃ rest, k.toComm = b :: rest := by
  rw [KLine.atUart] at h
  split_ifs at h
  exact List.head?_eq_some_iff.mp h

/-- **A move of the thread keeps the turns**, unless the timer ends a wait or a request sets the
mode. -/
theorem InTurn.commMove (hk : InTurn P k) (hs : TakesPart k.thread)
    (h : (commMove r arrived k).result = some k') :
    Moved P k k' ∨ GivesUp k k' ∨ StartsOver r arrived k k' := by
  cases hk with
  | idle hpoint htoEcu htoComm hboundary hrests =>
    rcases hpoint with hpoint | hpoint
    · exact Or.inl (moved_top hs hpoint htoEcu htoComm hboundary hrests h)
    · exact (moved_recv hs hpoint htoEcu htoComm hboundary hrests h).imp_right Or.inr
  | asking w hpoint hawaits hboundary htoComm hreading =>
    exact ((InTurn.asking w hpoint hawaits hboundary htoComm hreading).wait_silent hs hpoint hawaits
      (atUart_nil htoComm) h).imp_right Or.inl
  | owing w hpoint hawaits hboundary htoComm htoEcu howes =>
    exact ((InTurn.owing w hpoint hawaits hboundary htoComm htoEcu howes).wait_silent hs hpoint
      hawaits (atUart_nil htoComm) h).imp_right Or.inl
  | answering w hpoint hawaits f hresponse pre hsplit hleft hreads htoEcu hrests =>
    cases huart : k.atUart arrived with
    | none =>
      exact ((InTurn.answering w hpoint hawaits f hresponse pre hsplit hleft hreads htoEcu
        hrests).wait_silent hs hpoint hawaits huart h).imp_right Or.inl
    | some b =>
      obtain ⟨rest, htoComm⟩ := atUart_eq_some huart
      exact (wait_read hs hpoint hawaits hresponse (htoComm ▸ hsplit) htoComm hreads htoEcu hrests
        huart h).imp_right Or.inl

/-- **What a move of the thread logs as received is a response to what it has asked for.** -/
theorem InTurn.heard (hk : InTurn P k) (hs : TakesPart k.thread) :
    ∀ a ∈ (HobdSystem.commMove r arrived k).trace, ∀ msg ∈ a.heard?,
      ∃ f, P.Response k.thread.comm.state f ∧ msg = f.bytes := by
  intro a ha msg hmsg
  -- a message is logged that was read in a wait
  obtain ⟨t, o, hmoves, ha⟩ := exists_commMoves_of_mem ha
  obtain ⟨hfound, heq, hpolls⟩ := hmoves.heard_eq ha hmsg
  have hnothing : k.atUart arrived ≠ none := by
    intro huart
    rw [huart, pollUart_none] at hfound
    exact absurd hfound (by simp)
  cases hk with
  | idle hpoint => rcases hpoint with hpoint | hpoint <;> simp [hpoint] at hpolls
  | asking w hpoint _ _ htoComm => exact absurd (atUart_nil htoComm) hnothing
  | owing w hpoint _ _ htoComm => exact absurd (atUart_nil htoComm) hnothing
  | answering w hpoint hawaits f hresponse pre hsplit hleft hreads htoEcu hrests =>
    obtain ⟨b, huart⟩ := Option.ne_none_iff_exists'.mp hnothing
    obtain ⟨rest, htoComm⟩ := atUart_eq_some huart
    rw [htoComm] at hsplit
    rw [huart, pollUart_some] at hfound heq
    have hrx := hs.rx
    by_cases hrest : rest = []
    · subst hrest
      obtain ⟨-, -, hholds, hlen⟩ := f.parse_last hsplit hreads
      exact ⟨f, hresponse, heq.trans (msgIn_of_frame hholds (by dsimp only; omega))⟩
    · obtain ⟨hcode, -⟩ := f.parse_next hsplit hrest hreads
      exact absurd (of_decide_eq_true hfound) hcode

end Turns

end HobdSystem
