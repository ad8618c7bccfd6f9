import HobdSystem.Ecu.Emulator
import HobdSystem.Hobd.Bounds
import Mathlib.Data.List.Forall2
import Mathlib.Data.List.ReduceOption

/-!
# What the emulator answers

The emulator is to answer the queries of a session, each with one response, and nothing else. To
say that, one has to say what a session is in a stream of bytes, and this is done here from the
outside, without the states of the emulator: the messages are those that a deframer finds, and the
queries of the session are the one that opens it, behind a wake-up message, and the ones that
follow (`HobdSystem.sessionQueries`).

A query may be too short for its three fields. The emulator then reads what is behind it in the
receive buffer, so a message is here the whole buffer at the time the message is complete
(`HobdSystem.received`), and two queries with the same bytes may ask for different things.

The main results are

* `HobdSystem.received_frames`: **the messages received are the frames that the reference deframer
  delivers**, each at the start of its buffer. It is a result of its own about the emulator's copy
  of the parser, and no later one needs it: it says that `HobdSystem.received`, in terms of which
  the theorem below speaks of the queries, is what a reader of the stream would call the messages
  of it;
* `HobdSystem.ecuRun_answers_iff`: **the responses are the right ones, one for each of the queries
  of the session and in their order, exactly if no query asks for more than 249 bytes of a
  table**. A response to such a query would be longer than the size byte can say.

The second is proved by induction over the stream, from its end: a message is put in front of what
is already known to be answered as it should be (`HobdSystem.onMessage_answers`). A run in which
an assertion fails is left out, since there the emulator has turned a query down.
-/

namespace HobdSystem

open Bytes Framing Run Traced

/-! ### The messages of a stream -/

/-- The messages that the bytes of a stream complete, each with what is behind it in the receive
buffer. The bytes `pre` of a frame have been read before. -/
def received (buffer pre : List UInt8) : List UInt8 → List (List UInt8)
  | [] => []
  | b :: l =>
    match (collect hobdFormat b pre).1 with
    | .delivered _ => buffer.set pre.length b ::
        received (buffer.set pre.length b) (collect hobdFormat b pre).2 l
    | _ => received (buffer.set pre.length b) (collect hobdFormat b pre).2 l

theorem received_delivered {buffer pre f : List UInt8} {b : UInt8}
    (h : (collect hobdFormat b pre).1 = .delivered f) (l : List UInt8) :
    received buffer pre (b :: l) = buffer.set pre.length b ::
      received (buffer.set pre.length b) (collect hobdFormat b pre).2 l := by
  rw [received, h]

theorem received_pending {buffer pre : List UInt8} {b : UInt8}
    (h : verdictCode (collect hobdFormat b pre).1 ≠ .none) (l : List UInt8) :
    received buffer pre (b :: l) =
      received (buffer.set pre.length b) (collect hobdFormat b pre).2 l := by
  rw [received]
  split
  next f hf => exact absurd (verdictCode_eq_none.mpr ⟨f, hf⟩) h
  next => rfl

/-- **The messages received are the frames that the reference deframer delivers**, one for one and
in their order, each at the start of its buffer. What is behind it there may be anything. -/
theorem received_frames (l : List UInt8) : ∀ {buffer pre : List UInt8}, Holds buffer pre →
    Open hobdFormat pre → 251 ≤ buffer.length →
    List.Forall₂ (fun msg f => msg.take f.length = f) (received buffer pre l)
      ((answers (collect hobdFormat) pre l).filterMap Verdict.frame?) := by
  induction l with
  | nil => exact fun _ _ _ => List.Forall₂.nil
  | cons b l ih =>
    intro buffer pre hholds hopen hlen
    have hstored := hholds.snoc b
    have hlen' : 251 ≤ (buffer.set pre.length b).length := by rwa [List.length_set]
    have hnext : Holds (buffer.set pre.length b) (collect hobdFormat b pre).2 := by
      rcases collect_next hobdFormat b pre with heq | heq
      · rw [heq]
        exact hstored
      · rw [heq]
        exact holds_nil _
    have hrest := ih hnext (hopen.collect b) hlen'
    rw [answers_cons]
    by_cases hcode : verdictCode (collect hobdFormat b pre).1 = .none
    · obtain ⟨f, hf⟩ := verdictCode_eq_none.mp hcode
      obtain ⟨rfl, hcomplete, -⟩ := collect_delivered hopen hf
      have hsome : (collect hobdFormat b pre).1.frame? = some (pre ++ [b]) := by rw [hf]; rfl
      rw [received_delivered hf, List.filterMap_cons_some hsome]
      exact List.Forall₂.cons (hstored.take_eq (hcomplete.length_le.trans hlen')) hrest
    · have hnone : (collect hobdFormat b pre).1.frame? = none := by
        cases hv : (collect hobdFormat b pre).1 with
        | delivered f => exact absurd (verdictCode_eq_none.mpr ⟨f, hv⟩) hcode
        | _ => rfl
      rw [received_pending hcode, List.filterMap_cons_none hnone]
      exact hrest

/-! ### The queries of a session -/

/-- A query that is to be answered: one that opens a session, also if one is open already, or one
for a part of a table. -/
def IsQuery (msg : List UInt8) : Prop :=
  headerType msg = hobdMsgTypeQuery ∧
    (headerSubtype msg = hobdMsgSubtypeInit ∨ headerSubtype msg = hobdMsgSubtypeTableSubgroup)

instance (msg : List UInt8) : Decidable (IsQuery msg) := inferInstanceAs (Decidable (_ ∧ (_ ∨ _)))

/-- The messages behind the first wake-up message. -/
def afterWakeUp (msgs : List (List UInt8)) : List (List UInt8) :=
  (msgs.dropWhile fun msg => !decide (IsWakeUp msg)).drop 1

/-- The first query that opens a session, and the messages behind it. -/
def fromOpening (msgs : List (List UInt8)) : List (List UInt8) :=
  msgs.dropWhile fun msg => !decide (OpensSession msg)

/-- **The queries of a session**: behind a wake-up message, the query that opens the session and
every query behind it. -/
def sessionQueries (msgs : List (List UInt8)) : List (List UInt8) :=
  (fromOpening (afterWakeUp msgs)).filter fun msg => decide (IsQuery msg)

/-- The queries that are still to be answered in a state. -/
def queriesFrom : EcuStateKind → List (List UInt8) → List (List UInt8)
  | .wait4Wakeup, msgs => sessionQueries msgs
  | .wait4DiagInit, msgs => (fromOpening msgs).filter fun msg => decide (IsQuery msg)
  | .activeListen, msgs => msgs.filter fun msg => decide (IsQuery msg)

/-- **What a query is to be answered with**: an INIT query with the INIT response, and a query for
a part of a table with a response that has a valid checksum, a size that counts it, the table and
the offset of the query, and the bytes of that page. -/
def Answers (pages : EcuPages) (msg r : List UInt8) : Prop :=
  (headerSubtype msg = hobdMsgSubtypeInit → r = initResponse) ∧
    (headerSubtype msg = hobdMsgSubtypeTableSubgroup →
      ∃ data c, queriedData pages msg = some data ∧ data.length = (queryCount msg).toNat ∧
        r = tableResponse (queryTable msg) (queryOffset msg) data c ∧
        (headerSize r).toNat = r.length ∧ byteSum r % 256 = 0)

/-- The frame an action sends. -/
def EcuAction.frame? : EcuAction → Option (List UInt8)
  | .send bytes => some bytes
  | _ => none

/-- The frames some actions send. -/
def sentFrames (t : List EcuAction) : List (List UInt8) := t.filterMap EcuAction.frame?

/-- A query for more bytes of a table than a response can have: with its header, the table, the
offset and the checksum it would have more than 255. -/
def TooLong (msg : List UInt8) : Prop :=
  headerSubtype msg = hobdMsgSubtypeTableSubgroup ∧ 249 < (queryCount msg).toNat

instance (msg : List UInt8) : Decidable (TooLong msg) := inferInstanceAs (Decidable (_ ∧ _))

/-! ### One query -/

section Query

variable {pages : EcuPages} {msg : List UInt8}

theorem length_tableResponse (table offset : UInt8) (data : List UInt8) (c : UInt8) :
    (tableResponse table offset data c).length = data.length + 6 := by
  simp [tableResponse]

/-- The response to the query that opens a session, as a frame. -/
def initResponseFrame : HobdFrame where
  bytes := initResponse
  type_mem := by decide
  subtype_mem := by decide
  size_eq := by decide
  four_le := by decide
  length_le := by decide
  sum_eq := by decide

/-- A table response, as a frame. -/
theorem exists_responseFrame {table offset c : UInt8} {data : List UInt8}
    (hlen : data.length ≤ 245) (hsum : byteSum (tableResponse table offset data c) % 256 = 0) :
    ∃ f : HobdFrame, f.bytes = tableResponse table offset data c := by
  have htype : ProtocolType 0x02 := by decide
  have hsubtype : ProtocolSubtype 0x72 := by decide
  have hlength := length_tableResponse table offset data c
  refine ⟨⟨tableResponse table offset data c, htype, hsubtype, ?_, by omega, by omega, hsum⟩, rfl⟩
  rw [hlength]
  change (UInt8.ofNat (data.length + 6)).toNat = _
  rw [UInt8.toNat_ofNat']
  omega

/-- No frame of at most 255 bytes is an answer to a query for more than 249. -/
theorem TooLong.not_answers (h : TooLong msg) {r : List UInt8} (hr : r.length ≤ 255) :
    ¬Answers pages msg r := by
  intro ha
  obtain ⟨data, c, -, hlen, rfl, -, -⟩ := ha.2 h.1
  rw [length_tableResponse, hlen] at hr
  have := h.2
  omega

/-- **A query that is handled without a failed assertion**: it is answered, or it asks for too
much and the program ends or sends something else. -/
theorem handleRxMessage_query (hquery : IsQuery msg) (ecu : Ecu)
    (hassert : EcuAction.assertFailed ∉ (handleRxMessage msg ecu).trace) :
    (¬TooLong msg ∧ ∃ r tx, handleRxMessage msg ecu =
        ⟨[.send r], some { ecu with txBuffer := tx }⟩ ∧ Answers ecu.pages msg r) ∨
      TooLong msg ∧ (handleRxMessage msg ecu = ⟨[.outOfBounds], none⟩ ∨
        ∃ r tx, handleRxMessage msg ecu = ⟨[.send r], some { ecu with txBuffer := tx }⟩ ∧
          ¬Answers ecu.pages msg r) := by
  obtain ⟨htype, hinit | htable⟩ := hquery
  · have hne : hobdMsgSubtypeInit ≠ hobdMsgSubtypeTableSubgroup := by decide
    obtain ⟨tx, htx⟩ := handleRxMessage_init ecu htype hinit
    exact Or.inl ⟨fun hc => hne (hinit.symm.trans hc.1), initResponse, tx, htx, fun _ => rfl,
      fun hc => absurd (hinit.symm.trans hc) hne⟩
  · have hne : hobdMsgSubtypeTableSubgroup ≠ hobdMsgSubtypeInit := by decide
    obtain ⟨-, hfail⟩ | ⟨data, hdata, hlen, ⟨hfew, tx, c, hsend, hsum⟩ | ⟨hmany, hbad⟩⟩ :=
      handleRxMessage_table ecu htype htable
    · rw [hfail] at hassert
      exact absurd (List.mem_singleton.mpr rfl) hassert
    · refine Or.inl ⟨fun hc => absurd hc.2 (by omega), _, tx, hsend, fun hc =>
        absurd (htable.symm.trans hc) hne, fun _ => ⟨data, c, hdata, hlen, rfl, ?_, hsum⟩⟩
      rw [length_tableResponse]
      change (UInt8.ofNat (data.length + 6)).toNat = _
      rw [UInt8.toNat_ofNat']
      omega
    · refine Or.inr ⟨⟨htable, hmany⟩, ?_⟩
      rcases hbad with hend | ⟨r, tx, hr, hsend⟩
      · exact Or.inl hend
      · exact Or.inr ⟨r, tx, hsend, TooLong.not_answers ⟨htable, hmany⟩ hr⟩

end Query

/-! ### One message -/

/-- A query that is not to be answered, without a failed assertion. -/
theorem handleRxMessage_other {msg : List UInt8} (hquery : ¬IsQuery msg) (ecu : Ecu)
    (hassert : EcuAction.assertFailed ∉ (handleRxMessage msg ecu).trace) :
    handleRxMessage msg ecu = pure ecu := by
  have hinit : ¬(headerType msg = hobdMsgTypeQuery ∧ headerSubtype msg = hobdMsgSubtypeInit) :=
    fun hc => hquery ⟨hc.1, Or.inl hc.2⟩
  by_cases htable : headerType msg = hobdMsgTypeQuery ∧
      (headerSubtype msg = hobdMsgSubtypeTableSubgroup ∨ headerSubtype msg = hobdMsgSubtypeTable)
  · have hsubtype : ¬headerSubtype msg = hobdMsgSubtypeTableSubgroup :=
      fun hc => hquery ⟨htable.1, Or.inr hc⟩
    rw [handleRxMessage, if_neg hinit, if_pos htable, decide_eq_false hsubtype,
      ecuAssert_false_bind] at hassert
    exact absurd (List.mem_singleton.mpr rfl) hassert
  · rw [handleRxMessage, if_neg hinit, if_neg htable]

section Message

variable {ecu : Ecu}

/-- What a message does to the state of the session, and to the queries that are left. -/
inductive Handled (ecu : Ecu) (rest : List (List UInt8)) : Prop
  /-- It is passed over. -/
  | passed (state : EcuStateKind) (parser : HobdParser)
    (eq : onMessage ecu = pure { ecu with state := state, rxParser := parser })
    (parser_eq : parser = ecu.rxParser ∨ parser = hobdParserReset ecu.rxParser)
    (left : queriesFrom ecu.state (ecu.rxParser.rxBuffer :: rest) = queriesFrom state rest)
  /-- It is a query of the session. -/
  | query (parser : HobdParser)
    (eq : onMessage ecu = handleRxMessage ecu.rxParser.rxBuffer
      { ecu with state := .activeListen, rxParser := parser })
    (isQuery : IsQuery ecu.rxParser.rxBuffer)
    (parser_eq : parser = ecu.rxParser ∨ parser = hobdParserReset ecu.rxParser)
    (left : queriesFrom ecu.state (ecu.rxParser.rxBuffer :: rest) =
      ecu.rxParser.rxBuffer :: queriesFrom .activeListen rest)

theorem onMessage_handled (rest : List (List UInt8))
    (hassert : EcuAction.assertFailed ∉ (onMessage ecu).trace) :
    Handled ecu rest := by
  cases hstate : ecu.state with
  | wait4Wakeup =>
    by_cases hwake : IsWakeUp ecu.rxParser.rxBuffer
    · refine .passed .wait4DiagInit (hobdParserReset ecu.rxParser) ?_ (Or.inr rfl) ?_
      · simp only [onMessage, hstate, if_pos hwake]
      · simp [queriesFrom, hstate, sessionQueries, afterWakeUp, hwake]
    · refine .passed ecu.state ecu.rxParser ?_ (Or.inl rfl) ?_
      · simp only [onMessage, hstate, if_neg hwake]
        rw [← hstate]
      · simp [queriesFrom, hstate, sessionQueries, afterWakeUp, hwake]
  | wait4DiagInit =>
    by_cases hopen : OpensSession ecu.rxParser.rxBuffer
    · have hquery : IsQuery ecu.rxParser.rxBuffer := ⟨hopen.1, Or.inl hopen.2.1⟩
      refine .query (hobdParserReset ecu.rxParser) ?_ hquery (Or.inr rfl) ?_
      · simp only [onMessage, hstate, if_pos hopen]
      · simp [queriesFrom, hstate, fromOpening, hopen, hquery]
    · refine .passed ecu.state ecu.rxParser ?_ (Or.inl rfl) ?_
      · simp only [onMessage, hstate, if_neg hopen]
        rw [← hstate]
      · simp [queriesFrom, hstate, fromOpening, hopen]
  | activeListen =>
    have hsame : { ecu with state := .activeListen } = ecu := by rw [← hstate]
    by_cases hquery : IsQuery ecu.rxParser.rxBuffer
    · refine .query ecu.rxParser ?_ hquery (Or.inl rfl) ?_
      · simp only [onMessage, hstate, if_pos hquery.1, hsame]
      · simp [queriesFrom, hstate, hquery]
    · refine .passed .activeListen ecu.rxParser ?_ (Or.inl rfl) ?_
      · simp only [onMessage, hstate] at hassert ⊢
        split_ifs at hassert ⊢ with htype
        · rw [handleRxMessage_other hquery ecu hassert, hsame]
        · rw [hsame]
      · simp [queriesFrom, hstate, hquery]

end Message

/-! ### Runs -/

/-- **A message, and what is behind it**: if the queries behind it are answered exactly if none of
them asks for too much, so it is with the message in front of them. -/
theorem onMessage_answers (ecu : Ecu) (hstate : ecu.rxParser.state = .getType)
    (is : List (Option UInt8)) (rest : List (List UInt8))
    (hassert : EcuAction.assertFailed ∉ (run ecuUpdate (onMessage ecu) is).trace)
    (ih : ∀ ecu' : Ecu, ecu'.rxParser.state = .getType →
      ecu'.rxParser.rxBuffer = ecu.rxParser.rxBuffer → ecu'.pages = ecu.pages →
      EcuAction.assertFailed ∉ (run ecuUpdate (pure ecu') is).trace →
      (List.Forall₂ (Answers ecu.pages) (queriesFrom ecu'.state rest)
          (sentFrames (run ecuUpdate (pure ecu') is).trace) ↔
        ∀ msg ∈ queriesFrom ecu'.state rest, ¬TooLong msg)) :
    List.Forall₂ (Answers ecu.pages) (queriesFrom ecu.state (ecu.rxParser.rxBuffer :: rest))
        (sentFrames (run ecuUpdate (onMessage ecu) is).trace) ↔
      ∀ msg ∈ queriesFrom ecu.state (ecu.rxParser.rxBuffer :: rest), ¬TooLong msg := by
  have hfirst : EcuAction.assertFailed ∉ (onMessage ecu).trace :=
    fun hc => hassert ((mem_trace_run_iff ecuUpdate is).mpr (Or.inl hc))
  -- the parser is at a boundary and has its buffer, whether it is reset or not
  have hparser : ∀ parser, parser = ecu.rxParser ∨ parser = hobdParserReset ecu.rxParser →
      parser.state = .getType ∧ parser.rxBuffer = ecu.rxParser.rxBuffer := by
    rintro _ (rfl | rfl)
    · exact ⟨hstate, rfl⟩
    · exact ⟨rfl, rfl⟩
  cases onMessage_handled rest hfirst with
  | passed state parser heq hor hleft =>
    obtain ⟨hp, hbuf⟩ := hparser parser hor
    rw [heq] at hassert ⊢
    rw [hleft]
    exact ih { ecu with state := state, rxParser := parser } hp hbuf rfl hassert
  | query parser heq hquery hor hleft =>
    obtain ⟨hp, hbuf⟩ := hparser parser hor
    rw [heq] at hassert hfirst ⊢
    rw [hleft]
    rcases handleRxMessage_query hquery _ hfirst with
      ⟨hshort, r, tx, hsend, hanswers⟩ | ⟨hlong, hend | ⟨r, tx, hsend, hanswers⟩⟩
    · rw [hsend, run_mk_some] at hassert ⊢
      have hrest := ih { ecu with state := .activeListen, rxParser := parser, txBuffer := tx } hp
        hbuf rfl fun hc => hassert (List.mem_append_right _ hc)
      change List.Forall₂ _ _ (r :: sentFrames _) ↔ _
      rw [List.forall₂_cons, List.forall_mem_cons]
      exact and_congr ⟨fun _ => hshort, fun _ => hanswers⟩ hrest
    · rw [hend, run_ended]
      change List.Forall₂ _ _ [] ↔ _
      rw [List.forall_mem_cons]
      exact ⟨nofun, fun hc => absurd hlong hc.1⟩
    · rw [hsend, run_mk_some]
      change List.Forall₂ _ _ (r :: sentFrames _) ↔ _
      rw [List.forall₂_cons, List.forall_mem_cons]
      exact ⟨fun hc => absurd hc.1 hanswers, fun hc => absurd hlong hc.1⟩

/-- **From any point of a run on**, the queries that are left are answered exactly if none of them
asks for too much. -/
theorem run_answers_iff (is : List (Option UInt8)) : ∀ (ecu : Ecu) {pre : List UInt8},
    Reads pre ecu.rxParser →
    EcuAction.assertFailed ∉ (run ecuUpdate (pure ecu) is).trace →
    (List.Forall₂ (Answers ecu.pages)
        (queriesFrom ecu.state (received ecu.rxParser.rxBuffer pre is.reduceOption))
        (sentFrames (run ecuUpdate (pure ecu) is).trace) ↔
      ∀ msg ∈ queriesFrom ecu.state (received ecu.rxParser.rxBuffer pre is.reduceOption),
        ¬TooLong msg) := by
  have hnil : ∀ state, queriesFrom state [] = [] := fun state => by cases state <;> rfl
  induction is with
  | nil =>
    intro ecu pre _ _
    rw [List.reduceOption_nil, received, hnil]
    exact ⟨fun _ => by simp, fun _ => List.Forall₂.nil⟩
  | cons i is ih =>
    intro ecu pre hreads hassert
    cases i with
    | none =>
      rw [run_cons, Traced.pure_bind, ecuUpdate_none] at hassert ⊢
      rw [List.reduceOption_cons_of_none]
      exact ih ecu hreads hassert
    | some b =>
      obtain ⟨hcode, hmoves⟩ := parseByte_reads hreads b
      have hbuffer := parseByte_rxBuffer b ecu.rxParser
      rw [hreads.storeIndex_eq] at hbuffer
      rw [run_cons, Traced.pure_bind] at hassert ⊢
      rw [List.reduceOption_cons_of_some]
      by_cases hmsg : (hobdParserParseByte b ecu.rxParser).1 = .none
      · -- a message is complete
        obtain ⟨f, hf⟩ := verdictCode_eq_none.mp (hcode.symm.trans hmsg)
        have hstate : (hobdParserParseByte b ecu.rxParser).2.state = .getType :=
          (parseByte_delivers hreads hmsg).2.2.2.1
        rw [ecuUpdate_msg ecu hmsg] at hassert ⊢
        rw [received_delivered hf, collect_delivered_next hf, ← hbuffer]
        exact onMessage_answers
          { ecu with rxParser := (hobdParserParseByte b ecu.rxParser).2 } hstate is _ hassert
          fun ecu' hp hbuf hpages hassert' => by
            have hrest := ih ecu' (reads_nil hp) hassert'
            rwa [hbuf, hpages] at hrest
      · rw [ecuUpdate_noMsg ecu hmsg] at hassert ⊢
        rw [received_pending (fun hc => hmsg (hcode.trans hc)), ← hbuffer]
        exact ih _ hmoves.reads hassert

theorem ecuRun_answers (pages : EcuPages) (is : List (Option UInt8))
    (hassert : EcuAction.assertFailed ∉ (ecuRun pages is).trace) :
    List.Forall₂ (Answers pages)
        (sessionQueries (received (List.replicate 259 0) [] is.reduceOption))
        (sentFrames (ecuRun pages is).trace) ↔
      ∀ msg ∈ sessionQueries (received (List.replicate 259 0) [] is.reduceOption),
        ¬TooLong msg :=
  run_answers_iff is (resetState ⟨.wait4Wakeup, ⟨.getType, 0, 0, 0, 0, 0,
    List.replicate 259 0, 259⟩, pages, Vector.replicate 259 0⟩) (reads_nil rfl) hassert

/-- **The emulator answers the queries of the session, one for one and in their order, exactly if
none of them asks for more than 249 bytes of a table.** Before the session is opened it sends
nothing. -/
theorem ecuRun_answers_iff (pages : EcuPages) (is : List (Option UInt8))
    (hassert : EcuAction.assertFailed ∉ (ecuRun pages is).trace) :
    List.Forall₂ (Answers pages)
        (sessionQueries (received (List.replicate 259 0) [] is.reduceOption))
        (sentFrames (ecuRun pages is).trace) ↔
      ∀ msg ∈ sessionQueries (received (List.replicate 259 0) [] is.reduceOption),
        headerSubtype msg = hobdMsgSubtypeTableSubgroup → (queryCount msg).toNat ≤ 249 := by
  refine (ecuRun_answers pages is hassert).trans (forall₂_congr fun msg _ => ?_)
  rw [TooLong, not_and, not_lt]

/-- A wake-up message, the query that opens a session, and a query for some bytes of table 10. -/
def sessionStream (count checksum : UInt8) : List (Option UInt8) :=
  [0xFE, 0x04, 0xFF, 0xFF, 0x72, 0x05, 0x00, 0xF0, 0x99, 0x72, 0x07, 0x72, 0x10, 0x00, count,
    checksum].map some

theorem ecuRun_answers_iff_six :
    EcuAction.assertFailed ∉ (ecuRun ecuNewPages (sessionStream 6 0xFF)).trace ∧
      (sentFrames (ecuRun ecuNewPages (sessionStream 6 0xFF)).trace).length = 2 ∧
      List.Forall₂ (Answers ecuNewPages)
        (sessionQueries (received (List.replicate 259 0) [] (sessionStream 6 0xFF).reduceOption))
        (sentFrames (ecuRun ecuNewPages (sessionStream 6 0xFF)).trace) := by
  have hassert : EcuAction.assertFailed ∉ (ecuRun ecuNewPages (sessionStream 6 0xFF)).trace := by
    decide +kernel
  refine ⟨hassert, by decide +kernel, (ecuRun_answers_iff ecuNewPages _ hassert).mpr ?_⟩
  decide +kernel

/-- **A query for 251 bytes is answered with a byte that is zero.** -/
theorem not_answers_tooLong :
    EcuAction.assertFailed ∉ (ecuRun ecuNewPages (sessionStream 251 0x0A)).trace ∧
      sentFrames (ecuRun ecuNewPages (sessionStream 251 0x0A)).trace = [initResponse, [0x00]] ∧
      ¬List.Forall₂ (Answers ecuNewPages)
        (sessionQueries (received (List.replicate 259 0) [] (sessionStream 251 0x0A).reduceOption))
        (sentFrames (ecuRun ecuNewPages (sessionStream 251 0x0A)).trace) := by
  have hassert : EcuAction.assertFailed ∉
      (ecuRun ecuNewPages (sessionStream 251 0x0A)).trace := by decide +kernel
  refine ⟨hassert, by decide +kernel, ?_⟩
  rw [ecuRun_answers ecuNewPages _ hassert]
  decide +kernel

end HobdSystem
