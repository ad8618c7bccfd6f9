import HobdSystem.Ecu.Answers
import HobdSystem.KLine.Link

/-!
# The thread and the emulator

The thread and the emulator of an ECU, connected by two links. Each end has a parser of its own
and reads a byte when it gets to it, so a query may be on its way in part while the rest of it is
in the buffer of the emulator, and so may a response. The emulator is a `HobdSystem.Partner`
(`HobdSystem.emulator`): it reads the wake-up message, then the query that opens a session, and
answers at the last byte of a query, so that it never owes a response.

As long as the timer does not fire and no request sets the mode, the two agree in every run
(`HobdSystem.kline_agrees`): no assertion of the emulator fails, the exchange goes on and never
falls back, and what is logged as received is the response to what was asked for, with the bytes
of the pages. **The two programs were written to be used with each other**, and this is the
statement that they can be.

It takes the facts about both that the other files have. From the side of the thread they are the
turns, which are kept by all of its moves. From the side of the emulator it has to be shown that
it understands what the thread says. Nearly all of that is in one lemma for a byte of a query
(`HobdSystem.reading_move`): there is more of it to read, or it is answered and the emulator waits
for what is sent next. The queries for a table have a byte too much, but the emulator looks only
at its three fields; and they ask for few enough bytes for the response to be one that the parser
of the thread accepts. Neither is a matter of course, since the emulator would fail on queries
that are just as well formed (see `HobdSystem.Ecu.Readable`).
-/

namespace HobdSystem

open Bytes Framing Traced

/-! ### The system -/

/-- What makes the system move. -/
inductive KLineInput where
  /-- The thread runs, and the first byte on its way to it has arrived or not. -/
  | comm (r : CommResults) (arrived : Bool)
  /-- The timer fires. -/
  | timeout
  /-- `ecu_update` is called. -/
  | ecu (arrived : Bool)

/-- What is done at the two ends. -/
inductive KLineAction where
  | comm (a : CommAction)
  | ecu (a : EcuAction)

/-- A request that sets the mode is accepted. -/
def KLineAction.setsMode : KLineAction → Bool
  | .comm a => a.setsMode
  | .ecu _ => false

/-- The byte the socket has. -/
def KLine.atSocket (arrived : Bool) (k : KLine Ecu) : Option UInt8 :=
  if arrived then k.toEcu.head? else none

/-- A move of the emulator. -/
def ecuMove (arrived : Bool) (k : KLine Ecu) : Traced EcuAction (KLine Ecu) :=
  let x := ecuUpdate (k.atSocket arrived) k.ecu
  ⟨x.trace, x.result.map fun e => { k with
    ecu := e, toEcu := k.toEcu.drop (k.atSocket arrived).toList.length
    toComm := k.toComm ++ (sentFrames x.trace).flatten }⟩

/-- A move of the system. -/
def klineStep (i : KLineInput) (k : KLine Ecu) : Traced KLineAction (KLine Ecu) :=
  match i with
  | .comm r arrived => (commMove r arrived k).mapTrace .comm
  | .timeout => pure { k with thread.comm := timeoutCb k.thread.comm }
  | .ecu arrived => (ecuMove arrived k).mapTrace .ecu

/-- The links are empty at the start. -/
def klineStart (pages : EcuPages) (s : CommThread) : Traced KLineAction (KLine Ecu) := do
  let ecu ← (ecuNew pages).mapTrace .ecu
  return ⟨s, ecu, [], []⟩

/-- What the system has done after some moves, and the state it is in. -/
def klineRun (pages : EcuPages) (s : CommThread) (is : List KLineInput) :
    Traced KLineAction (KLine Ecu) :=
  run klineStep (klineStart pages s) is

/-- The moves of a run. -/
def klineHistory (pages : EcuPages) (s : CommThread) (is : List KLineInput) :
    List (KLine Ecu × KLineInput) :=
  history klineStep (klineStart pages s) is

/-- **The response to what is sent in a state**, byte for byte but for the checksum, which is the
one that closes the sum. -/
def Expected (pages : EcuPages) : CommStateKind → List UInt8 → Prop
  | .gpioInit, _ => False
  | .sendEcuInit, msg => msg = [0x02, 0x04, 0x00, 0xFA]
  | .sendReq0, msg => ∃ c, msg = tableResponse 0x10 0 (pages.table10.toList.take 0x80) c ∧
      byteSum msg % 256 = 0
  | .sendReq1, msg => ∃ c, msg = tableResponse 0xD1 0 (pages.tableD1.toList.take 6) c ∧
      byteSum msg % 256 = 0

/-! ### The emulator as a partner -/

/-- The state of the emulator. -/
def EcuPhase.kind : EcuPhase → EcuStateKind
  | .asleep => .wait4Wakeup
  | .awake => .wait4DiagInit
  | .listening => .activeListen

/-- The emulator is in a state, and has the bytes `pre` of a message. This is what the abstract
ECU of the link is told of it; its transmit buffer does not matter. -/
structure Hears (pages : EcuPages) (phase : EcuPhase) (pre : List UInt8) (e : Ecu) : Prop where
  state : e.state = phase.kind
  pages : e.pages = pages
  reads : Reads pre e.rxParser
  rx : 251 ≤ e.rxParser.rxBuffer.length

/-- **The emulator**, seen from the thread. It answers when it has read a query, so it never owes
a response. -/
def emulator (pages : EcuPages) : Partner Ecu where
  Hears := Hears pages
  Owes _ _ := False
  Response state f := Expected pages state f.bytes
  isResponse {state f w} h hw := by
    cases state with
    | gpioInit => exact h.elim
    | sendEcuInit =>
      obtain rfl := Option.some.inj hw
      replace h : f.bytes = [0x02, 0x04, 0x00, 0xFA] := h
      rw [h]
      exact ⟨rfl, rfl⟩
    | sendReq0 | sendReq1 =>
      obtain rfl := Option.some.inj hw
      obtain ⟨c, hc, -⟩ := h
      rw [hc]
      exact ⟨rfl, rfl⟩

/-! ### Moves of the emulator -/

section Moves

variable {pages : EcuPages} {e : Ecu} {f : HobdFrame} {b : UInt8} {bytes : List UInt8}

/-- A byte of a message: there is more of it to read, or it is complete. -/
theorem hearsPart_move {phase : EcuPhase} {after : List UInt8}
    (h : (emulator pages).HearsPart phase f after e (b :: bytes)) :
    (∃ e', ecuUpdate (some b) e = pure e' ∧ (emulator pages).HearsPart phase f after e' bytes) ∨
      bytes = after ∧ ∃ e', ecuUpdate (some b) e = onMessage e' ∧ Hears pages phase [] e' ∧
        Holds e'.rxParser.rxBuffer f.bytes := by
  obtain ⟨pre, rest, hsplit, rfl, he⟩ := h.cons
  have he : Hears pages phase pre e := he
  by_cases hrest : rest = []
  · subst hrest
    obtain ⟨hcode, hboundary, hholds, hlen⟩ := f.parse_last hsplit he.reads
    exact Or.inr ⟨rfl, _, ecuUpdate_msg e hcode,
      ⟨he.state, he.pages, reads_nil hboundary, hlen ▸ he.rx⟩, hholds⟩
  · obtain ⟨hcode, hreads, hlen⟩ := f.parse_next hsplit hrest he.reads
    have he' : Hears pages phase (pre ++ [b])
        { e with rxParser := (hobdParserParseByte b e.rxParser).2 } :=
      ⟨he.state, he.pages, hreads, hlen ▸ he.rx⟩
    exact Or.inl ⟨_, ecuUpdate_noMsg e hcode, .of_next hsplit hrest he'⟩

/-- The wake-up message. -/
theorem onMessage_wakeUp (h : Hears pages .asleep [] e)
    (hholds : Holds e.rxParser.rxBuffer wakeUpFrame.bytes) :
    ∃ e', onMessage e = pure e' ∧ Hears pages .awake [] e' := by
  have hwake : IsWakeUp e.rxParser.rxBuffer :=
    ⟨hholds.getD_eq h.rx (by decide), hholds.getD_eq h.rx (by decide)⟩
  have hon : onMessage e =
      pure { e with state := .wait4DiagInit, rxParser := hobdParserReset e.rxParser } := by
    simp only [onMessage, h.state, EcuPhase.kind, if_pos hwake]
  exact ⟨_, hon, rfl, h.pages, reads_nil rfl, h.rx⟩

/-- The query that opens a session. -/
theorem onMessage_init (h : Hears pages .awake [] e)
    (hholds : Holds e.rxParser.rxBuffer initFrame.bytes) :
    ∃ e', onMessage e = ⟨[.send initResponse], some e'⟩ ∧ Hears pages .listening [] e' := by
  have hopens : OpensSession e.rxParser.rxBuffer :=
    ⟨hholds.getD_eq h.rx (by decide), hholds.getD_eq h.rx (by decide),
      hholds.getD_eq h.rx (by decide)⟩
  have hon : onMessage e = handleRxMessage e.rxParser.rxBuffer
      { e with state := .activeListen, rxParser := hobdParserReset e.rxParser } := by
    simp only [onMessage, h.state, EcuPhase.kind, if_pos hopens]
  obtain ⟨tx, hsend⟩ := handleRxMessage_init
    { e with state := .activeListen, rxParser := hobdParserReset e.rxParser } hopens.1 hopens.2.1
  exact ⟨_, hon.trans hsend, rfl, h.pages, reads_nil rfl, h.rx⟩

/-- A query for the first bytes of a table. -/
theorem onMessage_table {table count stale c : UInt8} {page : Vector UInt8 255}
    (h : Hears pages .listening [] e) (hf : f.bytes = tableQuery table count stale c)
    (hholds : Holds e.rxParser.rxBuffer f.bytes) (hcount : 0 < count.toNat ∧ count.toNat ≤ 245)
    (hpage : getDataTable table pages = some page) :
    ∃ (e' : Ecu) (f' : HobdFrame), onMessage e = ⟨[.send f'.bytes], some e'⟩ ∧
      Hears pages .listening [] e' ∧
      ∃ c, f'.bytes = tableResponse table 0 (page.toList.take count.toNat) c := by
  have hget : ∀ i < 8,
      e.rxParser.rxBuffer.getD i 0 = (tableQuery table count stale c).getD i 0 := by
    intro i hi
    rw [← hf]
    exact hholds.getD_eq h.rx (by rw [hf]; exact hi)
  have htype : headerType e.rxParser.rxBuffer = hobdMsgTypeQuery := hget 0 (by decide)
  have hsubtype : headerSubtype e.rxParser.rxBuffer = hobdMsgSubtypeTableSubgroup :=
    hget 2 (by decide)
  have htable : queryTable e.rxParser.rxBuffer = table := hget 3 (by decide)
  have hoffset : queryOffset e.rxParser.rxBuffer = 0 := hget 4 (by decide)
  have hcount' : queryCount e.rxParser.rxBuffer = count := hget 5 (by decide)
  have hdata : queriedData e.pages e.rxParser.rxBuffer = some (page.toList.take count.toNat) := by
    have hne : count ≠ 0 := by
      rintro rfl
      exact absurd hcount.1 (by decide)
    rw [queriedData, hcount', if_pos hne, htable, h.pages, hpage, hoffset]
    rfl
  have hon : onMessage e = handleRxMessage e.rxParser.rxBuffer e := by
    simp only [onMessage, h.state, EcuPhase.kind, if_pos htype]
  obtain ⟨hbad, -⟩ | ⟨data, hdata', hlen, ⟨-, tx, c, hsend, hsum⟩ | ⟨hmany, -⟩⟩ :=
    handleRxMessage_table e htype hsubtype
  · rw [hoffset, hcount', hdata] at hbad
    rcases hbad with hbad | hbad
    · rw [UInt8.toNat_zero] at hbad
      omega
    · exact absurd hbad (Option.some_ne_none _)
  · obtain rfl := Option.some.inj (hdata.symm.trans hdata')
    rw [htable, hoffset] at hsend hsum
    rw [hcount'] at hlen
    obtain ⟨f', hf'⟩ := exists_responseFrame (by omega) hsum
    exact ⟨{ e with txBuffer := tx }, f', by rw [hon, hsend, hf'],
      ⟨h.state, h.pages, h.reads, h.rx⟩, c, hf'⟩
  · rw [hcount'] at hmany
    omega

/-- **A byte of what is sent in a state of the exchange**: there is more of it to read, or it is
answered and the emulator waits for what is sent next. -/
theorem reading_move {state : CommStateKind}
    (h : (emulator pages).Reading state e (b :: bytes)) :
    (∃ e', ecuUpdate (some b) e = pure e' ∧ (emulator pages).Reading state e' bytes) ∨
      bytes = [] ∧ ∃ (e' : Ecu) (f : HobdFrame), ecuUpdate (some b) e =
        ⟨[.send f.bytes], some e'⟩ ∧ Expected pages state f.bytes ∧
        (emulator pages).Rests state.next e' := by
  cases state with
  | gpioInit => exact h.elim
  | sendEcuInit =>
    rcases h with h | h
    · rcases hearsPart_move h with ⟨e', hmove, he'⟩ | ⟨rfl, e', hmove, he', hholds⟩
      · exact Or.inl ⟨e', hmove, Or.inl he'⟩
      · obtain ⟨e'', hon, he''⟩ := onMessage_wakeUp he' hholds
        exact Or.inl ⟨e'', hmove.trans hon,
          Or.inr ⟨[], initQuery, rfl, by decide, (List.append_nil _).symm, he''⟩⟩
    · rcases hearsPart_move h with ⟨e', hmove, he'⟩ | ⟨rfl, e', hmove, he', hholds⟩
      · exact Or.inl ⟨e', hmove, Or.inr he'⟩
      · obtain ⟨e'', hon, he''⟩ := onMessage_init he' hholds
        exact Or.inr ⟨rfl, e'', initResponseFrame, hmove.trans hon, rfl, he''⟩
  | sendReq0 | sendReq1 =>
    obtain ⟨f, hq, h⟩ := h
    rcases hearsPart_move h with ⟨e', hmove, he'⟩ | ⟨rfl, e', hmove, he', hholds⟩
    · exact Or.inl ⟨e', hmove, f, hq, he'⟩
    · obtain ⟨stale, c, hf, -⟩ := hq
      obtain ⟨e'', f', hon, he'', c', hf'⟩ := onMessage_table he' hf hholds (by decide) rfl
      exact Or.inr ⟨rfl, e'', f', hmove.trans hon, ⟨c', hf', f'.sum_eq⟩, he''⟩

end Moves

/-! ### The system -/

/-- **The invariant**: the exchange goes in turns, and the timer has not ended the wait. The flag
has to be part of it, since the thread could give up in the next round otherwise. -/
structure InStep (pages : EcuPages) (k : KLine Ecu) : Prop where
  takesPart : TakesPart k.thread
  inTurn : InTurn (emulator pages) k
  flag : ∀ w, k.thread.point = .wait w → k.thread.comm.timeoutSignaled = 0

section System

variable {pages : EcuPages} {k k' : KLine Ecu} {r : CommResults} {arrived : Bool}

/-- **A move of the emulator** does what a byte of a query asks for, or nothing. -/
theorem InTurn.ecuMove (hk : InTurn (emulator pages) k) (arrived : Bool) :
    ∃ e' toEcu toComm, (ecuMove arrived k).result =
        some { k with ecu := e', toEcu := toEcu, toComm := toComm } ∧
      InTurn (emulator pages) { k with ecu := e', toEcu := toEcu, toComm := toComm } ∧
      ∀ a ∈ (ecuMove arrived k).trace, ∃ bytes, a = .send bytes := by
  cases hdata : k.atSocket arrived with
  | none =>
    refine ⟨k.ecu, k.toEcu, k.toComm, ?_, hk, ?_⟩
    · rw [HobdSystem.ecuMove, hdata, ecuUpdate_none]
      simp [sentFrames, pure_eq]
    · rw [HobdSystem.ecuMove, hdata, ecuUpdate_none]
      exact fun a ha => absurd ha List.not_mem_nil
  | some b =>
    obtain ⟨bytes, htoEcu⟩ : ∃ bytes, k.toEcu = b :: bytes := by
      rw [KLine.atSocket] at hdata
      split_ifs at hdata
      exact List.head?_eq_some_iff.mp hdata
    obtain ⟨w, hpoint, hawaits, hboundary, htoComm, hreading⟩ := hk.asked htoEcu
    rcases reading_move hreading with ⟨e', hmove, he'⟩ | ⟨rfl, e', f, hmove, hf, he'⟩
    · refine ⟨e', bytes, [], ?_, .asking w hpoint hawaits hboundary rfl he', ?_⟩
      · rw [HobdSystem.ecuMove, hdata, hmove, htoEcu, htoComm]
        rfl
      · rw [HobdSystem.ecuMove, hdata, hmove]
        exact fun a ha => absurd ha List.not_mem_nil
    · refine ⟨e', [], f.bytes, ?_, .answering w hpoint hawaits f hf [] rfl f.ne_nil
        (reads_nil hboundary) rfl he', ?_⟩
      · rw [HobdSystem.ecuMove, hdata, hmove, htoEcu, htoComm]
        simp [sentFrames, EcuAction.frame?]
      · rw [HobdSystem.ecuMove, hdata, hmove]
        exact fun a ha => ⟨f.bytes, List.mem_singleton.mp ha⟩

/-- A move without a timeout and without a request that sets the mode. Either of them makes the
thread fall back while the emulator stays where it is. -/
def Undisturbed (m : KLine Ecu × KLineInput) : Prop :=
  m.2 ≠ .timeout ∧ ∀ a ∈ (klineStep m.2 m.1).trace, a.setsMode = false

/-- A move of the thread, undisturbed. -/
theorem InStep.commMove (hk : InStep pages k) (hok : Undisturbed (k, .comm r arrived))
    (h : (commMove r arrived k).result = some k') :
    InStep pages k' ∧ (k'.thread.comm.state = k.thread.comm.state ∨
      k'.thread.comm.state = k.thread.comm.state.next) := by
  have hmode : ∀ a ∈ (HobdSystem.commMove r arrived k).trace, a.setsMode = false :=
    fun a ha => hok.2 (.comm a) (List.mem_map_of_mem ha)
  rcases hk.inTurn.commMove hk.takesPart h with hmoved | ⟨w, hpoint, -, hflag, -⟩ |
      ⟨⟨a, ha, hset⟩, -⟩
  · refine ⟨⟨hmoved.takesPart, hmoved.inTurn, fun w hw => ?_⟩, hmoved.advances⟩
    rcases hmoved.flag w hw with hzero | ⟨hpoint, hsame⟩
    · exact hzero
    · exact hsame.trans (hk.flag w hpoint)
  · exact absurd (hk.flag w hpoint) hflag
  · rw [hmode a ha] at hset
    exact absurd hset nofun

/-- **One move** keeps the invariant, and the exchange stays in its state or goes on. The moves of
the thread and those of the emulator are dealt with one by one, in whichever order they come. -/
theorem InStep.step {i : KLineInput} (hk : InStep pages k) (hok : Undisturbed (k, i))
    (h : (klineStep i k).result = some k') :
    InStep pages k' ∧ (k'.thread.comm.state = k.thread.comm.state ∨
      k'.thread.comm.state = k.thread.comm.state.next) := by
  cases i with
  | comm r arrived => exact hk.commMove hok h
  | timeout => exact absurd rfl hok.1
  | ecu arrived =>
    obtain ⟨e', toEcu, toComm, hres, hturn, -⟩ := hk.inTurn.ecuMove arrived
    obtain rfl := Option.some.inj (hres.symm.trans h)
    exact ⟨⟨hk.takesPart, hturn, hk.flag⟩, Or.inl rfl⟩

/-- While the thread waits, something is on its way. -/
theorem InStep.busy (hk : InStep pages k) {w : RespWait} (hpoint : k.thread.point = .wait w) :
    k.toEcu ≠ [] ∨ k.toComm ≠ [] := by
  cases hk.inTurn with
  | idle hc =>
    rcases hc with hc | hc
    · exact absurd (hpoint.symm.trans hc) nofun
    · exact absurd (hpoint.symm.trans hc) nofun
  | asking _ _ _ _ _ hreading => exact Or.inl hreading.ne_nil
  | owing _ _ _ _ _ _ hc => exact hc.elim
  | answering _ _ _ _ _ _ _ hleft => exact Or.inr hleft

end System

/-- The emulator starts at the boundary of a message, and waits to be woken up. -/
theorem inStep_start (pages : EcuPages) {s : CommThread} (hs : TakesPart s)
    (hstate : s.comm.state = .gpioInit) (hpoint : s.point = .top) {k : KLine Ecu}
    (h : (klineStart pages s).result = some k) : InStep pages k := by
  obtain rfl := Option.some.inj h
  refine ⟨hs, .idle (Or.inl hpoint) rfl rfl (fun hc => ?_) ?_, fun w hw => ?_⟩
  · exact absurd hc (not_inSession_of_gpioInit hstate)
  · rw [hstate]
    refine ⟨rfl, rfl, reads_nil rfl, ?_⟩
    change 251 ≤ (List.replicate 259 (0 : UInt8)).length
    rw [List.length_replicate]
    omega
  · exact absurd (hpoint.symm.trans hw) nofun

/-- The emulator does nothing but send in a move, if the exchange goes in turns. -/
theorem InStep.sound {pages : EcuPages} {k : KLine Ecu} (hk : InStep pages k) (i : KLineInput) :
    ∀ a ∈ (klineStep i k).trace, a ≠ .ecu .assertFailed ∧ a ≠ .ecu .outOfBounds := by
  intro a ha
  cases i with
  | comm r arrived =>
    obtain ⟨b, -, rfl⟩ := List.mem_map.mp ha
    exact ⟨nofun, nofun⟩
  | timeout => exact absurd ha List.not_mem_nil
  | ecu arrived =>
    obtain ⟨b, hb, rfl⟩ := List.mem_map.mp ha
    obtain ⟨_, _, _, _, _, hsends⟩ := hk.inTurn.ecuMove arrived
    obtain ⟨bytes, rfl⟩ := hsends b hb
    exact ⟨nofun, nofun⟩

/-- What the thread logs as received in a move is the response to what it has sent. -/
theorem InStep.heard {pages : EcuPages} {k : KLine Ecu} (hk : InStep pages k) (i : KLineInput) :
    ∀ a, .comm a ∈ (klineStep i k).trace → ∀ msg ∈ a.heard?,
      Expected pages k.thread.comm.state msg := by
  intro a ha msg hmsg
  cases i with
  | comm r arrived =>
    obtain ⟨b, hb, heq⟩ := List.mem_map.mp ha
    obtain rfl := KLineAction.comm.inj heq
    obtain ⟨f, hf, rfl⟩ := hk.inTurn.heard hk.takesPart b hb msg hmsg
    exact hf
  | timeout => exact absurd ha List.not_mem_nil
  | ecu arrived =>
    obtain ⟨b, -, hc⟩ := List.mem_map.mp ha
    exact absurd hc nofun

/-- **The system and the emulator agree**, in every run without a timeout and without a request
that sets the mode, and whatever is in the pages:

* no assertion of the emulator fails, and it stores nothing out of bounds;
* the exchange stays in its state or goes on to the next one, and a thread that waits is never left
  with both links empty;
* a message that is logged as received is the response to what is sent in the state. -/
theorem kline_agrees (pages : EcuPages) {s : CommThread} (hs : TakesPart s)
    (hstate : s.comm.state = .gpioInit) (hpoint : s.point = .top) (is : List KLineInput)
    (htimer : .timeout ∉ is) (hmode : ∀ a ∈ (klineRun pages s is).trace, a.setsMode = false) :
    (∀ a ∈ (klineRun pages s is).trace, a ≠ .ecu .assertFailed ∧ a ≠ .ecu .outOfBounds) ∧
      ∀ m ∈ klineHistory pages s is,
        (∀ k', (klineStep m.2 m.1).result = some k' →
          k'.thread.comm.state = m.1.thread.comm.state ∨
            k'.thread.comm.state = m.1.thread.comm.state.next) ∧
        (∀ w, m.1.thread.point = .wait w → m.1.toEcu ≠ [] ∨ m.1.toComm ≠ []) ∧
        ∀ a, .comm a ∈ (klineStep m.2 m.1).trace → ∀ msg ∈ a.heard?,
          Expected pages m.1.thread.comm.state msg := by
  have hok : ∀ m ∈ klineHistory pages s is, Undisturbed m := fun m hm =>
    ⟨fun hc => htimer (hc ▸ mem_of_history klineStep is hm),
      fun a ha => hmode a ((mem_trace_run_iff klineStep is).mpr (Or.inr ⟨m, hm, ha⟩))⟩
  have hinv : ∀ m ∈ klineHistory pages s is, InStep pages m.1 :=
    forall_history klineStep (InStep pages) (fun k i k' hk hok h => (hk.step hok h).1) is _
      (fun k h => inStep_start pages hs hstate hpoint h) hok
  refine ⟨fun a ha => ?_, fun m hm => ⟨fun k' h => ?_, fun w hw => ?_, ?_⟩⟩
  · rcases (mem_trace_run_iff klineStep is).mp ha with ha | ⟨m, hm, ha⟩
    · exact absurd ha List.not_mem_nil
    · exact (hinv m hm).sound m.2 a ha
  · exact ((hinv m hm).step (hok m hm) h).2
  · exact (hinv m hm).busy hw
  · exact (hinv m hm).heard m.2

/-- A thread that takes part in the exchange, at its start. -/
def activeThread : CommThread :=
  ⟨⟨1, 0, .gpioInit, 0⟩, ⟨.getType, 0, 0, 0, 0, 0, List.replicate 512 0, 512⟩,
    List.replicate 256 0, ⟨0, 0, 0, 0, 0⟩, .top⟩

/-- A move of the thread in which every call succeeds. -/
def commTurn : KLineInput := .comm ⟨0, 0, 0, -1, 0, 0, 0, fun _ => some 0, none⟩ true

/-- The two ends take as many turns as a message has bytes. -/
def talk (query response : ℕ) : List KLineInput :=
  [commTurn, commTurn] ++ List.replicate query (.ecu true) ++ List.replicate response commTurn

/-- A session is opened, and both tables are asked for once. -/
def firstRound : List KLineInput := [commTurn] ++ talk 9 4 ++ talk 8 134 ++ talk 8 12

theorem kline_agrees_firstRound :
    (klineRun ecuNewPages activeThread firstRound).result.map (fun k => k.thread.comm.state) =
        some .sendReq0 ∧
      (∀ a ∈ (klineRun ecuNewPages activeThread firstRound).trace,
        a ≠ .ecu .assertFailed ∧ a ≠ .ecu .outOfBounds) ∧
      ∀ m ∈ klineHistory ecuNewPages activeThread firstRound,
        ∀ a, .comm a ∈ (klineStep m.2 m.1).trace → ∀ msg ∈ a.heard?,
          Expected ecuNewPages m.1.thread.comm.state msg := by
  have hrun : (klineRun ecuNewPages activeThread firstRound).result.map
        (fun k => k.thread.comm.state) = some .sendReq0 ∧
      ∀ a ∈ (klineRun ecuNewPages activeThread firstRound).trace, a.setsMode = false := by
    decide +kernel
  have hs : TakesPart activeThread := ⟨by decide, rfl, by decide +kernel, by decide +kernel⟩
  have htimer : .timeout ∉ firstRound := by
    simp only [firstRound, talk, commTurn, List.mem_append, List.mem_cons, List.mem_replicate,
      List.not_mem_nil, reduceCtorEq, and_false, or_false, not_false_eq_true]
  have hagrees := kline_agrees ecuNewPages hs rfl rfl firstRound htimer hrun.2
  exact ⟨hrun.1, hagrees.1, fun m hm => (hagrees.2 m hm).2.2⟩

end HobdSystem
