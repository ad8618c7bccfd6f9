import HobdSystem.Hobd.RoundTrip
import HobdSystem.Hobd.Sessions

/-!
# What the thread says and hears

The moves of the thread in terms of the line: the bytes that a move transmits (`HobdSystem.sentBy`),
byte for byte, and the messages that it logs as received (`HobdSystem.heardBy`). What the thread
says it says in one kind of move, in which it sends the queries of the state of the exchange
(`HobdSystem.queries_sentBy`) and goes to wait for a response. What it hears it hears in two: where
a wait finds the response, and where a thread that only listens completes a message. **A message
that is logged as received is the one that the byte of the move has completed**, and in a wait it is
the response that is waited for (`HobdSystem.CommMoves.heard_eq`).

## The eighth byte

A query for a table has three bytes of data: the table, where to begin, and how many bytes to
return. With the header and the checksum that makes seven bytes, but eight are transmitted. The
size that is passed on is that of a pointer, and so the byte of the transmit buffer behind the three
that were filled in goes out as well, whatever it is (`HobdSystem.fillTableQuery_spec`). It is
counted in the checksum, so the query is well formed. But the bytes of a query are known only up to
this one and the checksum, and so `HobdSystem.Queries` is a predicate and not a function.
-/

namespace HobdSystem

open Bytes Traced

/-! ### The line -/

/-- The byte an action puts on the UART. -/
def CommAction.sent? : CommAction → Option UInt8
  | .putchar b => some b
  | _ => none

/-- The message an action logs as received, which is one that comes with the time of its
arrival. -/
def CommAction.heard? : CommAction → Option (List UInt8)
  | .log call => call.timestamp.map fun _ => call.data.take call.dataSize.toNat
  | _ => none

/-- The bytes some actions transmit. -/
def sentBy (t : List CommAction) : List UInt8 := t.filterMap CommAction.sent?

/-- The messages some actions log as received. -/
def heardBy (t : List CommAction) : List (List UInt8) := t.filterMap CommAction.heard?

theorem sentBy_append (t u : List CommAction) : sentBy (t ++ u) = sentBy t ++ sentBy u :=
  List.filterMap_append

/-! ### The messages -/

/-- The query that opens a session. -/
def initQuery : List UInt8 := [0x72, 0x05, 0x00, 0xF0, 0x99]

/-- A query for the first bytes of a table, with the byte that was not filled in and the
checksum. -/
def tableQuery (table count stale checksum : UInt8) : List UInt8 :=
  [0x72, 0x08, 0x72, table, 0x00, count, stale, checksum]

/-- **What an active thread transmits in a state.** In a query for a table there is a byte that
the source does not set, and the checksum is the one that goes with it. -/
def Queries : CommStateKind → List UInt8 → Prop
  | .gpioInit, bytes => bytes = []
  | .sendEcuInit, bytes => bytes = wakeUpFrame.bytes ++ initQuery
  | .sendReq0, bytes => ∃ stale checksum,
      bytes = tableQuery hobdTable10 0x80 stale checksum ∧ byteSum bytes % 256 = 0
  | .sendReq1, bytes => ∃ stale checksum,
      bytes = tableQuery hobdTableD1 0x06 stale checksum ∧ byteSum bytes % 256 = 0

section Buffers

variable {tx payload : List UInt8} {t s st : UInt8}

theorem length_build : (build t s st tx).2.length = tx.length := by
  simp only [build, hobdMsgUpdateChecksum]
  split_ifs <;> simp [setHeader]

theorem length_putData (h : payload.length + 3 ≤ tx.length) :
    (putData payload tx).length = tx.length := by
  simp only [putData, hobdMsgHeaderSize, List.length_append, List.length_take, List.length_drop]
  omega

/-- The payload may be counted with the byte behind it. -/
theorem putData_concat (payload tx : List UInt8) (h : payload.length + 3 < tx.length) :
    putData payload tx = putData (payload ++ [tx.getD (3 + payload.length) 0]) tx := by
  have hlt : 3 + payload.length < tx.length := by omega
  have hx : tx.drop (3 + payload.length) =
      tx.getD (3 + payload.length) 0 :: tx.drop (3 + (payload.length + 1)) := by
    rw [List.drop_eq_getElem_cons hlt, List.getD_eq_getElem?_getD, List.getElem?_eq_getElem hlt]
    rfl
  rw [putData, putData, hobdMsgHeaderSize, hx]
  simp

theorem msgIn_build : msgIn (build t s st tx).2 = sentBytes (build t s st tx) := rfl

theorem length_wakeUpMsg (tx : List UInt8) : (wakeUpMsg tx).length = tx.length := length_build

theorem length_initMsg (h : 5 ≤ tx.length) : (initMsg tx).length = tx.length := by
  rw [initMsg, hobdMsg, length_build, length_putData (by rw [List.length_singleton]; omega)]

theorem msgIn_wakeUpMsg (h : 4 ≤ tx.length) : msgIn (wakeUpMsg tx) = wakeUpFrame.bytes := by
  obtain ⟨c, hc, hsum⟩ := hobdMsg_spec hobdMsgTypeWakeUp hobdMsgSubtypeWakeUp [] tx (by simp) h
  rw [wakeUpMsg, hobdMsgNoData_eq, hobdMsg, msgIn_build]
  refine hc.trans ?_
  rw [eq_of_byteSum (l := [0xFE, 0x04, 0xFF]) hsum (d := 0xFF) (by decide)]
  rfl

theorem msgIn_initMsg (h : 5 ≤ tx.length) : msgIn (initMsg tx) = initQuery := by
  obtain ⟨c, hc, hsum⟩ :=
    hobdMsg_spec hobdMsgTypeQuery hobdMsgSubtypeInit [hobdInitData] tx (by simp) h
  rw [initMsg, hobdMsg, msgIn_build]
  refine hc.trans ?_
  rw [eq_of_byteSum (l := [0x72, 0x05, 0x00, 0xF0]) hsum (d := 0x99) (by decide)]
  rfl

/-- **A query for a table is sent with a byte that was in the buffer before.** -/
theorem fillTableQuery_spec (table count : UInt8) (h : 8 ≤ tx.length) :
    ∃ c, msgIn (fillTableQuery table count tx) = tableQuery table count (tx.getD 6 0) c ∧
      byteSum (tableQuery table count (tx.getD 6 0) c) % 256 = 0 := by
  obtain ⟨c, hc, hsum⟩ := hobdMsg_spec hobdMsgTypeQuery hobdMsgSubtypeTableSubgroup
    [table, 0, count, tx.getD 6 0] tx (by simp) (by simpa using h)
  refine ⟨c, ?_, hsum⟩
  rw [fillTableQuery, putData_concat [table, 0, count] tx (by simp; omega), hobdMsg, msgIn_build]
  exact hc

theorem length_fillTableQuery (table count : UInt8) (h : 8 ≤ tx.length) :
    (fillTableQuery table count tx).length = tx.length := by
  rw [fillTableQuery, hobdMsg, length_build, length_putData (by simp; omega)]

end Buffers

/-! ### The moves on the line -/

section Moves

variable {tx : List UInt8} {r : CommResults} {s : CommThread} {t : List CommAction}
  {o : Option CommThread}

/-- What is transmitted is the message in the buffer, byte for byte. -/
theorem sentBy_transmit (dataSize : UInt16) (msg : List UInt8) (now : UInt64) :
    sentBy (transmit dataSize msg now) = msgIn msg := by
  rw [transmit, sentBy_append, sentBy, List.filterMap_map]
  exact (List.append_nil _).trans List.filterMap_some

/-- **What an active thread transmits are the queries of its state**, whatever was in the buffer
when it began to fill it. -/
theorem queries_sentBy (r : CommResults) (htx : 8 ≤ tx.length) (state : CommStateKind) :
    Queries state (sentBy (queryActs r tx state ++ startTimer)) := by
  have htimer : sentBy startTimer = [] := rfl
  rw [sentBy_append, htimer, List.append_nil]
  cases state with
  | gpioInit => rfl
  | sendEcuInit =>
    have hdelay : sentBy [CommAction.mdelay 1] = [] := rfl
    rw [queryActs, sentBy_append, sentBy_append, sentBy_transmit, sentBy_transmit, hdelay,
      msgIn_wakeUpMsg (by omega), msgIn_initMsg (by rw [length_wakeUpMsg]; omega)]
    rfl
  | sendReq0 =>
    obtain ⟨c, hbytes, hsum⟩ := fillTableQuery_spec hobdTable10 0x80 htx
    refine ⟨_, c, (sentBy_transmit _ _ _).trans hbytes, ?_⟩
    rw [show sentBy (queryActs r tx .sendReq0) = _ from (sentBy_transmit _ _ _).trans hbytes]
    exact hsum
  | sendReq1 =>
    obtain ⟨c, hbytes, hsum⟩ := fillTableQuery_spec hobdTableD1 0x06 htx
    refine ⟨_, c, (sentBy_transmit _ _ _).trans hbytes, ?_⟩
    rw [show sentBy (queryActs r tx .sendReq1) = _ from (sentBy_transmit _ _ _).trans hbytes]
    exact hsum

/-- The transmit buffer stays as long as it is. -/
theorem length_queryTx (htx : 8 ≤ tx.length) (state : CommStateKind) :
    (queryTx tx state).length = tx.length := by
  cases state with
  | gpioInit => rfl
  | sendEcuInit =>
    rw [queryTx, length_initMsg (by rw [length_wakeUpMsg]; omega), length_wakeUpMsg]
  | sendReq0 => exact length_fillTableQuery _ _ htx
  | sendReq1 => exact length_fillTableQuery _ _ htx

/-- A message that is logged with the time of its arrival is heard. -/
theorem heard_logReceived (msg : List UInt8) (time : UInt64) :
    (logReceived msg time).heard? = some (msgIn msg) := by
  have hsize : (headerSize msg).toUInt16.toNat = (headerSize msg).toNat := UInt8.toNat_toUInt16 _
  rw [logReceived, receivedCall, CommAction.heard?, msgIn, hsize]
  rfl

/-- A message that is transmitted is logged without one. -/
theorem unheard_transmit (dataSize : UInt16) (msg : List UInt8) (now : UInt64) :
    ∀ a ∈ transmit dataSize msg now, a.heard? = none := by
  refine List.forall_mem_append.mpr ⟨fun a ha => ?_, List.forall_mem_singleton.mpr rfl⟩
  obtain ⟨byte, -, rfl⟩ := List.mem_map.mp ha
  rfl

theorem unheard_queryActs (r : CommResults) (tx : List UInt8) (state : CommStateKind) :
    ∀ a ∈ queryActs r tx state, a.heard? = none := by
  cases state with
  | gpioInit => exact fun a ha => absurd ha List.not_mem_nil
  | sendEcuInit =>
    refine List.forall_mem_append.mpr ⟨unheard_transmit _ _ _, ?_⟩
    exact List.forall_mem_append.mpr ⟨List.forall_mem_singleton.mpr rfl, unheard_transmit _ _ _⟩
  | sendReq0 | sendReq1 => exact unheard_transmit _ _ _

/-- **What is logged as received is the message that the byte has completed**, and in a wait it is
the response. -/
theorem CommMoves.heard_eq (h : CommMoves r s t o) {a : CommAction} (ha : a ∈ t) {msg : List UInt8}
    (hmsg : msg ∈ a.heard?) :
    (pollUart r.getchar s.parser).1 = true ∧
      msg = msgIn (pollUart r.getchar s.parser).2.rxBuffer ∧
      (s.point = .listen ∨ ∃ w, s.point = .wait w ∧
        IsResponse w.subtype (pollUart r.getchar s.parser).2.rxBuffer) := by
  have hunheard : ∀ {u : List CommAction}, (∀ a ∈ u, a.heard? = none) → a ∉ u :=
    fun hu hc => absurd ((hu a hc).symm.trans hmsg) (by simp)
  -- the message that is logged, behind the timer that is stopped
  have hlog : ∀ {time}, a ∈ [.deregisterCb,
      logReceived (pollUart r.getchar s.parser).2.rxBuffer time] →
      msg = msgIn (pollUart r.getchar s.parser).2.rxBuffer := by
    intro time ha
    rcases List.mem_cons.mp ha with rfl | ha
    · exact absurd hmsg (by simp [CommAction.heard?])
    · obtain rfl := List.mem_singleton.mp ha
      exact (Option.some.inj ((heard_logReceived _ _).symm.trans hmsg)).symm
  have htimer : ∀ a ∈ startTimer, a.heard? = none := by decide
  cases h with
  | responded w hpoint hfound hresp => exact ⟨hfound, hlog ha, Or.inr ⟨w, hpoint, hresp⟩⟩
  | heard hpoint hfound => exact ⟨hfound, hlog ha, Or.inl hpoint⟩
  | pulses => exact absurd ha (hunheard (by decide))
  | asks =>
    exact absurd ha (hunheard (List.forall_mem_append.mpr ⟨unheard_queryActs _ _ _, htimer⟩))
  | listens => exact absurd ha (hunheard htimer)
  | passedOver => exact absurd ha (hunheard (List.forall_mem_cons.mpr ⟨rfl, htimer⟩))
  | _ => exact absurd ha (hunheard (by simp [CommAction.heard?]))

end Moves

end HobdSystem
