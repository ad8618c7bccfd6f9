import HobdSystem.Hobd.Exchange

/-!
# What a transmitted message carries

All messages are built in one static buffer, which holds what the last one left there. A message
should carry its header, its payload and its checksum, and nothing else of that buffer. Then the
bytes on the line depend on nothing but the kind of the message, and a listener who has seen one
query has seen them all.

That holds of the two messages that open a session. A query for a table is built with the size of
a pointer for the size of its payload, so it is **one byte too long, and that byte is what the
buffer held before** (`HobdSystem.msgIn_buffer_eq_iff`). The checksum covers it, and no receiver
can tell: the message is well formed, only its size is 8 where 7 is meant.

Whether this shows depends on the buffer, and so `HobdSystem.TxMsg.Canonical` speaks of all
buffers there could be: whatever the buffer of 256 bytes held, the message has the size of its
kind and sums to zero, and its bytes are those of any other run. It holds of exactly the messages
that are no query for a table (`HobdSystem.canonical_iff`). The messages are given here as
functions of the buffer (`HobdSystem.TxMsg.buffer`), and `HobdSystem.sendEcuDiagMessages_eq` and
`HobdSystem.sendTableReq_eq` are the results that say that these are the ones the thread
transmits.
-/

namespace HobdSystem

open Bytes Traced

/-! ### The messages -/

/-- The messages that are transmitted, and the tables they ask for. -/
inductive TxMsg where
  | wakeUp
  | init
  | table10
  | tableD1
  deriving DecidableEq, Repr

/-- The queries for a table. -/
def TxMsg.isTableQuery : TxMsg → Bool
  | .wakeUp => false
  | .init => false
  | .table10 => true
  | .tableD1 => true

/-- The size of the payload: of nothing, of `hobd_data_init_s` and of
`hobd_data_table_query_s`. -/
def TxMsg.payloadSize : TxMsg → ℕ
  | .wakeUp => 0
  | .init => 1
  | .table10 => 3
  | .tableD1 => 3

/-- The transmit buffer as it is passed to `comm_send_msg`, by what it held when
`send_ecu_diag_messages` or `send_table_req` was called. The init message is built in the buffer
that holds the wake-up message. -/
def TxMsg.buffer : TxMsg → List UInt8 → List UInt8
  | .wakeUp, tx => (hobdMsgNoData hobdMsgTypeWakeUp hobdMsgSubtypeWakeUp tx).2
  | .init, tx => (hobdMsg hobdMsgTypeQuery hobdMsgSubtypeInit 1 (putData [hobdInitData]
      (hobdMsgNoData hobdMsgTypeWakeUp hobdMsgSubtypeWakeUp tx).2)).2
  | .table10, tx => commFillMsgSubgroub10Query tx
  | .tableD1, tx => commFillMsgSubgroubD1Query tx

section Calls

variable (r : CommResults) (s : CommThread)

/-- The messages `send_ecu_diag_messages` passes to `comm_send_msg`. -/
theorem sendEcuDiagMessages_eq :
    sendEcuDiagMessages r s = (do
      commSendMsg (TxMsg.wakeUp.buffer s.txBuffer) s.comm
      logTxMsg r.firstTime hobdMsgHeadercsSize.toUInt16 (TxMsg.wakeUp.buffer s.txBuffer)
      emit [.mdelay 1]
      commSendMsg (TxMsg.init.buffer s.txBuffer) s.comm
      logTxMsg r.secondTime (hobdMsgHeadercsSize.toUInt16 + 1) (TxMsg.init.buffer s.txBuffer)
      return { s with
        parser := hobdParserReset s.parser, txBuffer := TxMsg.init.buffer s.txBuffer }) := rfl

/-- The message `send_table_req` passes to `comm_send_msg`. -/
theorem sendTableReq_eq {table : UInt8} {k : TxMsg}
    (h : table = hobdTable10 ∧ k = .table10 ∨ table = hobdTableD1 ∧ k = .tableD1) :
    sendTableReq table r s = (do
      commSendMsg (k.buffer s.txBuffer) s.comm
      logTxMsg r.firstTime (headerSize (k.buffer s.txBuffer)).toUInt16 (k.buffer s.txBuffer)
      return { s with txBuffer := k.buffer s.txBuffer }) := by
  rcases h with ⟨rfl, rfl⟩ | ⟨rfl, rfl⟩ <;> rfl

end Calls

/-! ### What they carry -/

section Carried

variable {tx tx' : List UInt8}

/-- **The bytes of a message**, with the byte of the buffer that a query for a table carries. -/
def TxMsg.bytes (k : TxMsg) (stale checksum : UInt8) : List UInt8 :=
  match k with
  | .wakeUp => wakeUpFrame.bytes
  | .init => initQuery
  | .table10 => tableQuery hobdTable10 0x80 stale checksum
  | .tableD1 => tableQuery hobdTableD1 0x06 stale checksum

theorem msgIn_buffer (k : TxMsg) (h : 8 ≤ tx.length) :
    ∃ c, msgIn (k.buffer tx) = k.bytes (tx.getD 6 0) c ∧
      byteSum (k.bytes (tx.getD 6 0) c) % 256 = 0 := by
  cases k with
  | wakeUp => exact ⟨0, msgIn_wakeUpMsg (by omega), wakeUpFrame.sum_eq⟩
  | init => exact ⟨0, msgIn_initMsg (by rw [hobdMsgNoData, length_build]; omega),
      show byteSum initQuery % 256 = 0 by decide⟩
  | table10 => exact fillTableQuery_spec hobdTable10 0x80 h
  | tableD1 => exact fillTableQuery_spec hobdTableD1 0x06 h

/-- A buffer begins with the header of the message in it. -/
theorem headerSize_msgIn {buffer l : List UInt8} {t s : UInt8} (h : msgIn buffer = t :: s :: l) :
    headerSize buffer = s := by
  have h1 : (msgIn buffer)[1]? = some s := by rw [h]; rfl
  rw [msgIn, List.getElem?_take] at h1
  split_ifs at h1 with hlt
  rw [headerSize, List.getD_eq_getElem?_getD, h1]
  rfl

/-- The size of a message: a query for a table is a byte too long. -/
theorem headerSize_buffer (k : TxMsg) (h : 8 ≤ tx.length) :
    (headerSize (k.buffer tx)).toNat =
      hobdMsgHeadercsSize.toNat + k.payloadSize + if k.isTableQuery then 1 else 0 := by
  obtain ⟨c, hc, -⟩ := msgIn_buffer k h
  cases k <;> rw [headerSize_msgIn hc] <;> rfl

/-- Two queries for one part of a table, both closed by their checksums. -/
theorem tableQuery_eq_iff {table count stale stale' c c' : UInt8}
    (h : byteSum (tableQuery table count stale c) % 256 = 0)
    (h' : byteSum (tableQuery table count stale' c') % 256 = 0) :
    tableQuery table count stale c = tableQuery table count stale' c' ↔ stale = stale' := by
  constructor
  · intro heq
    exact (by simpa [tableQuery] using heq : stale = stale' ∧ c = c').1
  · rintro rfl
    rw [eq_of_byteSum (l := [0x72, 0x08, 0x72, table, 0x00, count, stale]) h h']

/-- **Exactly when two runs transmit the same bytes**: always, or for a query for a table if the
buffers had the same byte behind the place of its payload. -/
theorem msgIn_buffer_eq_iff (k : TxMsg) (h : 8 ≤ tx.length) (h' : 8 ≤ tx'.length) :
    msgIn (k.buffer tx) = msgIn (k.buffer tx') ↔
      (k.isTableQuery = true → tx.getD 6 0 = tx'.getD 6 0) := by
  obtain ⟨c, hc, hsum⟩ := msgIn_buffer k h
  obtain ⟨c', hc', hsum'⟩ := msgIn_buffer k h'
  rw [hc, hc']
  cases k with
  | wakeUp => exact iff_of_true rfl (by simp [TxMsg.isTableQuery])
  | init => exact iff_of_true rfl (by simp [TxMsg.isTableQuery])
  | table10 => exact (tableQuery_eq_iff hsum hsum').trans ⟨fun hs _ => hs, fun hs => hs rfl⟩
  | tableD1 => exact (tableQuery_eq_iff hsum hsum').trans ⟨fun hs _ => hs, fun hs => hs rfl⟩

end Carried

/-- **A message is canonical**: whatever the transmit buffer of 256 bytes held, the message has
the size of its kind and sums to zero, and its bytes are those of any other run. -/
def TxMsg.Canonical (k : TxMsg) : Prop :=
  ∀ tx : Vector UInt8 256,
    (headerSize (k.buffer tx.toList)).toNat = hobdMsgHeadercsSize.toNat + k.payloadSize ∧
      byteSum (msgIn (k.buffer tx.toList)) % 256 = 0 ∧
      ∀ tx' : Vector UInt8 256, msgIn (k.buffer tx.toList) = msgIn (k.buffer tx'.toList)

/-- **The messages that open a session are canonical, and the queries for a table are not.** -/
theorem canonical_iff (k : TxMsg) : k.Canonical ↔ k.isTableQuery = false := by
  have hroom : ∀ tx : Vector UInt8 256, 8 ≤ tx.toList.length := fun tx => by
    rw [Vector.length_toList]
    omega
  constructor
  · intro h
    have hsize := (h (Vector.replicate 256 0)).1
    rw [headerSize_buffer k (hroom _)] at hsize
    by_contra hquery
    rw [Bool.not_eq_false] at hquery
    rw [if_pos hquery] at hsize
    omega
  · intro hquery tx
    obtain ⟨c, hc, hsum⟩ := msgIn_buffer k (hroom tx)
    refine ⟨by rw [headerSize_buffer k (hroom tx), hquery]; rfl, hc ▸ hsum, fun tx' => ?_⟩
    exact (msgIn_buffer_eq_iff k (hroom tx) (hroom tx')).mpr (by simp [hquery])

theorem canonical_iff_init : TxMsg.init.Canonical := (canonical_iff .init).mpr rfl

/-- The query for table `0x10` from two buffers that differ in a byte that is never written: the
size is 8, and the bytes are different. -/
theorem not_canonical_table10 :
    headerSize (TxMsg.table10.buffer (List.replicate 256 0)) = 8 ∧
      msgIn (TxMsg.table10.buffer (List.replicate 256 0)) ≠
        msgIn (TxMsg.table10.buffer ((List.replicate 256 0).set 6 1)) ∧
      ¬TxMsg.table10.Canonical := by
  have hsize : headerSize (TxMsg.table10.buffer (List.replicate 256 0)) = 8 := by decide +kernel
  refine ⟨hsize, by decide +kernel, fun h => ?_⟩
  have hlist : (Vector.replicate 256 (0 : UInt8)).toList = List.replicate 256 0 := by simp
  have hcanonical := (h (Vector.replicate 256 0)).1
  rw [hlist, hsize] at hcanonical
  exact absurd hcanonical (by decide)

end HobdSystem
