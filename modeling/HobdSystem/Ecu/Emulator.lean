import HobdSystem.Hobd.Comm
import HobdSystem.Hobd.Frame

/-!
# The emulator of an ECU

The model of `ecu.c`, which stands in for an ECU when the system is tested. It waits for the
wake-up message, then for the message that opens a session, and then answers queries out of four
pages of 255 bytes. It has a copy of the parser of the system.

What it does is a trace of `HobdSystem.EcuAction`. The transmit buffer has its length in its type
and every store to it is checked, so a store out of bounds is an action of its own, as a failed
`assert` is, and either ends the program. The two are kept apart: a failed assertion is how the
emulator turns down a query it does not like, and a store out of bounds is what no program should
do.

The size of a table response is added up in a byte. With up to 249 bytes of data the response is
what it should be (`HobdSystem.handleRxMessage_table`); with more of them the size wraps around
and the checksum goes to the wrong place. With 250 bytes that is in front of the buffer, since the
size is zero then and the index is an `int`; with more it is one of the first five bytes of the
message, which are its header and the two fields behind it. The assertion in front of all this
asks only whether the bytes are in the page, and so it does not help.

The three states of the emulator poll the socket in the same way, and differ in what they do with
a message that is complete. `HobdSystem.ecuUpdate_noMsg` and `HobdSystem.ecuUpdate_msg` say so: a
byte goes to the parser, and if it completes a message, the message is handled by the state
(`HobdSystem.onMessage`). With these two, nothing in the other files has to go through the states.
-/

namespace HobdSystem

open Bytes Memory Traced

/-! ### The emulator -/

/-- `HOBD_TABLE_SIZE_MAX`. -/
def hobdTableSizeMax : ℕ := 255

/-- `HOBD_TABLE_0`. -/
def hobdTable0 : UInt8 := 0x00

/-- `HOBD_TABLE_20`. -/
def hobdTable20 : UInt8 := 0x20

/-- `ecu_state_kind`. -/
inductive EcuStateKind where
  | wait4Wakeup
  | wait4DiagInit
  | activeListen
  deriving DecidableEq, Repr

/-- The pages of the tables, each of 255 bytes. The emulator only reads them, so they are the same
throughout a run. -/
structure EcuPages where
  table0 : Vector UInt8 255
  table10 : Vector UInt8 255
  table20 : Vector UInt8 255
  tableD1 : Vector UInt8 255

/-- `ecu_s`, without the socket. -/
structure Ecu where
  state : EcuStateKind
  /-- The parser, with `rx_buffer`. -/
  rxParser : HobdParser
  pages : EcuPages
  txBuffer : Vector UInt8 259

/-- What the emulator does, as far as it can be seen: it sends messages, and may end with a failed
assertion or with a store out of bounds. -/
inductive EcuAction where
  /-- `send`. -/
  | send (bytes : List UInt8)
  | assertFailed
  | outOfBounds
  deriving DecidableEq, Repr

/-- `assert`. -/
def ecuAssert (ok : Bool) : Traced EcuAction Unit :=
  if ok then pure () else ⟨[.assertFailed], none⟩

/-- A value that has to be there, or else the action `a` ends the program. -/
def orFail {α : Type} (a : EcuAction) : Option α → Traced EcuAction α
  | some x => pure x
  | none => ⟨[a], none⟩

/-- `check_for_message`, with the byte the socket has: the type of a message that is complete. -/
def checkForMessage (data : Option UInt8) (ecu : Ecu) : UInt8 × Ecu :=
  match data with
  | none => (hobdMsgTypeInvalid, ecu)
  | some byte =>
    let (status, parser) := hobdParserParseByte byte ecu.rxParser
    (if status = .none then headerType parser.rxBuffer else hobdMsgTypeInvalid,
      { ecu with rxParser := parser })

/-- `send_message`: as many bytes as the header says. -/
def sendMessage (msg : Vector UInt8 259) : Traced EcuAction Unit :=
  emit [.send (msg.toList.take (headerSize msg.toList).toNat)]

/-- `get_data_table`. -/
def getDataTable (table : UInt8) (pages : EcuPages) : Option (Vector UInt8 255) :=
  if table = hobdTable0 then some pages.table0
  else if table = hobdTable10 then some pages.table10
  else if table = hobdTable20 then some pages.table20
  else if table = hobdTableD1 then some pages.tableD1
  else none

/-- The field `table` of the query a buffer holds. -/
def queryTable (msg : List UInt8) : UInt8 := msg.getD 3 0

/-- The field `offset` of the query a buffer holds. -/
def queryOffset (msg : List UInt8) : UInt8 := msg.getD 4 0

/-- The field `count` of the query a buffer holds. -/
def queryCount (msg : List UInt8) : UInt8 := msg.getD 5 0

/-- The checksum of a table response. The index into `data` is an `int`, and a message of size
zero has its checksum in front of the buffer. -/
def storeChecksum (tx : Vector UInt8 259) : Option (Vector UInt8 259) :=
  if headerSize tx.toList = 0 then none
  else store tx (hobdMsgHeaderSize + (headerSize tx.toList).toNat - hobdMsgHeaderSize - 1)
    (hobdParserChecksum tx.toList ((headerSize tx.toList).toUInt16 - 1))

/-- `handle_rx_message`. -/
def handleRxMessage (msg : List UInt8) (ecu : Ecu) : Traced EcuAction Ecu :=
  if headerType msg = hobdMsgTypeQuery ∧ headerSubtype msg = hobdMsgSubtypeInit then do
    let tx ← orFail .outOfBounds (copy ecu.txBuffer 0
      [hobdMsgTypeResponse, hobdMsgHeadercsSize, hobdMsgSubtypeInit])
    let tx ← orFail .outOfBounds (store tx hobdMsgHeaderSize
      (hobdParserChecksum tx.toList ((headerSize tx.toList).toUInt16 - 1)))
    sendMessage tx
    return { ecu with txBuffer := tx }
  else if headerType msg = hobdMsgTypeQuery ∧ (headerSubtype msg = hobdMsgSubtypeTableSubgroup ∨
      headerSubtype msg = hobdMsgSubtypeTable) then do
    ecuAssert (decide (headerSubtype msg = hobdMsgSubtypeTableSubgroup))
    ecuAssert (decide ((queryOffset msg).toNat + (queryCount msg).toNat ≤ hobdTableSizeMax))
    -- the header, and the two fields of `hobd_data_table_response_s` in front of its data
    let tx ← orFail .outOfBounds (copy ecu.txBuffer 0
      [hobdMsgTypeResponse, hobdMsgHeadercsSize + 2 + queryCount msg, headerSubtype msg,
        queryTable msg, queryOffset msg])
    let tx ← if queryCount msg ≠ 0 then do
        let page ← orFail .assertFailed (getDataTable (queryTable msg) ecu.pages)
        orFail .outOfBounds (copy tx 5
          ((page.toList.drop (queryOffset msg).toNat).take (queryCount msg).toNat))
      else pure tx
    let tx ← orFail .outOfBounds (storeChecksum tx)
    sendMessage tx
    return { ecu with txBuffer := tx }
  else pure ecu

/-- `reset_state`. -/
def resetState (ecu : Ecu) : Ecu :=
  { ecu with state := .wait4Wakeup, rxParser := hobdParserReset ecu.rxParser }

/-- `wait4_wakeup`. -/
def wait4Wakeup (data : Option UInt8) (ecu : Ecu) : Traced EcuAction Ecu :=
  let (msgType, ecu) := checkForMessage data ecu
  if msgType = hobdMsgTypeWakeUp then
    if headerSubtype ecu.rxParser.rxBuffer = hobdMsgSubtypeWakeUp then
      pure { ecu with state := .wait4DiagInit, rxParser := hobdParserReset ecu.rxParser }
    else pure ecu
  else pure ecu

/-- `wait4_diag_init`. -/
def wait4DiagInit (data : Option UInt8) (ecu : Ecu) : Traced EcuAction Ecu :=
  let (msgType, ecu) := checkForMessage data ecu
  if msgType = hobdMsgTypeQuery then
    if headerSubtype ecu.rxParser.rxBuffer = hobdMsgSubtypeInit then
      if ecu.rxParser.rxBuffer.getD hobdMsgHeaderSize 0 = hobdInitData then
        handleRxMessage ecu.rxParser.rxBuffer
          { ecu with state := .activeListen, rxParser := hobdParserReset ecu.rxParser }
      else pure ecu
    else pure ecu
  else pure ecu

/-- `active_listen`. -/
def activeListen (data : Option UInt8) (ecu : Ecu) : Traced EcuAction Ecu :=
  let (msgType, ecu) := checkForMessage data ecu
  if msgType = hobdMsgTypeQuery then handleRxMessage ecu.rxParser.rxBuffer ecu else pure ecu

/-- `ecu_update`, with the byte the socket has, if it has one. -/
def ecuUpdate (data : Option UInt8) (ecu : Ecu) : Traced EcuAction Ecu :=
  match ecu.state with
  | .wait4Wakeup => wait4Wakeup data ecu
  | .wait4DiagInit => wait4DiagInit data ecu
  | .activeListen => activeListen data ecu

/-- `ecu_new`, with pages that are filled in some way. -/
def ecuNew (pages : EcuPages) : Traced EcuAction Ecu := do
  let parser ← orFail .assertFailed (hobdParserInit (List.replicate 259 0) 259)
  return resetState ⟨.wait4Wakeup, parser, pages, Vector.replicate 259 0⟩

/-- The pages as `ecu_new` fills them. -/
def ecuNewPages : EcuPages :=
  ⟨Vector.replicate 255 0, Vector.replicate 255 0xAA, Vector.replicate 255 0,
    Vector.replicate 255 0xBB⟩

/-- What the emulator has done after some calls of `ecu_update`. -/
def ecuRun (pages : EcuPages) (is : List (Option UInt8)) : Traced EcuAction Ecu :=
  run ecuUpdate (ecuNew pages) is

/-! ### Responses -/

@[simp] theorem orFail_some_bind {α β : Type} (a : EcuAction) (x : α)
    (f : α → Traced EcuAction β) : orFail a (some x) >>= f = f x := rfl

@[simp] theorem ecuAssert_true_bind {β : Type} (f : Unit → Traced EcuAction β) :
    ecuAssert true >>= f = f () := rfl

@[simp] theorem ecuAssert_false_bind {β : Type} (f : Unit → Traced EcuAction β) :
    ecuAssert false >>= f = ⟨[.assertFailed], none⟩ := rfl

/-- The response to the message that opens a session. -/
def initResponse : List UInt8 := [0x02, 0x04, 0x00, 0xFA]

/-- A response with some bytes of a table. -/
def tableResponse (table offset : UInt8) (data : List UInt8) (checksum : UInt8) : List UInt8 :=
  0x02 :: UInt8.ofNat (data.length + 6) :: 0x72 :: table :: offset :: (data ++ [checksum])

/-- The bytes a query asks for, which are not there if the table is not known. -/
def queriedData (pages : EcuPages) (msg : List UInt8) : Option (List UInt8) :=
  if queryCount msg ≠ 0 then
    (getDataTable (queryTable msg) pages).map fun page =>
      (page.toList.drop (queryOffset msg).toNat).take (queryCount msg).toNat
  else some []

theorem length_queriedData {pages : EcuPages} {msg data : List UInt8}
    (hfits : (queryOffset msg).toNat + (queryCount msg).toNat ≤ 255)
    (h : queriedData pages msg = some data) : data.length = (queryCount msg).toNat := by
  unfold queriedData at h
  split_ifs at h with hzero
  · obtain ⟨page, -, rfl⟩ := Option.map_eq_some_iff.mp h
    rw [List.length_take, List.length_drop, Vector.length_toList]
    omega
  · obtain rfl := Option.some.inj h
    rw [not_ne_iff.mp hzero]
    rfl

/-- The checksum of a message whose size is not zero. -/
theorem storeChecksum_spec (tx : Vector UInt8 259) (hsize : headerSize tx.toList ≠ 0) :
    ∃ tx', storeChecksum tx = some tx' ∧ tx'.toList = hobdMsgUpdateChecksum tx.toList := by
  have hlt : (headerSize tx.toList).toNat < 256 := UInt8.toNat_lt _
  have hpos : (headerSize tx.toList).toNat ≠ 0 := fun hc => hsize (UInt8.toNat_inj.mp hc)
  have hidx : hobdMsgHeaderSize + (headerSize tx.toList).toNat - hobdMsgHeaderSize - 1 =
      hobdMsgHeaderSize + (headerSize tx.toList).toNat - hobdMsgHeadercsSize.toNat := by
    change 3 + _ - 3 - 1 = 3 + _ - 4
    omega
  have hbound : hobdMsgHeaderSize + (headerSize tx.toList).toNat - hobdMsgHeadercsSize.toNat <
      259 := by
    change 3 + _ - 4 < 259
    omega
  rw [storeChecksum, if_neg hsize, hidx, store_of_lt _ _ hbound, hobdMsgUpdateChecksum,
    if_neg hsize]
  exact ⟨_, rfl, Vector.toList_set ..⟩

/-- **A message whose size byte is honest**, with its checksum: it is stored behind the payload,
and the message sums to zero. -/
theorem storeChecksum_frame {tx : Vector UInt8 259} {t s st : UInt8} {payload rest : List UInt8}
    (hlist : tx.toList = t :: s :: st :: (payload ++ rest)) (hrest : rest ≠ [])
    (hs : s.toNat = payload.length + 4) :
    ∃ tx' c, storeChecksum tx = some tx' ∧
      sendMessage tx' = emit [.send (t :: s :: st :: (payload ++ [c]))] ∧
      byteSum (t :: s :: st :: (payload ++ [c])) % 256 = 0 := by
  obtain ⟨d, rest, rfl⟩ := List.exists_cons_of_ne_nil hrest
  have hsize : headerSize tx.toList = s := by rw [hlist]; rfl
  obtain ⟨tx', hstore, hlist'⟩ := storeChecksum_spec tx (by
    rw [hsize]
    rintro rfl
    rw [UInt8.toNat_zero] at hs
    omega)
  obtain ⟨c, hc, hsum⟩ := hobdMsgUpdateChecksum_spec t st d rest hs
  rw [hlist, hc] at hlist'
  refine ⟨tx', c, hstore, ?_, hsum⟩
  rw [sendMessage, hlist']
  change emit [EcuAction.send (List.take s.toNat _)] = _
  rw [hs]
  simp [List.take_append, List.take_of_length_le]

section Handle

variable {msg : List UInt8} (ecu : Ecu)

/-- **The response to an INIT query** is the same four bytes for every query, whatever was in the
transmit buffer before. -/
theorem handleRxMessage_init (htype : headerType msg = hobdMsgTypeQuery)
    (hsubtype : headerSubtype msg = hobdMsgSubtypeInit) :
    ∃ tx, handleRxMessage msg ecu = ⟨[.send initResponse], some { ecu with txBuffer := tx }⟩ := by
  obtain ⟨tx₁, hcopy, hlist⟩ :=
    copy_eq [hobdMsgTypeResponse, hobdMsgHeadercsSize, hobdMsgSubtypeInit] ecu.txBuffer
      (show 0 + 3 ≤ 259 by decide)
  have hrest : ecu.txBuffer.toList.drop 3 ≠ [] := by simp
  have hsize : headerSize tx₁.toList = hobdMsgHeadercsSize := by rw [hlist]; rfl
  obtain ⟨tx, c, hstore, hsend, hsum⟩ :=
    storeChecksum_frame (show tx₁.toList = _ :: _ :: _ :: ([] ++ _) from hlist) hrest rfl
  -- the checksum of four bytes is stored at the same place
  have heq : storeChecksum tx₁ = store tx₁ hobdMsgHeaderSize
      (hobdParserChecksum tx₁.toList ((headerSize tx₁.toList).toUInt16 - 1)) := by
    rw [storeChecksum, hsize]
    rfl
  rw [eq_of_byteSum (l := [0x02, 0x04, 0x00]) hsum (d := 0xFA) (by decide)] at hsend
  refine ⟨tx, ?_⟩
  rw [handleRxMessage, if_pos ⟨htype, hsubtype⟩, hcopy, orFail_some_bind, ← heq, hstore,
    orFail_some_bind, hsend]
  rfl

/-- The header of a table response and the two fields in front of its data. -/
def responseHeader (msg : List UInt8) : List UInt8 :=
  [hobdMsgTypeResponse, hobdMsgHeadercsSize + 2 + queryCount msg, hobdMsgSubtypeTableSubgroup,
    queryTable msg, queryOffset msg]

/-- What a query for a part of a table comes to. -/
theorem handleRxMessage_eq (htype : headerType msg = hobdMsgTypeQuery)
    (hsubtype : headerSubtype msg = hobdMsgSubtypeTableSubgroup) :
    handleRxMessage msg ecu =
      if (queryOffset msg).toNat + (queryCount msg).toNat ≤ 255 then
        (orFail .assertFailed (queriedData ecu.pages msg) >>= fun data =>
          orFail .outOfBounds (copy ecu.txBuffer 0 (responseHeader msg ++ data)) >>= fun tx =>
          orFail .outOfBounds (storeChecksum tx) >>= fun tx =>
          sendMessage tx >>= fun _ => pure { ecu with txBuffer := tx })
      else ⟨[.assertFailed], none⟩ := by
  have hne : hobdMsgSubtypeTableSubgroup ≠ hobdMsgSubtypeInit := by decide
  rw [handleRxMessage, if_neg (fun hc => hne (hsubtype.symm.trans hc.2)),
    if_pos ⟨htype, Or.inl hsubtype⟩, hsubtype]
  obtain ⟨tx₁, hcopy, -⟩ :=
    copy_eq (responseHeader msg) ecu.txBuffer (show 0 + 5 ≤ 259 by decide)
  have hdata : ∀ data, copy ecu.txBuffer 0 (responseHeader msg ++ data) = copy tx₁ 5 data := by
    intro data
    rw [copy_append, hcopy]
    rfl
  simp only [hdata]
  rw [← responseHeader, hcopy, orFail_some_bind]
  by_cases hfits : (queryOffset msg).toNat + (queryCount msg).toNat ≤ 255
  · simp only [hobdTableSizeMax, hfits, decide_true, ecuAssert_true_bind, if_true, queriedData]
    by_cases hzero : queryCount msg = 0
    · simp only [hzero, ne_eq, not_true_eq_false, if_false, orFail_some_bind]
      rfl
    · simp only [hzero, ne_eq, not_false_eq_true, if_true]
      cases getDataTable (queryTable msg) ecu.pages with
      | none => rfl
      | some page => rfl
  · simp only [hobdTableSizeMax, hfits, decide_true, decide_false, ecuAssert_true_bind,
      ecuAssert_false_bind, if_false]

/-- **The response to a query for a part of a table.** An assertion fails if the bytes are not
there. Otherwise the response is what it should be if at most 249 bytes are asked for; with more
the program ends, or what is sent is too short. -/
theorem handleRxMessage_table (htype : headerType msg = hobdMsgTypeQuery)
    (hsubtype : headerSubtype msg = hobdMsgSubtypeTableSubgroup) :
    ((255 < (queryOffset msg).toNat + (queryCount msg).toNat ∨ queriedData ecu.pages msg = none) ∧
        handleRxMessage msg ecu = ⟨[.assertFailed], none⟩) ∨
      ∃ data, queriedData ecu.pages msg = some data ∧ data.length = (queryCount msg).toNat ∧
        ((queryCount msg).toNat ≤ 249 ∧ (∃ tx c,
            handleRxMessage msg ecu =
              ⟨[.send (tableResponse (queryTable msg) (queryOffset msg) data c)],
                some { ecu with txBuffer := tx }⟩ ∧
            byteSum (tableResponse (queryTable msg) (queryOffset msg) data c) % 256 = 0) ∨
          249 < (queryCount msg).toNat ∧
            (handleRxMessage msg ecu = ⟨[.outOfBounds], none⟩ ∨ ∃ r tx, r.length ≤ 255 ∧
              handleRxMessage msg ecu = ⟨[.send r], some { ecu with txBuffer := tx }⟩)) := by
  rw [handleRxMessage_eq ecu htype hsubtype]
  split_ifs with hfits
  swap
  · exact Or.inl ⟨Or.inl (not_le.mp hfits), rfl⟩
  cases hdata : queriedData ecu.pages msg with
  | none => exact Or.inl ⟨Or.inr rfl, rfl⟩
  | some data =>
    have hlen := length_queriedData hfits hdata
    rw [orFail_some_bind]
    refine Or.inr ⟨data, rfl, hlen, ?_⟩
    rcases Nat.lt_or_ge 249 (queryCount msg).toNat with hmany | hfew
    · refine Or.inr ⟨hmany, ?_⟩
      cases copy ecu.txBuffer 0 (responseHeader msg ++ data) with
      | none => exact Or.inl rfl
      | some tx =>
        rw [orFail_some_bind]
        cases storeChecksum tx with
        | none => exact Or.inl rfl
        | some tx' =>
          refine Or.inr ⟨tx'.toList.take (headerSize tx'.toList).toNat, tx', ?_, rfl⟩
          have hlt : (headerSize tx'.toList).toNat < 256 := UInt8.toNat_lt _
          rw [List.length_take]
          omega
    · refine Or.inl ⟨hfew, ?_⟩
      obtain ⟨tx, hcopy, hlist⟩ := copy_eq (responseHeader msg ++ data) ecu.txBuffer
        (show 0 + (responseHeader msg ++ data).length ≤ 259 by simp [responseHeader, hlen]; omega)
      have hsize : hobdMsgHeadercsSize + 2 + queryCount msg = UInt8.ofNat (data.length + 6) := by
        rw [← UInt8.toNat_inj, UInt8.toNat_add, UInt8.toNat_ofNat', hlen]
        change (6 + _) % 256 = _
        omega
      have hframe : tx.toList = 0x02 :: UInt8.ofNat (data.length + 6) :: 0x72 ::
          ((queryTable msg :: queryOffset msg :: data) ++
            ecu.txBuffer.toList.drop (data.length + 5)) := by
        rw [hlist, ← hsize]
        simp [responseHeader, hobdMsgTypeResponse, hobdMsgSubtypeTableSubgroup]
      obtain ⟨tx', c, hstore, hsend, hsum⟩ := storeChecksum_frame hframe
        (by simp; omega)
        (by rw [UInt8.toNat_ofNat', List.length_cons, List.length_cons]; omega)
      refine ⟨tx', c, ?_, hsum⟩
      rw [hcopy, orFail_some_bind, hstore, orFail_some_bind, hsend]
      rfl

end Handle

/-! ### Updates -/

/-- The wake-up message. -/
def IsWakeUp (msg : List UInt8) : Prop :=
  headerType msg = hobdMsgTypeWakeUp ∧ headerSubtype msg = hobdMsgSubtypeWakeUp

/-- The query that opens a session. -/
def OpensSession (msg : List UInt8) : Prop :=
  headerType msg = hobdMsgTypeQuery ∧ headerSubtype msg = hobdMsgSubtypeInit ∧
    msg.getD hobdMsgHeaderSize 0 = hobdInitData

instance (msg : List UInt8) : Decidable (IsWakeUp msg) := inferInstanceAs (Decidable (_ ∧ _))

instance (msg : List UInt8) : Decidable (OpensSession msg) :=
  inferInstanceAs (Decidable (_ ∧ _ ∧ _))

/-- What is done when a message is complete, in each of the states. The message is in the receive
buffer, and the parser is at a boundary. -/
def onMessage (ecu : Ecu) : Traced EcuAction Ecu :=
  match ecu.state with
  | .wait4Wakeup =>
    if IsWakeUp ecu.rxParser.rxBuffer then
      pure { ecu with state := .wait4DiagInit, rxParser := hobdParserReset ecu.rxParser }
    else pure ecu
  | .wait4DiagInit =>
    if OpensSession ecu.rxParser.rxBuffer then
      handleRxMessage ecu.rxParser.rxBuffer
        { ecu with state := .activeListen, rxParser := hobdParserReset ecu.rxParser }
    else pure ecu
  | .activeListen =>
    if headerType ecu.rxParser.rxBuffer = hobdMsgTypeQuery then
      handleRxMessage ecu.rxParser.rxBuffer ecu
    else pure ecu

section Update

variable (ecu : Ecu)

theorem ecuUpdate_none : ecuUpdate none ecu = pure ecu := by
  unfold ecuUpdate
  cases ecu.state <;> rfl

variable {byte : UInt8}

/-- **A byte that completes no message** goes to the parser, and nothing else happens, in all
three states. -/
theorem ecuUpdate_noMsg (h : (hobdParserParseByte byte ecu.rxParser).1 ≠ .none) :
    ecuUpdate (some byte) ecu =
      pure { ecu with rxParser := (hobdParserParseByte byte ecu.rxParser).2 } := by
  have hcheck : checkForMessage (some byte) ecu =
      (hobdMsgTypeInvalid, { ecu with rxParser := (hobdParserParseByte byte ecu.rxParser).2 }) := by
    simp only [checkForMessage, if_neg h]
  have hwake : hobdMsgTypeInvalid ≠ hobdMsgTypeWakeUp := by decide
  have hquery : hobdMsgTypeInvalid ≠ hobdMsgTypeQuery := by decide
  unfold ecuUpdate
  split
  · simp only [wait4Wakeup, hcheck, if_neg hwake]
  · simp only [wait4DiagInit, hcheck, if_neg hquery]
  · simp only [activeListen, hcheck, if_neg hquery]

/-- **A byte that completes a message**: the state decides what becomes of it, with the message in
the buffer of the parser. -/
theorem ecuUpdate_msg (h : (hobdParserParseByte byte ecu.rxParser).1 = .none) :
    ecuUpdate (some byte) ecu =
      onMessage { ecu with rxParser := (hobdParserParseByte byte ecu.rxParser).2 } := by
  have hcheck : checkForMessage (some byte) ecu =
      (headerType (hobdParserParseByte byte ecu.rxParser).2.rxBuffer,
        { ecu with rxParser := (hobdParserParseByte byte ecu.rxParser).2 }) := by
    simp only [checkForMessage, if_pos h]
  unfold ecuUpdate onMessage
  split
  next hstate =>
    simp only [wait4Wakeup, hcheck, hstate]
    grind [IsWakeUp]
  next hstate =>
    simp only [wait4DiagInit, hcheck, hstate]
    grind [OpensSession]
  next hstate => simp only [activeListen, hcheck, hstate]

end Update

end HobdSystem
