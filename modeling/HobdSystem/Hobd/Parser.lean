import HobdSystem.Library.ByteSum
import HobdSystem.Library.Run

/-!
# The byte-at-a-time parser of the K-line protocol

The model of `hobd_parser.c`, with the constants of `hobd_kline.h` it reads. A message on the
K-line is a type byte, a size byte that counts the whole message, a subtype byte, the payload and
a checksum byte; `HobdSystem.hobdParserParseByte` takes it one byte at a time through the five
states of `HobdSystem.HobdParserStateKind`.

The receive buffer is the memory the pointer `rx_buffer` leads to, as a list, and a store behind
the end of that memory is not part of the model; which buffers have room for every store is the
subject of `HobdSystem.Hobd.Bounds`. The fields keep the widths they have in the source, so the
8-bit index and the 16-bit accumulator wrap here as they do there; the one comparison that C makes
in `int`, the test that ends the payload, is made in `ℕ`. `ZF_LOGF_IF` ends the program;
`HobdSystem.hobdParserInit` has no result there. The emulator's copy of the parser differs only in
using `assert` for it.

Two details of the source are easy to read past, and the model has them as they are.

* `valid_type` answers a byte that is no type with the error code `HOBD_ERROR_MSG_TYPE`, and its
  caller compares the answer with `HOBD_MSG_TYPE_INVALID`, which is another number. So no byte is
  ever turned down as a type (`HobdSystem.validType_ne_invalid`), nor as a subtype
  (`HobdSystem.validSubtype_ne_invalid`). The only byte that is turned down is a size outside of
  the bounds.
* The complement that closes a checksum is taken on two branches, for sums above 256 and for the
  others. Their results have the same low byte, and that is all that is compared
  (`HobdSystem.complement_low`).

What the parser does with a whole stream is the subject of `HobdSystem.Hobd.Deframe`; here are
only the definitions and what the helpers compute.
-/

namespace HobdSystem

open Bytes

/-! ### The constants of the protocol -/

/-- `HOBD_MSG_HEADER_SIZE`. -/
def hobdMsgHeaderSize : ℕ := 3

/-- `HOBD_MSG_HEADERCS_SIZE`: the header and the checksum. -/
def hobdMsgHeadercsSize : UInt8 := 4

/-- `HOBD_MSG_DATA_SIZE_MAX`. -/
def hobdMsgDataSizeMax : UInt8 := 251

/-- `HOBD_MSG_SIZE_MIN`. -/
def hobdMsgSizeMin : UInt8 := 4

/-- `HOBD_MSG_TYPE_INVALID`. -/
def hobdMsgTypeInvalid : UInt8 := 0x00

/-- `HOBD_MSG_TYPE_QUERY`. -/
def hobdMsgTypeQuery : UInt8 := 0x72

/-- `HOBD_MSG_TYPE_RESPONSE`. -/
def hobdMsgTypeResponse : UInt8 := 0x02

/-- `HOBD_MSG_TYPE_WAKE_UP`. -/
def hobdMsgTypeWakeUp : UInt8 := 0xFE

/-- `HOBD_MSG_SUBTYPE_INVALID`. -/
def hobdMsgSubtypeInvalid : UInt8 := 0xAA

/-- `HOBD_MSG_SUBTYPE_WAKE_UP`. -/
def hobdMsgSubtypeWakeUp : UInt8 := 0xFF

/-- `HOBD_MSG_SUBTYPE_INIT`. -/
def hobdMsgSubtypeInit : UInt8 := 0x00

/-- `HOBD_MSG_SUBTYPE_TABLE`. -/
def hobdMsgSubtypeTable : UInt8 := 0x71

/-- `HOBD_MSG_SUBTYPE_TABLE_SUBGROUP`. -/
def hobdMsgSubtypeTableSubgroup : UInt8 := 0x72

/-- The type bytes of the protocol, which `valid_type` tells from the others, though to no effect.
-/
def ProtocolType (b : UInt8) : Prop :=
  b = hobdMsgTypeQuery ∨ b = hobdMsgTypeResponse ∨ b = hobdMsgTypeWakeUp

/-- The subtype bytes of the protocol, which `valid_subtype` tells from the others, though to no
effect. -/
def ProtocolSubtype (b : UInt8) : Prop :=
  b = hobdMsgSubtypeWakeUp ∨ b = hobdMsgSubtypeInit ∨ b = hobdMsgSubtypeTable ∨
    b = hobdMsgSubtypeTableSubgroup

instance (b : UInt8) : Decidable (ProtocolType b) :=
  inferInstanceAs (Decidable (_ ∨ _ ∨ _))

instance (b : UInt8) : Decidable (ProtocolSubtype b) :=
  inferInstanceAs (Decidable (_ ∨ _ ∨ _ ∨ _))

/-- The field `header.type` of the message a buffer holds. -/
def headerType (buffer : List UInt8) : UInt8 := buffer.getD 0 0

/-- The field `header.size` of the message a buffer holds. -/
def headerSize (buffer : List UInt8) : UInt8 := buffer.getD 1 0

/-- The field `header.subtype` of the message a buffer holds. -/
def headerSubtype (buffer : List UInt8) : UInt8 := buffer.getD 2 0

/-! ### The parser -/

/-- `hobd_error_kind`, what the parser answers a byte with. -/
inductive HobdErrorKind where
  /-- A message is complete. -/
  | none
  /-- No message yet. -/
  | noMsg
  | msgType
  | msgSubtype
  /-- A message is complete and its checksum is wrong. -/
  | checksum
  deriving DecidableEq, Repr

/-- The value an enumerator of `hobd_error_kind` has. -/
def HobdErrorKind.toUInt8 : HobdErrorKind → UInt8
  | .none => 0
  | .noMsg => 1
  | .msgType => 2
  | .msgSubtype => 3
  | .checksum => 4

/-- `hobd_parser_state_kind`. -/
inductive HobdParserStateKind where
  | getType
  | getSize
  | getSubtype
  | getData
  | getChecksum
  deriving DecidableEq, Repr

/-- `hobd_parser_s`. -/
structure HobdParser where
  state : HobdParserStateKind
  bytesRead : UInt8
  totalSize : UInt8
  checksum : UInt16
  validCount : UInt16
  invalidCount : UInt16
  /-- The memory `rx_buffer` points to. Bytes of earlier messages stay in it behind the ones that
  were last stored. -/
  rxBuffer : List UInt8
  rxBufferSize : UInt16
  deriving DecidableEq, Repr

/-- `valid_type`: the byte itself, or an error code if it is no type byte. The code is not the
number that the caller compares the answer with. -/
def validType (type : UInt8) : UInt8 :=
  if type = hobdMsgTypeQuery then type
  else if type = hobdMsgTypeResponse then type
  else if type = hobdMsgTypeWakeUp then type
  else HobdErrorKind.msgType.toUInt8

/-- `valid_subtype`: the byte itself, or an error code if it is no subtype byte. -/
def validSubtype (subtype : UInt8) : UInt8 :=
  if subtype = hobdMsgSubtypeWakeUp then subtype
  else if subtype = hobdMsgSubtypeInit then subtype
  else if subtype = hobdMsgSubtypeTableSubgroup then subtype
  else if subtype = hobdMsgSubtypeTable then subtype
  else HobdErrorKind.msgSubtype.toUInt8

/-- `invalid_reset`. -/
def invalidReset (p : HobdParser) : HobdParser :=
  { p with invalidCount := p.invalidCount + 1, state := .getType }

/-- `ready_parser`. -/
def readyParser (p : HobdParser) : HobdParser :=
  { p with bytesRead := 0, totalSize := 0, checksum := 0 }

/-- The store `rx_buffer[bytes_read] = byte; bytes_read += 1`. -/
def storeByte (byte : UInt8) (p : HobdParser) : HobdParser :=
  { p with rxBuffer := p.rxBuffer.set p.bytesRead.toNat byte, bytesRead := p.bytesRead + 1 }

/-- `update_byte`. -/
def updateByte (byte : UInt8) (p : HobdParser) : HobdParser :=
  { storeByte byte p with checksum := p.checksum + byte.toUInt16 }

/-- `hobd_parser_init`, which ends the program if the buffer is too small. -/
def hobdParserInit (rxBuffer : List UInt8) (rxBufferSize : UInt16) : Option HobdParser :=
  if rxBufferSize ≤ hobdMsgSizeMin.toUInt16 then none
  else some
    { state := .getType, bytesRead := 0, totalSize := 0, checksum := 0, validCount := 0,
      invalidCount := 0, rxBuffer := rxBuffer, rxBufferSize := rxBufferSize }

/-- `hobd_parser_reset`. -/
def hobdParserReset (p : HobdParser) : HobdParser := { readyParser p with state := .getType }

/-- The two-branch complement that both the parser and `hobd_parser_checksum` take of a
sum. -/
def complement (cs : UInt16) : UInt16 :=
  if cs > 0x0100 then 0x0100 - (cs &&& 0x00FF) else 0x0100 - cs

/-- `hobd_parser_parse_byte`: what the byte is answered with, and the parser after it. Every part
of a message but the payload is one byte, and a message without payload goes from its subtype
straight to its checksum. The byte that completes a message leaves all of it in the buffer, for
the caller to read before the next call. -/
def hobdParserParseByte (byte : UInt8) (p : HobdParser) : HobdErrorKind × HobdParser :=
  match p.state with
  | .getType =>
    let p := updateByte byte (readyParser p)
    if validType byte ≠ hobdMsgTypeInvalid then (.noMsg, { p with state := .getSize })
    else (.noMsg, p)
  | .getSize =>
    let p := updateByte byte p
    if byte > hobdMsgDataSizeMax then (.noMsg, invalidReset p)
    else if byte < hobdMsgSizeMin then (.noMsg, invalidReset p)
    else (.noMsg, { p with totalSize := byte, state := .getSubtype })
  | .getSubtype =>
    let p := updateByte byte p
    if validSubtype byte ≠ hobdMsgSubtypeInvalid then
      -- a message of the least size has no payload
      if p.totalSize = hobdMsgSizeMin then (.noMsg, { p with state := .getChecksum })
      else (.noMsg, { p with state := .getData })
    else (.noMsg, invalidReset p)
  | .getData =>
    let p := updateByte byte p
    -- `bytes_read + 1` is an `int` here
    if p.bytesRead.toNat + 1 = p.totalSize.toNat then (.noMsg, { p with state := .getChecksum })
    else (.noMsg, p)
  | .getChecksum =>
    -- the checksum byte is stored but not added to the sum
    let p := storeByte byte p
    let p := { p with checksum := complement p.checksum }
    if byte = (p.checksum &&& 0x00FF).toUInt8 then
      (.none, { p with validCount := p.validCount + 1, state := .getType })
    else (.checksum, { p with invalidCount := p.invalidCount + 1, state := .getType })

/-- `hobd_parser_checksum`, over the first `size` bytes of `data`. -/
def hobdParserChecksum (data : List UInt8) (size : UInt16) : UInt8 :=
  let cs := (List.range size.toNat).foldl (fun cs idx => cs + (data.getD idx 0).toUInt16) 0
  (complement cs &&& 0xFF).toUInt8

/-! ### The fields the helpers leave alone -/

section Fields

variable (byte : UInt8) (p : HobdParser)

@[simp] theorem readyParser_rxBuffer : (readyParser p).rxBuffer = p.rxBuffer := rfl

@[simp] theorem storeByte_totalSize : (storeByte byte p).totalSize = p.totalSize := rfl

@[simp] theorem storeByte_checksum : (storeByte byte p).checksum = p.checksum := rfl

@[simp] theorem storeByte_validCount : (storeByte byte p).validCount = p.validCount := rfl

@[simp] theorem storeByte_invalidCount : (storeByte byte p).invalidCount = p.invalidCount := rfl

@[simp] theorem length_storeByte : (storeByte byte p).rxBuffer.length = p.rxBuffer.length := by
  simp [storeByte]

@[simp] theorem updateByte_totalSize : (updateByte byte p).totalSize = p.totalSize := rfl

@[simp] theorem updateByte_validCount : (updateByte byte p).validCount = p.validCount := rfl

@[simp] theorem updateByte_invalidCount : (updateByte byte p).invalidCount = p.invalidCount := rfl

@[simp] theorem length_updateByte : (updateByte byte p).rxBuffer.length = p.rxBuffer.length := by
  simp [updateByte]

end Fields

/-! ### What the tests and the checksum compute -/

/-- **No byte is turned down as a type byte**: `valid_type` answers a foreign byte with
`HOBD_ERROR_MSG_TYPE`, and the parser looks for `HOBD_MSG_TYPE_INVALID`. -/
theorem validType_ne_invalid (b : UInt8) : validType b ≠ hobdMsgTypeInvalid := by
  unfold validType
  split_ifs with h1 h2 h3
  · rw [h1]
    decide
  · rw [h2]
    decide
  · rw [h3]
    decide
  · decide

/-- **No byte is turned down as a subtype byte**, for the same reason. -/
theorem validSubtype_ne_invalid (b : UInt8) : validSubtype b ≠ hobdMsgSubtypeInvalid := by
  unfold validSubtype
  split_ifs with h1 h2 h3 h4
  · rw [h1]
    decide
  · rw [h2]
    decide
  · rw [h3]
    decide
  · rw [h4]
    decide
  · decide

/-- The low byte of the complement is the byte that closes the sum, on either branch. -/
theorem complement_low (cs : UInt16) : (complement cs &&& 0x00FF).toUInt8 = negByte cs := by
  have hcs : cs.toNat < 65536 := cs.toNat_lt
  rw [eq_negByte_iff, UInt16.toNat_toUInt8, toNat_and_255]
  unfold complement
  split_ifs with h
  · rw [UInt16.toNat_sub, toNat_and_255]
    change (cs.toNat + (2 ^ 16 - cs.toNat % 256 + 256) % 2 ^ 16 % 256 % 2 ^ 8) % 256 = 0
    omega
  · have hle : cs.toNat ≤ 256 := by simpa [UInt16.lt_iff_toNat_lt] using h
    rw [UInt16.toNat_sub]
    change (cs.toNat + (2 ^ 16 - cs.toNat + 256) % 2 ^ 16 % 256 % 2 ^ 8) % 256 = 0
    omega

/-- The sum the loop of `hobd_parser_checksum` runs. -/
theorem foldl_range_getD (data : List UInt8) (n : ℕ) (hn : n ≤ data.length) :
    (List.range n).foldl (fun cs idx => cs + (data.getD idx 0).toUInt16) (0 : UInt16) =
      sum16 0 (data.take n) := by
  induction n with
  | zero => simp [sum16]
  | succ n ih =>
    have hlt : n < data.length := by omega
    rw [List.range_succ, List.foldl_append, ih (by omega), List.take_succ_eq_append_getElem hlt]
    simp only [sum16, List.foldl_append, List.foldl_cons, List.foldl_nil,
      List.getD_eq_getElem?_getD, List.getElem?_eq_getElem hlt, Option.getD_some]

/-- **The block checksum closes the sum of its block**: with it, the bytes add up to zero modulo
256, which is what the receiver checks. -/
theorem hobdParserChecksum_spec (data : List UInt8) (size : UInt16)
    (hsize : size.toNat ≤ data.length) :
    (byteSum (data.take size.toNat) + (hobdParserChecksum data size).toNat) % 256 = 0 := by
  have h : hobdParserChecksum data size = negByte (sum16 0 (data.take size.toNat)) := by
    rw [hobdParserChecksum, foldl_range_getD data _ hsize]
    exact complement_low _
  have hz := (eq_negByte_iff _ _).mp h
  rw [toNat_sum16] at hz
  simp only [UInt16.toNat_zero, Nat.zero_add] at hz
  omega

end HobdSystem
