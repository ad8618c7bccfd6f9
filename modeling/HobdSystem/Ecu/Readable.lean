import HobdSystem.Ecu.Answers
import HobdSystem.Hobd.RoundTrip

/-!
# Table responses the system can read

The emulator takes a query for a part of a table if the part is in the page, so for up to 255
bytes. Its response has six bytes more. Three bounds are in the way of a response that long: the
size byte holds at most 255, the transmit buffer has 259 bytes, and the parser of the system turns
down a size above 251. The last of them is the one that counts: **a response can be read exactly
if at most 245 bytes are asked for** (`HobdSystem.readable_iff`).

A response can be read if it does what a response is for (`HobdSystem.Readable`). The emulator has
to get to its end and leave a response in its transmit buffer that is as long as it says it is;
the parser of the system has to accept it, whatever that parser has read before; and the bytes in
it have to be those of the page. The first two fail in different ways. Between 246 and 249 bytes
the emulator sends what it should, and the parser drops it at its size byte. From 250 on the size
byte of the response has wrapped around, and what is sent is not a response at all.

That no more than 245 bytes can be asked for is therefore a statement about every response there
could be: a message that is accepted has a size byte of at most 251, and six bytes of it are not
data (`HobdSystem.count_le_of_readable`).
-/

namespace HobdSystem

open Bytes Framing Run

/-- A query for some bytes of a table, from an offset on. -/
def tableRequest (table offset count checksum : UInt8) : List UInt8 :=
  [0x72, 0x07, 0x72, table, offset, count, checksum]

/-- **A query is answered so that the system can read it**: `handle_rx_message` ends with a
response in the transmit buffer that is as long as it says, any parser at a boundary accepts that
response, and it has the table, the offset and the bytes that were asked for. -/
def Readable (ecu : Ecu) (msg : List UInt8) (page : Vector UInt8 255) : Prop :=
  ∃ bytes tx, handleRxMessage msg ecu = ⟨[.send bytes], some { ecu with txBuffer := tx }⟩ ∧
    bytes.length = 6 + (queryCount msg).toNat ∧
    (headerSize bytes).toNat = 6 + (queryCount msg).toNat ∧
    (∀ p : HobdParser, p.state = .getType → 251 ≤ p.rxBuffer.length → Accepts p bytes) ∧
    queryTable bytes = queryTable msg ∧ queryOffset bytes = queryOffset msg ∧
    (bytes.drop 5).take (queryCount msg).toNat =
      (page.toList.drop (queryOffset msg).toNat).take (queryCount msg).toNat

section Response

variable {ecu : Ecu} {msg data : List UInt8} {page : Vector UInt8 255}

theorem queriedData_eq (hpage : getDataTable (queryTable msg) ecu.pages = some page) :
    queriedData ecu.pages msg =
      some ((page.toList.drop (queryOffset msg).toNat).take (queryCount msg).toNat) := by
  unfold queriedData
  split_ifs with hzero
  · rw [hpage]
    rfl
  · rw [not_ne_iff.mp hzero]
    rfl

/-- One byte closes a response. -/
theorem tableResponse_checksum {table offset c d : UInt8}
    (hc : byteSum (tableResponse table offset data c) % 256 = 0)
    (hd : byteSum (tableResponse table offset data d) % 256 = 0) : c = d :=
  eq_of_byteSum (l := 0x02 :: UInt8.ofNat (data.length + 6) :: 0x72 :: table :: offset :: data)
    hc hd

/-- A response with at most 245 bytes of a table is a frame, so it is accepted. -/
theorem accepts_tableResponse {table offset c : UInt8} (hlen : data.length ≤ 245)
    (hsum : byteSum (tableResponse table offset data c) % 256 = 0) {p : HobdParser}
    (hstate : p.state = .getType) (hbuf : 251 ≤ p.rxBuffer.length) :
    Accepts p (tableResponse table offset data c) := by
  obtain ⟨f, hf⟩ := exists_responseFrame hlen hsum
  rw [← hf]
  exact accepts_of_complete hstate hbuf f.complete f.sum_eq

/-- A response that any parser accepts is not longer than that. -/
theorem count_le_of_readable (h : Readable ecu msg page) : (queryCount msg).toNat ≤ 245 := by
  obtain ⟨bytes, tx, -, hlen, hsize, haccepts, -⟩ := h
  have hgood : ¬hobdFormat.badSize (headerSize bytes) :=
    not_badSize_of_accepts (p := ⟨.getType, 0, 0, 0, 0, 0, List.replicate 512 0, 512⟩) rfl
      (by rw [List.length_replicate]; omega) (by omega)
      (haccepts _ rfl (by rw [List.length_replicate]; omega))
  rw [hobdFormat_badSize, hsize] at hgood
  omega

variable (ecu msg) in
/-- A query for at most 249 bytes of a page is answered with these bytes. -/
theorem handleRxMessage_page (htype : headerType msg = hobdMsgTypeQuery)
    (hsubtype : headerSubtype msg = hobdMsgSubtypeTableSubgroup)
    (hpage : getDataTable (queryTable msg) ecu.pages = some page)
    (hfits : (queryOffset msg).toNat + (queryCount msg).toNat ≤ 255)
    (hcount : (queryCount msg).toNat ≤ 249)
    (hdata : (page.toList.drop (queryOffset msg).toNat).take (queryCount msg).toNat = data) :
    data.length = (queryCount msg).toNat ∧ ∃ tx c,
      handleRxMessage msg ecu = ⟨[.send (tableResponse (queryTable msg) (queryOffset msg) data c)],
        some { ecu with txBuffer := tx }⟩ ∧
      byteSum (tableResponse (queryTable msg) (queryOffset msg) data c) % 256 = 0 := by
  have hqueried : queriedData ecu.pages msg = some data := by rw [queriedData_eq hpage, hdata]
  rcases handleRxMessage_table ecu htype hsubtype with
    ⟨hbad | hbad, -⟩ | ⟨data', hsome, hlen, ⟨-, hsend⟩ | ⟨hmany, -⟩⟩
  · omega
  · exact absurd (hqueried.symm.trans hbad) (Option.some_ne_none _)
  · obtain rfl := Option.some.inj (hqueried.symm.trans hsome)
    exact ⟨hlen, hsend⟩
  · omega

/-- A query for at most 245 bytes gets a response that can be read. -/
theorem readable_of_count_le (htype : headerType msg = hobdMsgTypeQuery)
    (hsubtype : headerSubtype msg = hobdMsgSubtypeTableSubgroup)
    (hpage : getDataTable (queryTable msg) ecu.pages = some page)
    (hfits : (queryOffset msg).toNat + (queryCount msg).toNat ≤ 255)
    (hcount : (queryCount msg).toNat ≤ 245) : Readable ecu msg page := by
  obtain ⟨hlen, tx, c, hsend, hsum⟩ :=
    handleRxMessage_page ecu msg htype hsubtype hpage hfits (by omega) rfl
  refine ⟨_, tx, hsend, ?_, ?_, fun p hstate hbuf => ?_, rfl, rfl, ?_⟩
  · rw [length_tableResponse, hlen, Nat.add_comm]
  · change (UInt8.ofNat (_ + 6)).toNat = _
    rw [UInt8.toNat_ofNat', hlen]
    omega
  · exact accepts_tableResponse (by omega) hsum hstate hbuf
  · change List.take _ (_ ++ [c]) = _
    rw [List.take_left' hlen]

end Response

/-- **Exactly when a query the emulator takes is answered so that the system can read it**: if it
asks for at most 245 bytes. -/
theorem readable_iff (ecu : Ecu) (f : HobdFrame) (table offset count c : UInt8)
    (hf : f.bytes = tableRequest table offset count c) (rest : List UInt8)
    (page : Vector UInt8 255) (hpage : getDataTable table ecu.pages = some page)
    (hfits : offset.toNat + count.toNat ≤ hobdTableSizeMax) :
    Readable ecu (f.bytes ++ rest) page ↔ count.toNat ≤ 245 := by
  rw [hf]
  have htype : headerType (tableRequest table offset count c ++ rest) = hobdMsgTypeQuery := rfl
  exact ⟨count_le_of_readable, readable_of_count_le htype rfl hpage hfits⟩

/-- A query for 245 bytes of table `0x10`. -/
def longestRequest : HobdFrame where
  bytes := tableRequest 0x10 0x00 0xF5 0x10
  type_mem := by decide
  subtype_mem := by decide
  size_eq := by decide
  four_le := by decide
  length_le := by decide
  sum_eq := by decide

theorem readable_iff_longest :
    ∃ ecu, ecuNew ecuNewPages = ⟨[], some ecu⟩ ∧
      Readable ecu (longestRequest.bytes ++ []) ecuNewPages.table10 :=
  ⟨_, rfl, (readable_iff _ longestRequest 0x10 0x00 0xF5 0x10 rfl [] ecuNewPages.table10 rfl
    (by decide)).mpr (by decide)⟩

/-- A query for 246 bytes passes the check of the emulator. The response has 252 bytes, and the
parser of the system does not answer any of them with `HOBD_ERROR_NONE`. -/
theorem not_readable_252 :
    ∃ ecu p bytes, ecuNew ecuNewPages = ⟨[], some ecu⟩ ∧
      hobdParserInit (List.replicate 512 0) 512 = some p ∧
      (handleRxMessage (tableRequest 0x10 0x00 0xF6 0x0F) ecu).trace = [.send bytes] ∧
      headerSize bytes = 252 ∧ HobdErrorKind.none ∉ answers hobdParserParseByte p bytes := by
  have hdata : (ecuNewPages.table10.toList.drop 0).take 246 = List.replicate 246 0xAA := by
    decide +kernel
  obtain ⟨-, tx, c, hsend, hsum⟩ := handleRxMessage_page
    (resetState ⟨.wait4Wakeup, ⟨.getType, 0, 0, 0, 0, 0, List.replicate 259 0, 259⟩, ecuNewPages,
      Vector.replicate 259 0⟩)
    (tableRequest 0x10 0x00 0xF6 0x0F) rfl rfl rfl (by decide) (by decide) hdata
  obtain rfl : c = 0x24 := tableResponse_checksum hsum (by decide +kernel)
  exact ⟨_, _, _, rfl, rfl, congrArg Traced.trace hsend, by decide +kernel, by decide +kernel⟩

end HobdSystem
