import HobdSystem.Hobd.Frame
import HobdSystem.Hobd.Msg

/-!
# Decoding undoes encoding

What the encoder builds is a frame, and a stream of frames is delivered frame by frame, so
**messages sent one after the other are received one after the other**
(`HobdSystem.parser_decodes_stream`), whatever was in the buffers before. A message that can be
sent is a `HobdSystem.Outgoing`, which has its own conditions as fields: a type and a subtype of
the protocol, a payload that is short enough and a transmit buffer that it fits into. The two
functions of the encoder are told apart by a flag, and both send the same bytes
(`HobdSystem.Outgoing.bytes_spec`).

The two ends do not agree on how long a message may be. `HOBD_MSG_DATA_SIZE_MAX` bounds the
payload, and the parser holds the size of the whole message against it: a payload of 248 to 251
bytes can be built, and it is dropped at its size byte. What the parser then makes of the rest is
an accident of the payload. It never has the message, but it may well have *another* one, made of
bytes of the payload, and answer the last byte with `HOBD_ERROR_NONE` for it.

So there are two ways to say that a length is too much, and `HobdSystem.accepts_iff` has both: no
message with such a payload is accepted, and not all of the messages of such a length end with
`HOBD_ERROR_NONE`. For the second it takes a payload that is certain not to end so, and zeros will
do: the parser reads them in pairs, of a type and a size that is too small, and never gets to a
header (`HobdSystem.final_zeros_length`).
-/

namespace HobdSystem

open Bytes Framing Run

/-! ### A message on its way -/

/-- A message of the protocol and the transmit buffer it is built in. The bound on the payload is
that of the parser; the encoder itself would take four bytes more. -/
structure Outgoing where
  type : UInt8
  subtype : UInt8
  payload : List UInt8
  /-- The transmit buffer, with whatever was in it. -/
  tx : List UInt8
  /-- Whether `hobd_msg_no_data` builds it. -/
  noData : Bool
  type_mem : ProtocolType type
  subtype_mem : ProtocolSubtype subtype
  length_le : payload.length ≤ 247
  room : payload.length + 4 ≤ tx.length
  noData_payload : noData = true → payload = []

namespace Outgoing

variable (m : Outgoing)

/-- The bytes that are sent. -/
def bytes : List UInt8 :=
  sentBytes (if m.noData then hobdMsgNoData m.type m.subtype m.tx
    else hobdMsg m.type m.subtype (UInt8.ofNat m.payload.length) (putData m.payload m.tx))

/-- **Both ways of building a message send the same bytes**: the header, the payload and
the byte that closes the sum. -/
theorem bytes_spec :
    ∃ c, m.bytes = m.type :: UInt8.ofNat (m.payload.length + 4) :: m.subtype ::
        (m.payload ++ [c]) ∧ byteSum m.bytes % 256 = 0 := by
  obtain ⟨c, hc, hsum⟩ :=
    hobdMsg_spec m.type m.subtype m.payload m.tx (m.length_le.trans (by omega)) m.room
  have hbytes : m.bytes =
      sentBytes (hobdMsg m.type m.subtype (UInt8.ofNat m.payload.length)
        (putData m.payload m.tx)) := by
    rw [bytes]
    by_cases hno : m.noData = true
    · rw [if_pos hno, hobdMsgNoData_eq, m.noData_payload hno]
      rfl
    · rw [if_neg hno]
  exact ⟨c, hbytes.trans hc, by rw [hbytes, hc, hsum]⟩

theorem length_bytes : m.bytes.length = m.payload.length + 4 := by
  obtain ⟨c, hc, -⟩ := m.bytes_spec
  rw [hc]
  simp

/-- What is sent is a frame. -/
def frame : HobdFrame where
  bytes := m.bytes
  type_mem := by
    obtain ⟨c, hc, -⟩ := m.bytes_spec
    rw [hc]
    exact m.type_mem
  subtype_mem := by
    obtain ⟨c, hc, -⟩ := m.bytes_spec
    rw [hc]
    exact m.subtype_mem
  size_eq := by
    obtain ⟨c, hc, -⟩ := m.bytes_spec
    rw [m.length_bytes, hc]
    exact toNat_ofNat_add_four (m.length_le.trans (by omega))
  four_le := by
    rw [m.length_bytes]
    omega
  length_le := by
    have := m.length_le
    rw [m.length_bytes]
    omega
  sum_eq := by
    obtain ⟨-, -, hsum⟩ := m.bytes_spec
    exact hsum

end Outgoing

/-! ### Streams of messages -/

/-- A stream of frames, from a boundary on: each is delivered at its last byte. -/
theorem run_frames (fs : List HobdFrame) :
    answers (collect hobdFormat) [] (fs.flatMap HobdFrame.bytes) =
        fs.flatMap (fun f => List.replicate (f.bytes.length - 1) .pending ++
          [.delivered f.bytes]) ∧
      final (collect hobdFormat) [] (fs.flatMap HobdFrame.bytes) = [] := by
  induction fs with
  | nil => exact ⟨rfl, rfl⟩
  | cons f fs ih =>
    obtain ⟨hans, hfin⟩ := f.run
    rw [List.flatMap_cons, List.flatMap_cons, answers_append, final_append, hans, hfin, ih.1]
    exact ⟨rfl, ih.2⟩

/-- The frames of a stream are counted one by one. -/
theorem countP_frames (fs : List HobdFrame) :
    (answers (collect hobdFormat) [] (fs.flatMap HobdFrame.bytes)).countP Verdict.isValid =
        fs.length ∧
      (answers (collect hobdFormat) [] (fs.flatMap HobdFrame.bytes)).countP Verdict.isInvalid =
        0 := by
  rw [(run_frames fs).1]
  induction fs with
  | nil => exact ⟨rfl, rfl⟩
  | cons f fs ih =>
    constructor
    · rw [List.flatMap_cons, List.countP_append, ih.1]
      simp [Verdict.isValid, List.countP_replicate, Nat.add_comm]
    · rw [List.flatMap_cons, List.countP_append, ih.2]
      simp [Verdict.isInvalid, List.countP_replicate]

/-- **Messages sent one after the other are received one after the other.** The parser
answers the last byte of each message with `HOBD_ERROR_NONE` and no other byte, has the
message in its buffer then, and counts it. -/
theorem parser_decodes_stream (p : HobdParser) (hstate : p.state = .getType)
    (hbuf : 251 ≤ p.rxBuffer.length) (ms : List Outgoing) :
    answers hobdParserParseByte p (ms.flatMap Outgoing.bytes) =
        ms.flatMap (fun m => List.replicate (m.payload.length + 3) .noMsg ++ [.none]) ∧
      (∀ before m after, ms = before ++ m :: after → ∃ c,
        (final hobdParserParseByte p ((before ++ [m]).flatMap Outgoing.bytes)).rxBuffer.take
            (m.payload.length + 4) =
          m.type :: UInt8.ofNat (m.payload.length + 4) :: m.subtype :: (m.payload ++ [c]) ∧
        m.bytes =
          m.type :: UInt8.ofNat (m.payload.length + 4) :: m.subtype :: (m.payload ++ [c])) ∧
      (final hobdParserParseByte p (ms.flatMap Outgoing.bytes)).validCount =
        p.validCount + UInt16.ofNat ms.length ∧
      (final hobdParserParseByte p (ms.flatMap Outgoing.bytes)).invalidCount =
        p.invalidCount := by
  have hreads : Reads [] p := reads_nil hstate
  have hframes : ∀ ms : List Outgoing, ms.flatMap Outgoing.bytes =
      (ms.map Outgoing.frame).flatMap HobdFrame.bytes := by
    intro ms
    rw [List.flatMap_map]
    rfl
  obtain ⟨hans, -, -⟩ := run_reads (ms.flatMap Outgoing.bytes) hreads
  obtain ⟨hvalid, hinvalid⟩ := run_counts (ms.flatMap Outgoing.bytes) hreads
  rw [hframes, (countP_frames _).1, List.length_map] at hvalid
  rw [hframes, (countP_frames _).2] at hinvalid
  refine ⟨?_, ?_, ?_, ?_⟩
  · rw [hans, hframes, (run_frames _).1, List.flatMap_map, List.map_flatMap]
    refine List.flatMap_congr fun m _ => ?_
    change List.map verdictCode (List.replicate (m.bytes.length - 1) .pending ++ _) = _
    rw [m.length_bytes, List.map_append, List.map_replicate]
    rfl
  · rintro before m after -
    obtain ⟨c, hc, -⟩ := m.bytes_spec
    refine ⟨c, ?_, hc⟩
    -- the stream up to this message ends with its frame
    have hlast : (answers (collect hobdFormat) []
        ((before ++ [m]).flatMap Outgoing.bytes)).getLast? = some (.delivered m.bytes) := by
      rw [hframes, (run_frames _).1, List.map_append, List.flatMap_append]
      simp [Outgoing.frame]
    obtain ⟨-, -, hlen⟩ := run_reads ((before ++ [m]).flatMap Outgoing.bytes) hreads
    obtain ⟨hholds, hcomplete⟩ := holds_delivered_last hreads hlast
    rw [← hc, ← m.length_bytes]
    exact hholds.take_eq (by rw [hlen]; exact hcomplete.length_le.trans hbuf)
  · rw [hframes, hvalid]
  · rw [hframes, hinvalid]
    simp

/-- The wake-up message and the diagnostic init message, in buffers that just hold them. -/
def initMessages : List Outgoing :=
  [⟨0xFE, 0xFF, [], [1, 2, 3, 4], true, by decide, by decide, by decide, by decide, by decide⟩,
    ⟨0x72, 0x00, [0xF0], [1, 2, 3, 4, 5], false, by decide, by decide, by decide, by decide,
      by decide⟩]

theorem parser_decodes_stream_init :
    ∃ p, hobdParserInit (List.replicate 512 0) 512 = some p ∧
      initMessages.flatMap Outgoing.bytes =
        [0xFE, 0x04, 0xFF, 0xFF, 0x72, 0x05, 0x00, 0xF0, 0x99] ∧
      (final hobdParserParseByte p (initMessages.flatMap Outgoing.bytes)).validCount = 2 :=
  ⟨_, rfl, by decide,
    (parser_decodes_stream _ rfl (by rw [List.length_replicate]; omega) initMessages).2.2.1⟩

/-! ### The longest message -/

section Longest

variable {payload tx : List UInt8}

/-- What `hobd_msg` sends for a payload. -/
abbrev msgBytes (t st : UInt8) (payload tx : List UInt8) : List UInt8 :=
  sentBytes (hobdMsg t st (UInt8.ofNat payload.length) (putData payload tx))

/-- Zeros never complete a header. -/
theorem collect_zero_length {pre : List UInt8} (h : pre.length ≤ 1) :
    (collect hobdFormat 0 pre).2.length ≤ 1 := by
  match pre with
  | [] => simp [collect]
  | [t] => simp [collect, hobdFormat_badSize]
  | _ :: _ :: _ => simp at h

theorem final_zeros_length (n : ℕ) {pre : List UInt8} (h : pre.length ≤ 1) :
    (final (collect hobdFormat) pre (List.replicate n 0)).length ≤ 1 := by
  induction n generalizing pre with
  | zero => exact h
  | succ n ih => exact ih (collect_zero_length h)

/-- A payload of more than 247 zeros is not delivered: the parser drops the message at its
size byte and reads the rest in pairs. -/
theorem msgBytes_zeros (t st : UInt8) {n : ℕ} (hn : 247 < n) (hn' : n ≤ 251)
    (hroom : n + 4 ≤ tx.length) (f : List UInt8) :
    (answers (collect hobdFormat) [] (msgBytes t st (List.replicate n 0) tx)).getLast? ≠
      some (.delivered f) := by
  obtain ⟨c, hc, -⟩ := hobdMsg_spec t st (List.replicate n 0) tx
    (by rwa [List.length_replicate]) (by rwa [List.length_replicate])
  rw [List.length_replicate] at hc
  have hsize : hobdFormat.badSize (UInt8.ofNat (n + 4)) := by
    rw [hobdFormat_badSize, toNat_ofNat_add_four hn']
    omega
  -- in front of the checksum no header is complete
  have hshort : (final (collect hobdFormat) []
      (t :: UInt8.ofNat (n + 4) :: st :: List.replicate n 0)).length ≤ 1 := by
    rw [final_cons, collect, if_neg (by simp), final_cons, collect, if_pos hsize, final_cons,
      collect, if_neg (by simp)]
    exact final_zeros_length n (by simp)
  have hsplit : t :: UInt8.ofNat (n + 4) :: st :: (List.replicate n 0 ++ [c]) =
      (t :: UInt8.ofNat (n + 4) :: st :: List.replicate n 0) ++ [c] := by simp
  rw [msgBytes, List.length_replicate, hc, hsplit, getLast?_answers_concat]
  intro hlast
  obtain ⟨t', s', st', body, hpre⟩ := header_of_collect_delivered (Option.some.inj hlast)
  rw [hpre] at hshort
  simp at hshort

/-- **The parser accepts a message**: it answers the last byte with `HOBD_ERROR_NONE` and has the
message in its buffer. The answer alone would not do, since it may be for another message that
ends there. -/
def Accepts (p : HobdParser) (bytes : List UInt8) : Prop :=
  (answers hobdParserParseByte p bytes).getLast? = some .none ∧
    (final hobdParserParseByte p bytes).rxBuffer.take bytes.length = bytes

variable {p : HobdParser}

/-- A complete message that sums to zero is accepted. -/
theorem accepts_of_complete (hstate : p.state = .getType) (hbuf : 251 ≤ p.rxBuffer.length)
    {bytes : List UInt8} (hcomplete : Complete hobdFormat bytes)
    (hsum : byteSum bytes % 256 = 0) : Accepts p bytes := by
  have hreads : Reads [] p := reads_nil hstate
  have hshort : bytes.length ≤ 251 := hcomplete.length_le
  have hlast : (answers (collect hobdFormat) [] bytes).getLast? = some (.delivered bytes) := by
    obtain ⟨t, s, st, r, rfl, hs, hlen⟩ := hcomplete
    rw [(run_frame (hobdFormat_rejectType t) hs (hobdFormat_rejectSubtype st) hlen).1,
      List.getLast?_concat, close, if_pos hsum]
  obtain ⟨hans, -, hkeep⟩ := run_reads bytes hreads
  refine ⟨by rw [hans, List.getLast?_map, hlast]; rfl,
    (holds_delivered_last hreads hlast).1.take_eq ?_⟩
  rw [hkeep]
  exact hshort.trans hbuf

/-- **A message that is accepted has a size byte within bounds**: what the parser has in its buffer
at a message it delivers does. -/
theorem not_badSize_of_accepts (hstate : p.state = .getType) (hbuf : 251 ≤ p.rxBuffer.length)
    {bytes : List UInt8} (hlen : 2 ≤ bytes.length) (h : Accepts p bytes) :
    ¬hobdFormat.badSize (headerSize bytes) := by
  obtain ⟨hlast, htake⟩ := h
  have hreads : Reads [] p := reads_nil hstate
  obtain ⟨-, -, hkeep⟩ := run_reads bytes hreads
  obtain ⟨g, hv⟩ := exists_delivered_last hreads hlast
  obtain ⟨hholds, t, s, st, r, rfl, hs, -⟩ := holds_delivered_last hreads hv
  -- both the message and what was delivered begin the buffer, so their size bytes agree
  generalize (final hobdParserParseByte p bytes).rxBuffer = buffer at htake hholds hkeep
  have hdelivered : buffer[1]? = some s := hholds 1 (by simp) (by omega)
  rw [← List.getElem?_take_of_lt (show 1 < bytes.length by omega), htake] at hdelivered
  rwa [headerSize, List.getD_eq_getElem?_getD, hdelivered]

theorem accepts_of_length_le (hstate : p.state = .getType) (hbuf : 251 ≤ p.rxBuffer.length)
    (t st : UInt8) (hlen : payload.length ≤ 247) (hroom : payload.length + 4 ≤ tx.length) :
    Accepts p (msgBytes t st payload tx) := by
  obtain ⟨c, hc, hsum⟩ := hobdMsg_spec t st payload tx (hlen.trans (by omega)) hroom
  have hsize := toNat_ofNat_add_four (hlen.trans (by omega : 247 ≤ 251))
  rw [msgBytes, hc]
  refine accepts_of_complete hstate hbuf ⟨t, _, st, payload ++ [c], rfl, ?_, ?_⟩ hsum
  · rw [hobdFormat_badSize, hsize]
    omega
  · rw [hsize]
    simp

theorem length_le_of_accepts (hstate : p.state = .getType) (hbuf : 251 ≤ p.rxBuffer.length)
    {t st : UInt8} (hlen : payload.length ≤ 251) (hroom : payload.length + 4 ≤ tx.length)
    (h : Accepts p (msgBytes t st payload tx)) : payload.length ≤ 247 := by
  obtain ⟨c, hc, -⟩ := hobdMsg_spec t st payload tx hlen hroom
  rw [msgBytes, hc] at h
  have hsize : ¬hobdFormat.badSize (UInt8.ofNat (payload.length + 4)) :=
    not_badSize_of_accepts hstate hbuf (by simp) h
  rw [hobdFormat_badSize, toNat_ofNat_add_four hlen] at hsize
  omega

end Longest

/-- **The encoder and the parser agree on messages of up to 247 bytes of payload and on no
longer ones.** A message is accepted exactly when its payload is that short, and a length
is one whose messages all end with `HOBD_ERROR_NONE` exactly when it is that small: among
longer payloads some end so, with another message in the buffer. -/
theorem accepts_iff (p : HobdParser) (hstate : p.state = .getType)
    (hbuf : 251 ≤ p.rxBuffer.length) (t st : UInt8) :
    (∀ payload tx : List UInt8, payload.length ≤ 251 → payload.length + 4 ≤ tx.length →
      (Accepts p (msgBytes t st payload tx) ↔ payload.length ≤ 247)) ∧
    ∀ n ≤ 251, ∀ tx : List UInt8, n + 4 ≤ tx.length →
      ((∀ payload : List UInt8, payload.length = n →
        (answers hobdParserParseByte p (msgBytes t st payload tx)).getLast? = some .none) ↔
        n ≤ 247) := by
  refine ⟨fun payload tx hlen hroom => ⟨length_le_of_accepts hstate hbuf hlen hroom,
    fun h => accepts_of_length_le hstate hbuf t st h hroom⟩,
    fun n hn tx hroom => ⟨fun h => ?_, ?_⟩⟩
  · -- among the longer payloads the zeros are not delivered
    by_contra hlong
    have hlast := h (List.replicate n 0) (List.length_replicate ..)
    obtain ⟨f, hv⟩ := exists_delivered_last (reads_nil hstate) hlast
    exact msgBytes_zeros t st (by omega) hn hroom f hv
  · rintro h payload rfl
    exact (accepts_of_length_le hstate hbuf t st h hroom).1

/-- A table message with 247 bytes of payload is accepted. -/
theorem accepts_iff_longest :
    ∃ p, hobdParserInit (List.replicate 512 0) 512 = some p ∧
      Accepts p (msgBytes hobdMsgTypeResponse hobdMsgSubtypeTable (List.replicate 247 1)
        (List.replicate 256 0)) :=
  ⟨_, rfl, ((accepts_iff _ rfl (by rw [List.length_replicate]; omega) hobdMsgTypeResponse
    hobdMsgSubtypeTable).1 (List.replicate 247 1) (List.replicate 256 0)
    (by rw [List.length_replicate]; omega)
    (by rw [List.length_replicate, List.length_replicate]; omega)).mpr
    (by rw [List.length_replicate])⟩

/-- A table message with 248 zeros of payload does not end with `HOBD_ERROR_NONE`. -/
theorem not_accepts_zeros :
    ∃ p, hobdParserInit (List.replicate 512 0) 512 = some p ∧
      (answers hobdParserParseByte p (msgBytes hobdMsgTypeResponse hobdMsgSubtypeTable
        (List.replicate 248 0) (List.replicate 256 0))).getLast? ≠ some .none := by
  refine ⟨_, rfl, fun hlast => ?_⟩
  obtain ⟨f, hv⟩ := exists_delivered_last (reads_nil rfl) hlast
  exact msgBytes_zeros hobdMsgTypeResponse hobdMsgSubtypeTable (by omega) (by omega)
    (by rw [List.length_replicate]; omega) f hv

end HobdSystem
