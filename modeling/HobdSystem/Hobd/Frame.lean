import HobdSystem.Hobd.Deframe

/-!
# Frames of the protocol

A well-formed frame, as a value that carries its own well-formedness: a type and a subtype of the
protocol, a size byte that counts the frame and is within the bounds of the parser, and bytes that
sum to zero. A theorem about a frame then has no hypotheses about its bytes, and a frame that is
not well formed cannot be passed to it. The parser itself accepts more than that, since it turns
down neither types nor subtypes; the frames here are those that the protocol means.

The file is the bridge between such values and a parser that is in the middle of its work. What is
known of the parser is which bytes of the open frame it has read (`HobdSystem.Reads`), and there
are two directions.

* **From a frame to the parser**: fed from a boundary on, a frame is delivered at its last byte
  and not before (`HobdSystem.HobdFrame.run`); in the middle of it, a byte that belongs to the
  frame is kept and decides nothing (`HobdSystem.HobdFrame.parse_next`,
  `HobdSystem.HobdFrame.parse_last`).
* **From the parser to a frame**: a byte that is answered with `HOBD_ERROR_NONE` completes the
  frame that is open, and the frame is in the receive buffer (`HobdSystem.parseByte_delivers`),
  also where the frame was begun in an earlier stream (`HobdSystem.holds_delivered_last`).
-/

namespace HobdSystem

open Bytes Framing Run

/-- A well-formed frame of the protocol. The bounds on its length are those of the parser, which
has a size byte of 8 bits and turns down what is longer than 251 bytes. -/
structure HobdFrame where
  bytes : List UInt8
  type_mem : ProtocolType (headerType bytes)
  subtype_mem : ProtocolSubtype (headerSubtype bytes)
  size_eq : (headerSize bytes).toNat = bytes.length
  four_le : 4 ≤ bytes.length
  length_le : bytes.length ≤ 251
  sum_eq : byteSum bytes % 256 = 0

/-- The wake-up message, `FE 04 FF FF`. -/
def wakeUpFrame : HobdFrame where
  bytes := [0xFE, 0x04, 0xFF, 0xFF]
  type_mem := by decide
  subtype_mem := by decide
  size_eq := by decide
  four_le := by decide
  length_le := by decide
  sum_eq := by decide

/-- The header of a frame and the rest of it. -/
theorem HobdFrame.exists_eq (f : HobdFrame) :
    ∃ t s st r, f.bytes = t :: s :: st :: r ∧ ¬hobdFormat.badSize s ∧ r.length + 3 = s.toNat := by
  have hfour := f.four_le
  have hle := f.length_le
  have hsize := f.size_eq
  match hf : f.bytes with
  | [] | [_] | [_, _] => rw [hf] at hfour; simp at hfour
  | t :: s :: st :: r =>
    rw [hf] at hfour hle hsize
    simp only [List.length_cons] at hfour hle hsize
    replace hsize : s.toNat = r.length + 1 + 1 + 1 := hsize
    exact ⟨t, s, st, r, rfl, by rw [hobdFormat_badSize]; omega, by omega⟩

theorem HobdFrame.ne_nil (f : HobdFrame) : f.bytes ≠ [] := fun hc => by
  have := f.four_le
  rw [hc, List.length_nil] at this
  omega

theorem HobdFrame.complete (f : HobdFrame) : Complete hobdFormat f.bytes := by
  obtain ⟨t, s, st, r, hf, hs, hlen⟩ := f.exists_eq
  exact ⟨t, s, st, r, hf, hs, hlen⟩

/-- A frame read from a boundary is delivered at its last byte and not before. -/
theorem HobdFrame.run (f : HobdFrame) :
    answers (collect hobdFormat) [] f.bytes =
        List.replicate (f.bytes.length - 1) .pending ++ [.delivered f.bytes] ∧
      final (collect hobdFormat) [] f.bytes = [] := by
  have hsum := f.sum_eq
  obtain ⟨t, s, st, r, hf, hs, hlen⟩ := f.exists_eq
  obtain ⟨hans, hfin⟩ := run_frame (hobdFormat_rejectType t) hs (hobdFormat_rejectSubtype st) hlen
  rw [hf] at hsum ⊢
  rw [hans, hfin, close, if_pos hsum, ← hlen]
  exact ⟨rfl, rfl⟩

/-- **What a byte of a frame does to the bytes in front of it**: it is added to them, or it is the
last one and the frame is delivered. -/
theorem HobdFrame.collect_eq (f : HobdFrame) {pre rest : List UInt8} {b : UInt8}
    (h : f.bytes = pre ++ b :: rest) :
    collect hobdFormat b pre =
      if rest = [] then (.delivered f.bytes, []) else (.pending, pre ++ [b]) := by
  obtain ⟨t, s, st, r, hf, hs, hlen⟩ := f.exists_eq
  have hfour := not_badSize_four_le hs
  rw [hf] at h
  match pre with
  | [] =>
    obtain ⟨rfl, rfl⟩ : t = b ∧ s :: st :: r = rest := by simpa using h
    rw [collect, hobdFormat_rejectType, if_neg (by simp), if_neg (by simp)]
    rfl
  | [t'] =>
    obtain ⟨rfl, rfl, rfl⟩ : t = t' ∧ s = b ∧ st :: r = rest := by simpa using h
    rw [collect, if_neg hs, if_neg (by simp)]
    rfl
  | [t', s'] =>
    obtain ⟨rfl, rfl, rfl, rfl⟩ : t = t' ∧ s = s' ∧ st = b ∧ r = rest := by simpa using h
    have hne : r ≠ [] := by
      rw [← List.length_pos_iff]
      omega
    rw [collect, hobdFormat_rejectSubtype, if_neg (by simp), if_neg hne]
    rfl
  | t' :: s' :: st' :: body =>
    obtain ⟨rfl, rfl, rfl, rfl⟩ : t = t' ∧ s = s' ∧ st = st' ∧ r = body ++ b :: rest := by
      simpa using h
    rw [List.length_append, List.length_cons] at hlen
    cases rest with
    | nil =>
      have hsum := f.sum_eq
      rw [hf] at hsum
      rw [List.length_nil] at hlen
      rw [collect_close (by omega), close, if_pos hsum, if_pos rfl, hf]
    | cons c rest =>
      rw [List.length_cons] at hlen
      rw [collect_body (by omega), if_neg (List.cons_ne_nil _ _)]
      rfl

/-- A byte inside a frame is kept, and decides nothing. -/
theorem HobdFrame.parse_next (f : HobdFrame) {pre rest : List UInt8} {b : UInt8} {p : HobdParser}
    (h : f.bytes = pre ++ b :: rest) (hrest : rest ≠ []) (hp : Reads pre p) :
    (hobdParserParseByte b p).1 ≠ .none ∧ Reads (pre ++ [b]) (hobdParserParseByte b p).2 ∧
      (hobdParserParseByte b p).2.rxBuffer.length = p.rxBuffer.length := by
  have hcollect := f.collect_eq h
  rw [if_neg hrest] at hcollect
  obtain ⟨hcode, hmoves⟩ := parseByte_reads hp b
  rw [hcollect] at hcode hmoves
  exact ⟨by rw [hcode]; exact nofun, hmoves.reads, hmoves.length⟩

/-- The last byte of a frame delivers it. -/
theorem HobdFrame.parse_last (f : HobdFrame) {pre : List UInt8} {b : UInt8} {p : HobdParser}
    (h : f.bytes = pre ++ [b]) (hp : Reads pre p) :
    (hobdParserParseByte b p).1 = .none ∧ (hobdParserParseByte b p).2.state = .getType ∧
      Holds (hobdParserParseByte b p).2.rxBuffer f.bytes ∧
      (hobdParserParseByte b p).2.rxBuffer.length = p.rxBuffer.length := by
  have hcollect := f.collect_eq h
  rw [if_pos rfl] at hcollect
  obtain ⟨hcode, hmoves⟩ := parseByte_reads hp b
  rw [hcollect] at hcode hmoves
  exact ⟨hcode, hmoves.reads.state, hmoves.frame _ rfl, hmoves.length⟩

/-- A buffer with a frame at its start has the bytes of the frame. -/
theorem Holds.getD_eq {buffer : List UInt8} {f : HobdFrame} (h : Holds buffer f.bytes)
    (hlen : 251 ≤ buffer.length) {i : ℕ} (hi : i < f.bytes.length) :
    buffer.getD i 0 = f.bytes.getD i 0 := by
  have hle := f.length_le
  rw [List.getD_eq_getElem?_getD, List.getD_eq_getElem?_getD, h i hi (by omega)]

theorem Holds.headerType_eq {buffer l : List UInt8} {t : UInt8} (h : Holds buffer (t :: l))
    (hlen : 0 < buffer.length) : headerType buffer = t := by
  have h0 := h 0 (by simp) hlen
  rw [headerType, List.getD_eq_getElem?_getD, h0]
  rfl

theorem Holds.headerSubtype_eq {buffer l : List UInt8} {t s st : UInt8}
    (h : Holds buffer (t :: s :: st :: l)) (hlen : 2 < buffer.length) :
    headerSubtype buffer = st := by
  have h2 := h 2 (by simp) hlen
  rw [headerSubtype, List.getD_eq_getElem?_getD, h2]
  rfl

/-- **A byte answered with `HOBD_ERROR_NONE` completes the frame that is open**: the parser is at
a boundary again and has the frame in its buffer. -/
theorem parseByte_delivers {pre : List UInt8} {p : HobdParser} (h : Reads pre p) {b : UInt8}
    (hcode : (hobdParserParseByte b p).1 = .none) :
    (collect hobdFormat b pre).1 = .delivered (pre ++ [b]) ∧
      Complete hobdFormat (pre ++ [b]) ∧ byteSum (pre ++ [b]) % 256 = 0 ∧
      (hobdParserParseByte b p).2.state = .getType ∧
      Holds (hobdParserParseByte b p).2.rxBuffer (pre ++ [b]) := by
  obtain ⟨hverdict, hmoves⟩ := parseByte_reads h b
  obtain ⟨f, hf⟩ := verdictCode_eq_none.mp (hverdict.symm.trans hcode)
  obtain ⟨rfl, hcomplete, hsum⟩ := collect_delivered h.isOpen hf
  have hreads := hmoves.reads
  rw [collect_delivered_next hf] at hreads
  exact ⟨hf, hcomplete, hsum, hreads.state, hmoves.frame _ hf⟩

/-- A stream whose last byte is answered with `HOBD_ERROR_NONE` ends with a delivery. -/
theorem exists_delivered_last {pre : List UInt8} {p : HobdParser} (h : Reads pre p)
    {bytes : List UInt8} (hlast : (answers hobdParserParseByte p bytes).getLast? = some .none) :
    ∃ f, (answers (collect hobdFormat) pre bytes).getLast? = some (.delivered f) := by
  rw [(run_reads bytes h).1, List.getLast?_map] at hlast
  obtain ⟨v, hv, hcode⟩ := Option.map_eq_some_iff.mp hlast
  obtain ⟨f, rfl⟩ := verdictCode_eq_none.mp hcode
  exact ⟨f, hv⟩

/-- A frame delivered at the end of a stream is in the buffer there. -/
theorem holds_delivered_last {pre : List UInt8} {p : HobdParser} (h : Reads pre p)
    {bytes f : List UInt8}
    (hlast : (answers (collect hobdFormat) pre bytes).getLast? = some (.delivered f)) :
    Holds (final hobdParserParseByte p bytes).rxBuffer f ∧ Complete hobdFormat f := by
  rw [List.getLast?_eq_getElem?, length_answers] at hlast
  have hpos : bytes ≠ [] := by
    rintro rfl
    simp at hlast
  have hholds := holds_delivered h hlast
  rw [Nat.sub_add_cancel (List.length_pos_iff.mpr hpos), List.take_length] at hholds
  exact ⟨hholds, (delivered_complete h.isOpen hlast).1⟩

end HobdSystem
