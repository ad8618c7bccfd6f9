import HobdSystem.Hobd.Parser
import HobdSystem.Library.Framing
import Mathlib.Tactic.Ring

/-!
# The parser is a deframer

The five states, the index and the running sum of the parser are one thing: **the bytes of the
frame it has read so far**. `HobdSystem.Reads` says so, state by state, and
`HobdSystem.parseByte_reads` is the whole of the simulation: a byte fed to a parser that has read
`pre` does what `Framing.collect` does to `pre`. What the parser turns down is
`HobdSystem.hobdFormat`, whose tests are the source's own.

The relation carries the bounds that make the simulation go through. The size byte of an open
frame is between 4 and 251 and the frame is shorter than it, so the 8-bit index never wraps, the
test that leaves `GET_DATA` is met exactly once, and 250 bytes cannot overflow the 16-bit sum.
None of this would hold of a parser in an arbitrary state: it is true because of how the state
came about, and that is what an invariant is for. A parser in `GET_TYPE` has read nothing,
whatever is in its other fields, since `ready_parser` clears them when the next byte comes; so
`HobdSystem.Reads` says nothing about what is stored at a boundary.

There is one lemma for each state (`HobdSystem.parseByte_type` and the ones behind it), with the
two outcomes of the size byte apart. They are put together over the number of bytes that have been
read, and then over whole streams (`HobdSystem.run_reads`), with the two counters carried along:
they are 16 bits wide and go round, so they are the numbers of messages only modulo `2 ^ 16`.

**The streaming parser is the deframer of the whole stream**
(`HobdSystem.parser_refines_deframer`). All later results about received messages rest on this
file, and none of them opens the definition of the parser again.
-/

namespace HobdSystem

open Bytes Framing Run

/-- What the parser turns down: the bytes that fail its own tests, and the sizes that are
not between 4 and 251. -/
def hobdFormat : Format where
  rejectType b := validType b == hobdMsgTypeInvalid
  rejectSubtype b := validSubtype b == hobdMsgSubtypeInvalid
  minSize := 4
  maxSize := 251
  four_le_minSize := le_rfl

@[simp] theorem hobdFormat_rejectType (b : UInt8) : hobdFormat.rejectType b = false :=
  beq_eq_false_iff_ne.mpr (validType_ne_invalid b)

@[simp] theorem hobdFormat_rejectSubtype (b : UInt8) : hobdFormat.rejectSubtype b = false :=
  beq_eq_false_iff_ne.mpr (validSubtype_ne_invalid b)

theorem hobdFormat_badSize {s : UInt8} :
    hobdFormat.badSize s ↔ s.toNat < 4 ∨ 251 < s.toNat := Iff.rfl

/-- The code the parser answers a verdict with. -/
def verdictCode : Verdict → HobdErrorKind
  | .pending => .noMsg
  | .dropped => .noMsg
  | .delivered _ => .none
  | .corrupt => .checksum

theorem verdictCode_eq_none {v : Verdict} : verdictCode v = .none ↔ ∃ f, v = .delivered f := by
  cases v <;> simp [verdictCode]

/-! ### A buffer that holds some bytes -/

/-- The buffer holds the bytes from its start on, as far as it reaches. A frame that is longer
than the buffer leaves only its beginning in it. -/
def Holds (buffer bytes : List UInt8) : Prop :=
  ∀ i, i < bytes.length → i < buffer.length → buffer[i]? = bytes[i]?

theorem Holds.take_eq {buffer bytes : List UInt8} (h : Holds buffer bytes)
    (hlen : bytes.length ≤ buffer.length) : buffer.take bytes.length = bytes := by
  refine List.ext_getElem? fun i => ?_
  rcases Nat.lt_or_ge i bytes.length with hi | hi
  · rw [List.getElem?_take_of_lt hi]
    exact h i hi (by omega)
  · rw [List.getElem?_take_eq_none hi, List.getElem?_eq_none hi]

theorem holds_nil (buffer : List UInt8) : Holds buffer [] := fun i hi => by simp at hi

/-- A store behind the bytes a buffer holds. -/
theorem Holds.snoc {buffer bytes : List UInt8} (h : Holds buffer bytes) (b : UInt8) :
    Holds (buffer.set bytes.length b) (bytes ++ [b]) := by
  intro i hi hb
  rw [List.length_append, List.length_singleton] at hi
  rw [List.length_set] at hb
  rcases Nat.lt_or_ge i bytes.length with hlt | hge
  · rw [List.getElem?_set_ne (by omega), List.getElem?_append_left hlt]
    exact h i hlt hb
  · obtain rfl : i = bytes.length := by omega
    rw [List.getElem?_set_self hb, List.getElem?_append_right le_rfl]
    simp

/-! ### The bytes a parser has read -/

/-- The state of a parser that has read the bytes of a frame. -/
def stateOf : List UInt8 → HobdParserStateKind
  | [] => .getType
  | [_] => .getSize
  | [_, _] => .getSubtype
  | _ :: s :: _ :: body => if body.length + 4 = s.toNat then .getChecksum else .getData

/-- The buffer of a parser holds the bytes `pre`, its index counts them and its sum adds
them up. -/
structure Stored (pre : List UInt8) (p : HobdParser) : Prop where
  holds : Holds p.rxBuffer pre
  bytesRead : p.bytesRead.toNat = pre.length
  checksum : p.checksum.toNat = byteSum pre

theorem stored_readyParser (p : HobdParser) : Stored [] (readyParser p) :=
  ⟨holds_nil _, rfl, rfl⟩

theorem Stored.bytesRead_add {pre : List UInt8} {p : HobdParser} (h : Stored pre p)
    (hlen : pre.length < 251) : (p.bytesRead + 1).toNat = pre.length + 1 := by
  rw [UInt8.toNat_add, h.bytesRead]
  change (pre.length + 1) % 2 ^ 8 = pre.length + 1
  omega

/-- `update_byte` stores one more byte: neither the index nor the sum wraps below 251
bytes. -/
theorem Stored.updateByte {pre : List UInt8} {p : HobdParser} (h : Stored pre p)
    (hlen : pre.length < 251) (b : UInt8) : Stored (pre ++ [b]) (updateByte b p) := by
  refine ⟨?_, ?_, ?_⟩
  · change Holds (p.rxBuffer.set p.bytesRead.toNat b) (pre ++ [b])
    rw [h.bytesRead]
    exact h.holds.snoc b
  · rw [List.length_append, List.length_singleton]
    exact h.bytesRead_add hlen
  · change (p.checksum + b.toUInt16).toNat = byteSum (pre ++ [b])
    have hsum : byteSum pre ≤ 255 * pre.length := byteSum_le pre
    have hb : b.toNat < 256 := b.toNat_lt
    rw [UInt16.toNat_add, h.checksum, UInt8.toNat_toUInt16, byteSum_append, byteSum_cons,
      byteSum_nil]
    omega

/-- **The parser has read the bytes `pre` of the frame that is open**: its state is that
of `pre`, it has them stored, and their size byte – when it is among them – is within
bounds and still ahead. -/
structure Reads (pre : List UInt8) (p : HobdParser) : Prop where
  state : p.state = stateOf pre
  stored : pre ≠ [] → Stored pre p
  totalSize : ∀ t s l, pre = t :: s :: l →
    p.totalSize = s ∧ 4 ≤ s.toNat ∧ s.toNat ≤ 251 ∧ l.length + 2 < s.toNat

/-- A parser in `GET_TYPE` has read nothing. -/
theorem reads_nil {p : HobdParser} (h : p.state = .getType) : Reads [] p :=
  ⟨h, fun hc => absurd rfl hc, by simp⟩

theorem Reads.isOpen {pre : List UInt8} {p : HobdParser} (h : Reads pre p) :
    Open hobdFormat pre := by
  rintro t s l heq
  obtain ⟨-, hmin, hmax, hahead⟩ := h.totalSize t s l heq
  exact ⟨by rw [hobdFormat_badSize]; omega, hahead⟩

/-- A parser has read what it has stored, from the size byte on, if the size is within bounds
and still ahead and the state is right. -/
theorem Stored.reads {t s : UInt8} {l : List UInt8} {p q : HobdParser} (h : Stored (t :: s :: l) p)
    (hbuf : q.rxBuffer = p.rxBuffer) (hidx : q.bytesRead = p.bytesRead)
    (hsum : q.checksum = p.checksum) (htot : q.totalSize = s) (hmin : 4 ≤ s.toNat)
    (hmax : s.toNat ≤ 251) (hahead : l.length + 2 < s.toNat)
    (hstate : q.state = stateOf (t :: s :: l)) : Reads (t :: s :: l) q := by
  refine ⟨hstate, fun _ => ⟨hbuf ▸ h.holds, hidx ▸ h.bytesRead, hsum ▸ h.checksum⟩, ?_⟩
  rintro t' s' l' heq
  obtain ⟨-, rfl, rfl⟩ : t = t' ∧ s = s' ∧ l = l' := by simpa using heq
  exact ⟨htot, hmin, hmax, hahead⟩

/-- What a byte with the verdict `v` does to the parser, apart from its answer: it has
read `pre'` afterwards, the verdict is counted, and a delivered frame is in the buffer. -/
structure Moves (v : Verdict) (pre' : List UInt8) (p p' : HobdParser) : Prop where
  reads : Reads pre' p'
  validCount : p'.validCount = p.validCount + if v.isValid then 1 else 0
  invalidCount : p'.invalidCount = p.invalidCount + if v.isInvalid then 1 else 0
  length : p'.rxBuffer.length = p.rxBuffer.length
  frame : ∀ f, v = .delivered f → Holds p'.rxBuffer f

/-- A byte that decides nothing is not counted. -/
theorem moves_pending {pre' : List UInt8} {p p' : HobdParser} (hreads : Reads pre' p')
    (hvalid : p'.validCount = p.validCount) (hinvalid : p'.invalidCount = p.invalidCount)
    (hlen : p'.rxBuffer.length = p.rxBuffer.length) : Moves .pending pre' p p' :=
  ⟨hreads, by simp [Verdict.isValid, hvalid], by simp [Verdict.isInvalid, hinvalid], hlen,
    by simp⟩

/-! ### One byte -/

section Step

variable {p : HobdParser} {t s st b : UInt8} {body : List UInt8}

/-- `GET_TYPE`: no byte is turned down, so every byte opens a frame. -/
theorem parseByte_type (h : Reads [] p) :
    (hobdParserParseByte b p).1 = .noMsg ∧ Moves .pending [b] p (hobdParserParseByte b p).2 := by
  have hst : p.state = .getType := h.state
  have hs := (stored_readyParser p).updateByte (by simp) b
  simp only [hobdParserParseByte, hst, if_pos (validType_ne_invalid b)]
  refine ⟨trivial, moves_pending ⟨rfl, fun _ => ?_, by simp⟩ rfl rfl (by simp)⟩
  exact ⟨hs.holds, hs.bytesRead, hs.checksum⟩

/-- `GET_SIZE`, a size out of bounds: on either side the frame is dropped. -/
theorem parseByte_badSize (h : Reads [t] p) (hb : hobdFormat.badSize b) :
    (hobdParserParseByte b p).1 = .noMsg ∧ Moves .dropped [] p (hobdParserParseByte b p).2 := by
  have hst : p.state = .getSize := h.state
  have hmoves : Moves .dropped [] p (invalidReset (updateByte b p)) :=
    ⟨reads_nil rfl, by simp [Verdict.isValid, invalidReset],
      by simp [Verdict.isInvalid, invalidReset], by simp [invalidReset], by simp⟩
  simp only [hobdParserParseByte, hst]
  by_cases hmax : b > hobdMsgDataSizeMax
  · rw [if_pos hmax]
    exact ⟨rfl, hmoves⟩
  · have hmin : b < hobdMsgSizeMin := UInt8.lt_iff_toNat_lt.mpr
      ((hobdFormat_badSize.mp hb).resolve_right fun hc => hmax (UInt8.lt_iff_toNat_lt.mpr hc))
    rw [if_neg hmax, if_pos hmin]
    exact ⟨rfl, hmoves⟩

/-- `GET_SIZE`, a size within bounds. -/
theorem parseByte_size (h : Reads [t] p) (hb : ¬hobdFormat.badSize b) :
    (hobdParserParseByte b p).1 = .noMsg ∧
      Moves .pending [t, b] p (hobdParserParseByte b p).2 := by
  have hst : p.state = .getSize := h.state
  have hs := (h.stored (by simp)).updateByte (by simp) b
  rw [hobdFormat_badSize, not_or, not_lt, not_lt] at hb
  have hmax : ¬b > hobdMsgDataSizeMax := UInt8.not_lt.mpr (UInt8.le_iff_toNat_le.mpr hb.2)
  have hmin : ¬b < hobdMsgSizeMin := UInt8.not_lt.mpr (UInt8.le_iff_toNat_le.mpr hb.1)
  simp only [hobdParserParseByte, hst, if_neg hmax, if_neg hmin]
  refine ⟨trivial, moves_pending ?_ rfl rfl (by simp)⟩
  exact hs.reads rfl rfl rfl rfl hb.1 hb.2 (by simp; omega) rfl

/-- `GET_SUBTYPE`: no byte is turned down. A frame of four bytes has no payload. -/
theorem parseByte_subtype (h : Reads [t, s] p) :
    (hobdParserParseByte b p).1 = .noMsg ∧
      Moves .pending [t, s, b] p (hobdParserParseByte b p).2 := by
  have hst : p.state = .getSubtype := h.state
  have hs := (h.stored (by simp)).updateByte (by simp) b
  obtain ⟨htot, hmin, hmax, -⟩ := h.totalSize t s [] rfl
  have hahead : [b].length + 2 < s.toNat := by
    rw [List.length_singleton]
    omega
  have hsize : (updateByte b p).totalSize = hobdMsgSizeMin ↔ 4 = s.toNat := by
    rw [updateByte_totalSize, htot, ← UInt8.toNat_inj]
    exact eq_comm
  simp only [hobdParserParseByte, hst, if_pos (validSubtype_ne_invalid b)]
  by_cases h4 : 4 = s.toNat
  · rw [if_pos (hsize.mpr h4)]
    refine ⟨rfl, moves_pending ?_ rfl rfl (by simp)⟩
    exact hs.reads rfl rfl rfl htot hmin hmax hahead (by simp [stateOf, h4])
  · rw [if_neg (fun hc => h4 (hsize.mp hc))]
    refine ⟨rfl, moves_pending ?_ rfl rfl (by simp)⟩
    exact hs.reads rfl rfl rfl htot hmin hmax hahead (by simp [stateOf, h4])

/-- `GET_DATA`: the byte is stored, and the state is left when only the checksum is
missing. -/
theorem parseByte_data (h : Reads (t :: s :: st :: body) p) (hlen : body.length + 4 < s.toNat) :
    (hobdParserParseByte b p).1 = .noMsg ∧
      Moves .pending (t :: s :: st :: (body ++ [b])) p (hobdParserParseByte b p).2 := by
  have hst : p.state = .getData := by rw [h.state, stateOf, if_neg (by omega)]
  obtain ⟨htot, hmin, hmax, -⟩ := h.totalSize t s (st :: body) rfl
  have hs := (h.stored (by simp)).updateByte (by simp; omega) b
  have hahead : (st :: (body ++ [b])).length + 2 < s.toNat := by
    simp only [List.length_cons, List.length_append, List.length_nil]
    omega
  have hidx : (updateByte b p).bytesRead.toNat = body.length + 4 := by
    rw [hs.bytesRead]
    simp
  simp only [hobdParserParseByte, hst]
  by_cases hend : body.length + 5 = s.toNat
  · rw [if_pos (by rw [hidx, updateByte_totalSize, htot]; exact hend)]
    refine ⟨rfl, moves_pending ?_ rfl rfl (by simp)⟩
    exact hs.reads rfl rfl rfl htot hmin hmax hahead (by simp [stateOf, ← hend])
  · rw [if_neg (by rw [hidx, updateByte_totalSize, htot]; exact hend)]
    refine ⟨rfl, moves_pending (hs.reads rfl rfl rfl htot hmin hmax hahead ?_) rfl rfl (by simp)⟩
    change (updateByte b p).state = stateOf (t :: s :: st :: (body ++ [b]))
    rw [stateOf, if_neg (by simpa using hend)]
    exact hst

/-- `GET_CHECKSUM`: the byte that closes the sum delivers the frame, any other does not. -/
theorem parseByte_checksum (h : Reads (t :: s :: st :: body) p)
    (hlen : body.length + 4 = s.toNat) :
    (hobdParserParseByte b p).1 = verdictCode (close (t :: s :: st :: (body ++ [b]))) ∧
      Moves (close (t :: s :: st :: (body ++ [b]))) [] p (hobdParserParseByte b p).2 := by
  have hst : p.state = .getChecksum := by rw [h.state, stateOf, if_pos hlen]
  obtain ⟨-, -, hmax, -⟩ := h.totalSize t s (st :: body) rfl
  have hs := h.stored (by simp)
  have hholds : Holds (storeByte b p).rxBuffer (t :: s :: st :: (body ++ [b])) :=
    (hs.updateByte (by simp; omega) b).holds
  -- the sum in the parser is that of the bytes in front of the checksum
  have hsum : b = (complement (storeByte b p).checksum &&& 0x00FF).toUInt8 ↔
      byteSum (t :: s :: st :: (body ++ [b])) % 256 = 0 := by
    rw [complement_low, eq_negByte_iff, storeByte_checksum, hs.checksum]
    simp only [byteSum_cons, byteSum_append, byteSum_nil]
    ring_nf
  simp only [hobdParserParseByte, hst]
  by_cases hok : byteSum (t :: s :: st :: (body ++ [b])) % 256 = 0
  · rw [if_pos (hsum.mpr hok), close, if_pos hok]
    refine ⟨rfl, reads_nil rfl, by simp [Verdict.isValid], by simp [Verdict.isInvalid],
      by simp, ?_⟩
    rintro f hf
    obtain rfl := Verdict.delivered.inj hf
    exact hholds
  · rw [if_neg (fun hc => hok (hsum.mp hc)), close, if_neg hok]
    exact ⟨rfl, reads_nil rfl, by simp [Verdict.isValid], by simp [Verdict.isInvalid],
      by simp, by simp⟩

end Step

/-- **A byte does to the parser what it does to the open frame.** The cases are the numbers of
bytes that have been read, which are the states of the parser. -/
theorem parseByte_reads {pre : List UInt8} {p : HobdParser} (h : Reads pre p) (b : UInt8) :
    (hobdParserParseByte b p).1 = verdictCode (collect hobdFormat b pre).1 ∧
      Moves (collect hobdFormat b pre).1 (collect hobdFormat b pre).2 p
        (hobdParserParseByte b p).2 := by
  match pre with
  | [] =>
    rw [collect, hobdFormat_rejectType, if_neg (by simp)]
    exact parseByte_type h
  | [t] =>
    rw [collect]
    by_cases hb : hobdFormat.badSize b
    · rw [if_pos hb]
      exact parseByte_badSize h hb
    · rw [if_neg hb]
      exact parseByte_size h hb
  | [t, s] =>
    rw [collect, hobdFormat_rejectSubtype, if_neg (by simp)]
    exact parseByte_subtype h
  | t :: s :: st :: body =>
    obtain ⟨-, -, -, hahead⟩ := h.totalSize t s (st :: body) rfl
    rw [List.length_cons] at hahead
    rcases Nat.lt_or_eq_of_le (show body.length + 4 ≤ s.toNat by omega) with hlt | heq
    · rw [collect_body hlt]
      exact parseByte_data h hlt
    · rw [collect_close heq]
      exact parseByte_checksum h heq

/-! ### A whole stream -/

section Stream

variable {pre : List UInt8} {p : HobdParser}

/-- **A stream does to the parser what it does to the open frame**, with every verdict
counted on the way. -/
theorem run_reads (bytes : List UInt8) : ∀ {pre : List UInt8} {p : HobdParser}, Reads pre p →
    answers hobdParserParseByte p bytes =
        (answers (collect hobdFormat) pre bytes).map verdictCode ∧
      Reads (final (collect hobdFormat) pre bytes) (final hobdParserParseByte p bytes) ∧
      (final hobdParserParseByte p bytes).rxBuffer.length = p.rxBuffer.length := by
  induction bytes with
  | nil => exact fun h => ⟨rfl, h, rfl⟩
  | cons b bytes ih =>
    intro pre p h
    obtain ⟨hcode, hmoves⟩ := parseByte_reads h b
    obtain ⟨hans, hreads, hlen⟩ := ih hmoves.reads
    refine ⟨?_, hreads, hlen.trans hmoves.length⟩
    rw [answers_cons, answers_cons, List.map_cons, hcode, hans]

theorem run_counts (bytes : List UInt8) : ∀ {pre : List UInt8} {p : HobdParser}, Reads pre p →
    (final hobdParserParseByte p bytes).validCount = p.validCount +
        UInt16.ofNat ((answers (collect hobdFormat) pre bytes).countP Verdict.isValid) ∧
      (final hobdParserParseByte p bytes).invalidCount = p.invalidCount +
        UInt16.ofNat ((answers (collect hobdFormat) pre bytes).countP Verdict.isInvalid) := by
  induction bytes with
  | nil => exact fun h => ⟨by simp, by simp⟩
  | cons b bytes ih =>
    intro pre p h
    obtain ⟨-, hmoves⟩ := parseByte_reads h b
    obtain ⟨hv, hi⟩ := ih hmoves.reads
    rw [final_cons, answers_cons, List.countP_cons, List.countP_cons, hv, hi,
      hmoves.validCount, hmoves.invalidCount]
    constructor
    · split_ifs <;> simp [UInt16.ofNat_add, UInt16.add_assoc, UInt16.add_comm 1]
    · split_ifs <;> simp [UInt16.ofNat_add, UInt16.add_assoc, UInt16.add_comm 1]

/-- **A delivered frame is in the buffer** when its last byte is answered, and from there the
thread takes it. The next byte overwrites its first one. -/
theorem holds_delivered (h : Reads pre p) {bytes : List UInt8} {i : ℕ} {f : List UInt8}
    (hi : (answers (collect hobdFormat) pre bytes)[i]? = some (.delivered f)) :
    Holds (final hobdParserParseByte p (bytes.take (i + 1))).rxBuffer f := by
  rw [getElem?_answers] at hi
  obtain ⟨b, hb, hv⟩ := Option.map_eq_some_iff.mp hi
  obtain ⟨-, hreads, -⟩ := run_reads (bytes.take i) h
  rw [final_take_succ _ _ hb]
  exact (parseByte_reads hreads b).2.frame f hv

end Stream

theorem hobdParserInit_eq_some {rxBuffer : List UInt8} {rxBufferSize : UInt16} {p : HobdParser}
    (h : hobdParserInit rxBuffer rxBufferSize = some p) :
    4 < rxBufferSize.toNat ∧ p.state = .getType ∧ p.validCount = 0 ∧ p.invalidCount = 0 ∧
      p.rxBuffer = rxBuffer ∧ p.rxBufferSize = rxBufferSize := by
  unfold hobdParserInit at h
  split_ifs at h with hsize
  obtain rfl := Option.some.inj h
  refine ⟨?_, rfl, rfl, rfl, rfl, rfl⟩
  rw [UInt16.le_iff_toNat_le] at hsize
  exact not_le.mp hsize

/-- **The streaming parser is the deframer of the whole stream.** Its answers are the
codes of the reference's verdicts, its counters are the reference's counts modulo `2 ^ 16`,
and where the reference delivers a frame the receive buffer begins with that frame. -/
theorem parser_refines_deframer (rxBuffer : List UInt8) (rxBufferSize : UInt16) (p : HobdParser)
    (hinit : hobdParserInit rxBuffer rxBufferSize = some p) (hbuf : 251 ≤ rxBuffer.length)
    (bytes : List UInt8) :
    answers hobdParserParseByte p bytes = (deframe hobdFormat bytes).map verdictCode ∧
      (final hobdParserParseByte p bytes).validCount =
        UInt16.ofNat ((deframe hobdFormat bytes).countP Verdict.isValid) ∧
      (final hobdParserParseByte p bytes).invalidCount =
        UInt16.ofNat ((deframe hobdFormat bytes).countP Verdict.isInvalid) ∧
      ∀ i frame, (deframe hobdFormat bytes)[i]? = some (.delivered frame) →
        (final hobdParserParseByte p (bytes.take (i + 1))).rxBuffer.take frame.length = frame := by
  obtain ⟨-, hstate, hvalid, hinvalid, hrx, -⟩ := hobdParserInit_eq_some hinit
  have hreads : Reads [] p := reads_nil hstate
  obtain ⟨hans, -, -⟩ := run_reads bytes hreads
  obtain ⟨hv, hi⟩ := run_counts bytes hreads
  rw [hvalid, UInt16.zero_add, answers_collect] at hv
  rw [hinvalid, UInt16.zero_add, answers_collect] at hi
  rw [answers_collect] at hans
  refine ⟨hans, hv, hi, fun i frame hframe => ?_⟩
  -- a frame is no longer than the buffer, so the buffer begins with it
  rw [← answers_collect] at hframe
  obtain ⟨-, -, hlen⟩ := run_reads (bytes.take (i + 1)) hreads
  have hshort : frame.length ≤ 251 := (delivered_complete open_nil hframe).1.length_le
  exact (holds_delivered hreads hframe).take_eq (by rw [hlen, hrx]; omega)

/-- The parser of the system, on the answer an ECU gives to the diagnostic init message. -/
theorem parser_refines_deframer_init :
    ∃ p, hobdParserInit (List.replicate 512 0) 512 = some p ∧
      answers hobdParserParseByte p [0x02, 0x04, 0x00, 0xFA] =
        (deframe hobdFormat [0x02, 0x04, 0x00, 0xFA]).map verdictCode :=
  ⟨_, rfl, (parser_refines_deframer (List.replicate 512 0) 512 _ rfl
    (by rw [List.length_replicate]; omega) _).1⟩

end HobdSystem
