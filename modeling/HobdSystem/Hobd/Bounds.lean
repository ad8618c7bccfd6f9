import HobdSystem.Hobd.Resync

/-!
# Where the parser writes

A parser is used by calls of `hobd_parser_parse_byte` and `hobd_parser_reset`, in any order. Every
byte is stored, at `HobdSystem.storeIndex`, and whatever the calls are the parser has read the
bytes of some open frame: that is the invariant of the deframer, and what it says of the fields of
the parser is `HobdSystem.ParserInvariant`.

The two are the same invariant, told twice. `HobdSystem.Reads` speaks of a list of bytes that is
nowhere in the parser, which is what the proofs are made with; `HobdSystem.ParserInvariant` speaks
of the fields only, state by state, and could be checked by an assertion in the source. Of the
bounds in it, those on the index and on the size byte are the ones that matter: an open frame has
at most 250 bytes (`HobdSystem.Reads.length_le`), so a byte is stored at 250 at most, the index
does not go round, and from a frame whose size has been read the parser gets to its end
(`HobdSystem.parser_invariant`).

The size that `hobd_parser_init` is given is kept and never looked at again. The parser stays
below it because a frame has at most 251 bytes, and **not otherwise**: the check in
`hobd_parser_init` admits every buffer of five bytes or more, and with a buffer below 251 some
frame is stored behind its end (`HobdSystem.stores_within_iff`). The frame that does it is one
byte longer than the buffer (`HobdSystem.overlong`); it need not be a frame of the protocol, nor
have a right checksum, since its last byte is stored before the sum is looked at.
-/

namespace HobdSystem

open Bytes Framing Run

/-! ### Stores -/

/-- The index a byte is stored at. In `GET_TYPE` the parser is made ready first. -/
def storeIndex (p : HobdParser) : ℕ :=
  if p.state = .getType then (readyParser p).bytesRead.toNat else p.bytesRead.toNat

/-- The sum a byte is added to. -/
def sumBefore (p : HobdParser) : ℕ :=
  if p.state = .getType then (readyParser p).checksum.toNat else p.checksum.toNat

/-- An event stores nothing at `size` or behind it. In the source a store at the size of the
buffer is one to the memory behind it, which belongs to something else. -/
def StoresBelow (size : ℕ) (p : HobdParser) : ParserEvent → Prop
  | .byte _ => storeIndex p < size
  | .reset => True

/-- **A byte is stored, once and at `storeIndex`**, and nothing else is. The parser does not
compare the index with the size of the buffer anywhere, so this holds of every state. -/
theorem parseByte_rxBuffer (byte : UInt8) (p : HobdParser) :
    (hobdParserParseByte byte p).2.rxBuffer = p.rxBuffer.set (storeIndex p) byte := by
  unfold hobdParserParseByte storeIndex
  cases p.state <;> simp only [reduceCtorEq, if_true, if_false] <;> split_ifs <;> rfl

/-- The index counts the bytes that are stored. -/
theorem parseByte_bytesRead (byte : UInt8) (p : HobdParser) :
    (hobdParserParseByte byte p).2.bytesRead = UInt8.ofNat (storeIndex p) + 1 := by
  unfold hobdParserParseByte storeIndex
  cases p.state <;> simp only [reduceCtorEq, if_true, if_false, UInt8.ofNat_toNat] <;>
    split_ifs <;> rfl

/-- Every byte but the checksum is added to the sum. -/
theorem parseByte_sum (byte : UInt8) {p : HobdParser} (h : p.state ≠ .getChecksum) :
    (hobdParserParseByte byte p).2.checksum = UInt16.ofNat (sumBefore p) + byte.toUInt16 := by
  unfold hobdParserParseByte sumBefore
  cases hstate : p.state with
  | getChecksum => exact absurd hstate h
  | _ =>
    simp only [reduceCtorEq, if_true, if_false, UInt16.ofNat_toNat]
    split_ifs <;> rfl

/-! ### The open frame -/

section Open

variable {pre : List UInt8} {p : HobdParser}

theorem stateOf_cons_ne (t : UInt8) (l : List UInt8) : stateOf (t :: l) ≠ .getType := by
  match l with
  | [] => simp [stateOf]
  | [_] => simp [stateOf]
  | _ :: _ :: _ =>
    rw [stateOf]
    split_ifs <;> decide

/-- A byte is stored behind the ones that have been read of its frame. -/
theorem Reads.storeIndex_eq (h : Reads pre p) : storeIndex p = pre.length := by
  cases pre with
  | nil => exact if_pos h.state
  | cons t l =>
    rw [storeIndex, if_neg (h.state ▸ stateOf_cons_ne t l)]
    exact (h.stored (List.cons_ne_nil t l)).bytesRead

/-- A byte is added to the sum of the ones that have been read of its frame. -/
theorem Reads.sumBefore_eq (h : Reads pre p) : sumBefore p = byteSum pre := by
  cases pre with
  | nil => exact if_pos h.state
  | cons t l =>
    rw [sumBefore, if_neg (h.state ▸ stateOf_cons_ne t l)]
    exact (h.stored (List.cons_ne_nil t l)).checksum

/-- An open frame has at most 250 bytes. -/
theorem Reads.length_le (h : Reads pre p) : pre.length ≤ 250 := by
  match pre with
  | [] => simp
  | [_] => simp
  | t :: s :: l =>
    obtain ⟨-, -, hmax, hahead⟩ := h.totalSize t s l rfl
    simp only [List.length_cons]
    omega

/-- Whatever has happened to a parser, it has read the bytes of some frame, and the buffer is as
long as it was. -/
theorem exists_reads_final (events : List ParserEvent) (h : p.state = .getType) :
    (∃ pre, Reads pre (final parserEvent p events)) ∧
      (final parserEvent p events).rxBuffer.length = p.rxBuffer.length := by
  have hstep : ∀ q e, (∃ pre, Reads pre q) ∧ q.rxBuffer.length = p.rxBuffer.length →
      (∃ pre, Reads pre (parserEvent e q).2) ∧
        (parserEvent e q).2.rxBuffer.length = p.rxBuffer.length := by
    rintro q e ⟨hreads, hlen⟩
    obtain ⟨hreads', hkeep⟩ := exists_reads_event q e hreads
    exact ⟨hreads', hkeep.trans hlen⟩
  exact final_induction parserEvent hstep events ⟨⟨[], reads_nil h⟩, rfl⟩

end Open

/-! ### The invariant -/

/-- **The representation invariant of the parser**, state by state. It is a condition on the
fields alone, and says what each state knows of the frame that is open. -/
structure ParserInvariant (p : HobdParser) : Prop where
  getSize : p.state = .getSize → p.bytesRead.toNat = 1
  getSubtype : p.state = .getSubtype →
    p.bytesRead.toNat = 2 ∧ 4 ≤ p.totalSize.toNat ∧ p.totalSize.toNat ≤ 251
  getData : p.state = .getData → 3 ≤ p.bytesRead.toNat ∧
    p.bytesRead.toNat + 1 < p.totalSize.toNat ∧ p.totalSize.toNat ≤ 251
  getChecksum : p.state = .getChecksum →
    p.bytesRead.toNat + 1 = p.totalSize.toNat ∧ p.totalSize.toNat ≤ 251
  checksum : p.state ≠ .getType →
    p.checksum.toNat = byteSum (p.rxBuffer.take p.bytesRead.toNat)

section Invariant

variable {pre : List UInt8} {p : HobdParser}

/-- The sum is that of the bytes in the buffer. -/
theorem Reads.checksum_eq (h : Reads pre p) (hbuf : 251 ≤ p.rxBuffer.length)
    (hstate : p.state ≠ .getType) :
    p.checksum.toNat = byteSum (p.rxBuffer.take p.bytesRead.toNat) := by
  have hne : pre ≠ [] := fun hc => hstate (by rw [h.state, hc]; rfl)
  have hlen : pre.length ≤ 250 := h.length_le
  obtain ⟨hholds, hread, hsum⟩ := h.stored hne
  rw [hsum, hread, hholds.take_eq (by omega)]

/-- **The fields of a parser that has read the bytes of an open frame.** The invariant is a
property of the fields alone, and the bytes of the frame are what it is proved with. -/
theorem Reads.parserInvariant (h : Reads pre p) (hbuf : 251 ≤ p.rxBuffer.length) :
    ParserInvariant p := by
  have hsum := h.checksum_eq hbuf
  have hstate := h.state
  match pre with
  | [] =>
    have htype : p.state = .getType := hstate
    constructor <;> simp [htype]
  | [t] =>
    have hsize : p.state = .getSize := hstate
    have hread : p.bytesRead.toNat = 1 := (h.stored (by simp)).bytesRead
    exact ⟨fun _ => hread, by simp [hsize], by simp [hsize], by simp [hsize], hsum⟩
  | [t, s] =>
    have hsubtype : p.state = .getSubtype := hstate
    have hread : p.bytesRead.toNat = 2 := (h.stored (by simp)).bytesRead
    obtain ⟨htot, hmin, hmax, -⟩ := h.totalSize t s [] rfl
    exact ⟨by simp [hsubtype], fun _ => ⟨hread, htot ▸ hmin, htot ▸ hmax⟩, by simp [hsubtype],
      by simp [hsubtype], hsum⟩
  | t :: s :: st :: body =>
    have hread : p.bytesRead.toNat = body.length + 3 := (h.stored (by simp)).bytesRead
    obtain ⟨htot, hmin, hmax, hahead⟩ := h.totalSize t s (st :: body) rfl
    rw [List.length_cons] at hahead
    rw [stateOf] at hstate
    -- the frame lacks its checksum only, or some of its payload too
    split_ifs at hstate with hend
    · exact ⟨by simp [hstate], by simp [hstate], by simp [hstate],
        fun _ => ⟨by rw [hread, htot]; omega, htot ▸ hmax⟩, hsum⟩
    · exact ⟨by simp [hstate], by simp [hstate],
        fun _ => ⟨by omega, by rw [hread, htot]; omega, htot ▸ hmax⟩, by simp [hstate], hsum⟩

/-- **The rest of an open frame brings the receiver to a boundary**, whatever it is made of. -/
theorem final_collect_rest {t s : UInt8} {l bytes : List UInt8} (hpre : Reads (t :: s :: l) p)
    (hlen : l.length + 2 + bytes.length = s.toNat) :
    final (collect hobdFormat) (t :: s :: l) bytes = [] := by
  obtain ⟨-, hmin, -, hahead⟩ := hpre.totalSize t s l rfl
  match l with
  | [] =>
    match bytes with
    | [] => simp at hlen; omega
    | st :: rest =>
      simp only [List.length_cons, List.length_nil] at hlen
      have hrest : rest ≠ [] := fun hc => by
        rw [hc, List.length_nil] at hlen
        omega
      rw [final_cons, collect, hobdFormat_rejectSubtype, if_neg (by simp)]
      exact (run_rest hobdFormat t st (by omega) hrest).2
  | st :: body =>
    rw [List.length_cons] at hahead hlen
    -- the frame from its header on: what has been read of it, and the rest
    obtain ⟨-, hbody⟩ := run_body hobdFormat t s st body [] (by rw [List.length_nil]; omega)
    have hne : body ++ bytes ≠ [] := fun hc => by
      have := congrArg List.length hc
      rw [List.length_append, List.length_nil] at this
      omega
    have hwhole := (run_rest hobdFormat t st
      (show (body ++ bytes).length + 3 = s.toNat by rw [List.length_append]; omega) hne).2
    rwa [final_append, hbody, List.nil_append] at hwhole

/-- The parser comes to a boundary with the rest of its frame. -/
theorem Reads.final_state (h : Reads pre p)
    (hstate : p.state = .getSubtype ∨ p.state = .getData ∨ p.state = .getChecksum)
    {bytes : List UInt8} (hlen : bytes.length = p.totalSize.toNat - p.bytesRead.toNat) :
    (final hobdParserParseByte p bytes).state = .getType := by
  have hopen := h.state
  match pre with
  | [] =>
    have htype : p.state = .getType := hopen
    simp [htype] at hstate
  | [t] =>
    have hsize : p.state = .getSize := hopen
    simp [hsize] at hstate
  | t :: s :: l =>
    obtain ⟨htot, -, -, hahead⟩ := h.totalSize t s l rfl
    have hread : p.bytesRead.toNat = l.length + 2 := (h.stored (by simp)).bytesRead
    rw [htot, hread] at hlen
    obtain ⟨-, hreads, -⟩ := run_reads bytes h
    rw [final_collect_rest h (by omega)] at hreads
    exact hreads.state

end Invariant

/-- **In every state a parser comes to its representation invariant holds.** So a byte is stored
at 250 at most, neither the index nor the sum wraps, and from a frame whose size has been read
the parser comes back to `GET_TYPE` with the rest of the frame, whatever the bytes are. -/
theorem parser_invariant (rxBuffer : List UInt8) (rxBufferSize : UInt16) (p : HobdParser)
    (hinit : hobdParserInit rxBuffer rxBufferSize = some p) (hbuf : 251 ≤ rxBuffer.length)
    (events : List ParserEvent) (q : HobdParser) (hq : q = final parserEvent p events) :
    ParserInvariant q ∧ storeIndex q ≤ 250 ∧
      (∀ byte, (hobdParserParseByte byte q).2.bytesRead.toNat = storeIndex q + 1) ∧
      (q.state ≠ .getChecksum → ∀ byte,
        (hobdParserParseByte byte q).2.checksum.toNat = sumBefore q + byte.toNat) ∧
      (q.state = .getSubtype ∨ q.state = .getData ∨ q.state = .getChecksum →
        ∀ bytes : List UInt8, bytes.length = q.totalSize.toNat - q.bytesRead.toNat →
          (final hobdParserParseByte q bytes).state = .getType) := by
  obtain ⟨-, hstate, -, -, hrx, -⟩ := hobdParserInit_eq_some hinit
  obtain ⟨⟨pre, hpre⟩, hkeep⟩ := exists_reads_final events hstate
  have hlen : 251 ≤ (final parserEvent p events).rxBuffer.length := by
    rwa [hkeep, hrx]
  rw [← hq] at hpre hlen
  have hshort : pre.length ≤ 250 := hpre.length_le
  refine ⟨hpre.parserInvariant hlen, hpre.storeIndex_eq ▸ hshort, fun byte => ?_,
    fun hne byte => ?_, fun hst bytes hbytes => hpre.final_state hst hbytes⟩
  · rw [parseByte_bytesRead, hpre.storeIndex_eq, UInt8.toNat_add, UInt8.toNat_ofNat']
    change (pre.length % 256 + 1) % 256 = _
    omega
  · have hsum : byteSum pre ≤ 255 * pre.length := byteSum_le pre
    have hb : byte.toNat < 256 := byte.toNat_lt
    rw [parseByte_sum byte hne, hpre.sumBefore_eq, UInt16.toNat_add, UInt16.toNat_ofNat',
      UInt8.toNat_toUInt16]
    omega

/-- The parser of the system, inside the answer to the diagnostic init message. -/
theorem parser_invariant_init :
    ∃ p, hobdParserInit (List.replicate 512 0) 512 = some p ∧
      storeIndex (final parserEvent p [.byte 0x72, .reset, .byte 0x02, .byte 0x04,
        .byte 0x00]) ≤ 250 :=
  ⟨_, rfl, (parser_invariant (List.replicate 512 0) 512 _ rfl
    (by rw [List.length_replicate]; omega) [.byte 0x72, .reset, .byte 0x02,
      .byte 0x04, .byte 0x00] _ rfl).2.1⟩

/-! ### The size of the buffer -/

section Size

variable {p : HobdParser} {size : ℕ}

/-- In a buffer of 251 bytes every frame has room. -/
theorem along_storesBelow (hstate : p.state = .getType) (hsize : 251 ≤ size)
    (events : List ParserEvent) : Along parserEvent (StoresBelow size) p events := by
  refine along_of_invariant parserEvent (fun q => ∃ pre, Reads pre q)
    (fun q e hq => ⟨(exists_reads_event q e hq).1, ?_⟩) events ⟨[], reads_nil hstate⟩
  cases e with
  | byte b =>
    obtain ⟨pre, hpre⟩ := hq
    have hshort : pre.length ≤ 250 := hpre.length_le
    rw [StoresBelow, hpre.storeIndex_eq]
    omega
  | reset => trivial

/-- The first bytes of a frame that is one byte longer than the buffer. -/
def overlong (size : ℕ) : List UInt8 :=
  0x02 :: UInt8.ofNat (size + 1) :: 0x00 :: List.replicate (size - 3) 0

/-- The last byte of such a frame is stored behind the end of the buffer. -/
theorem storeIndex_overlong (hstate : p.state = .getType) (hmin : 4 ≤ size) (hmax : size ≤ 250) :
    storeIndex (final hobdParserParseByte p (overlong size)) = size := by
  have htot : (UInt8.ofNat (size + 1)).toNat = size + 1 := by
    rw [UInt8.toNat_ofNat']
    omega
  have hgood : ¬hobdFormat.badSize (UInt8.ofNat (size + 1)) := by
    rw [hobdFormat_badSize, htot]
    omega
  have hopen : final (collect hobdFormat) [] (overlong size) = overlong size :=
    final_open (hobdFormat_rejectType _) hgood (hobdFormat_rejectSubtype _)
      (by rw [List.length_replicate, htot]; omega)
  obtain ⟨-, hreads, -⟩ := run_reads (overlong size) (reads_nil hstate)
  rw [hreads.storeIndex_eq, hopen]
  simp only [overlong, List.length_cons, List.length_replicate]
  omega

end Size

/-- **The size of the receive buffer is respected exactly if it is at least 251.** -/
theorem stores_within_iff (rxBuffer : List UInt8) (rxBufferSize : UInt16) (p : HobdParser)
    (hinit : hobdParserInit rxBuffer rxBufferSize = some p) :
    (∀ events, Along parserEvent (StoresBelow rxBufferSize.toNat) p events) ↔
      251 ≤ rxBufferSize.toNat := by
  obtain ⟨hmin, hstate, -⟩ := hobdParserInit_eq_some hinit
  refine ⟨fun h => ?_, fun h => along_storesBelow hstate h⟩
  by_contra hlt
  have hrun := h ((overlong rxBufferSize.toNat).map .byte ++ [.byte 0])
  rw [along_append, final_parserEvent_bytes] at hrun
  -- the frame that is a byte too long gets its last byte
  have hlast : storeIndex (final hobdParserParseByte p (overlong rxBufferSize.toNat)) <
      rxBufferSize.toNat := hrun.2.1
  rw [storeIndex_overlong hstate (by omega) (by omega)] at hlast
  exact absurd hlast (lt_irrefl _)

/-- The receive buffer of the system is large enough. -/
theorem stores_within_iff_system :
    ∃ p, hobdParserInit (List.replicate 512 0) 512 = some p ∧
      Along parserEvent (StoresBelow 512) p [.byte 0x02, .byte 0xFB, .byte 0x00] :=
  ⟨_, rfl, (stores_within_iff (List.replicate 512 0) 512 _ rfl).mpr (by decide) _⟩

/-- A buffer of five bytes is admitted, and the last byte of a frame of six is stored behind
its end. -/
theorem not_stores_within_five :
    ∃ p, hobdParserInit [0, 0, 0, 0, 0] 5 = some p ∧
      ¬Along parserEvent (StoresBelow 5) p [.byte 0x02, .byte 0x06, .byte 0x00,
        .byte 0x00, .byte 0x00, .byte 0xF8] := by
  refine ⟨_, rfl, fun h => ?_⟩
  obtain ⟨-, -, -, -, -, hlast, -⟩ := h
  have hindex : storeIndex _ < 5 := hlast
  exact absurd hindex (by decide)

end HobdSystem
