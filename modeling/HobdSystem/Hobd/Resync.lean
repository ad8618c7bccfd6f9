import HobdSystem.Hobd.Frame

/-!
# What the parser lets through, and what noise does to it

`valid_type` and `valid_subtype` answer a foreign byte with an error code, and the parser compares
that answer with a different constant, so neither test ever turns a byte down. This file has the
two consequences.

* The parser delivers messages that are **not of the protocol**. It delivers only messages of the
  protocol as long as no foreign type or subtype byte comes to stand in the header of a frame
  (`HobdSystem.deliversProtocol_exact`), and any such byte can be completed to a message that is
  delivered: a payload of zeros and the byte that closes the sum (`HobdSystem.exists_completion`).
* **Noise opens frames.** A byte in front of a frame is taken for a type byte, the byte after it
  for a size, and the frame behind them is lost unless the noise happens to be made of whole
  pieces that the parser drops (`HobdSystem.found_iff_drained`).

Both results are exact, and so neither can be had from the intended behaviour of the tests. For
the first, the condition is put on the events of a run and asks about the state the parser is in
when a byte comes: the same byte is harmless inside of a payload and foreign in a header. For the
second, the difficulty is that a frame behind some noise may be delivered *although* the noise has
opened another one, with the noise a part of what is delivered. That this is not the frame that
was sent is seen from the buffer, which cannot begin with two different complete frames
(`HobdSystem.eq_of_take_eq`); so the receiver must have been at a boundary, and the noise is one
of the streams of `Framing.Drained`.

The calls that a parser is used by are bytes and resets, in any order (`HobdSystem.ParserEvent`).
-/

namespace HobdSystem

open Bytes Framing Run

/-! ### Messages that are not of the protocol -/

/-- What can happen to a parser after it is initialised. There is nothing else that a caller can
do with it, so a property of all runs of these events is one of every program that uses it. -/
inductive ParserEvent where
  /-- A byte is parsed. -/
  | byte (b : UInt8)
  /-- `hobd_parser_reset` is called. -/
  | reset
  deriving DecidableEq, Repr

/-- One event; only a byte is answered. -/
def parserEvent : ParserEvent → HobdParser → Option HobdErrorKind × HobdParser
  | .byte b, p => (some (hobdParserParseByte b p).1, (hobdParserParseByte b p).2)
  | .reset, p => (none, hobdParserReset p)

/-- **A message that is delivered is of the protocol**: if a byte is answered with
`HOBD_ERROR_NONE`, the header in the buffer has a type and a subtype of the protocol. -/
def DeliversProtocol (p : HobdParser) : ParserEvent → Prop
  | .byte b => (hobdParserParseByte b p).1 = .none →
      ProtocolType (headerType (hobdParserParseByte b p).2.rxBuffer) ∧
      ProtocolSubtype (headerSubtype (hobdParserParseByte b p).2.rxBuffer)
  | .reset => True

/-- An event that brings no foreign byte into the header of a frame: a byte taken in
`GET_SUBTYPE` is a subtype of the protocol, and the type in front of it is a type of the
protocol. -/
def KeepsProtocol (p : HobdParser) : ParserEvent → Prop
  | .byte b => p.state = .getSubtype → ProtocolType (headerType p.rxBuffer) ∧ ProtocolSubtype b
  | .reset => True

instance (p : HobdParser) : ∀ e, Decidable (KeepsProtocol p e)
  | .byte b => inferInstanceAs (Decidable (p.state = .getSubtype →
      ProtocolType (headerType p.rxBuffer) ∧ ProtocolSubtype b))
  | .reset => .isTrue trivial

/-- The header of an open frame is of the protocol, once it is complete. -/
def ProtocolHeader : List UInt8 → Prop
  | t :: _ :: st :: _ => ProtocolType t ∧ ProtocolSubtype st
  | _ => True

theorem final_parserEvent_bytes (p : HobdParser) (bytes : List UInt8) :
    final parserEvent p (bytes.map .byte) = final hobdParserParseByte p bytes := by
  induction bytes generalizing p with
  | nil => rfl
  | cons b bytes ih => exact ih _

/-- Only a parser that has read a type and a size is in `GET_SUBTYPE`. -/
theorem eq_of_stateOf_getSubtype {pre : List UInt8} (h : stateOf pre = .getSubtype) :
    ∃ t s, pre = [t, s] := by
  match pre with
  | [] => simp [stateOf] at h
  | [t] => simp [stateOf] at h
  | [t, s] => exact ⟨t, s, rfl⟩
  | t :: s :: st :: body =>
    rw [stateOf] at h
    split_ifs at h

/-- A byte that keeps to the protocol leaves a header of the protocol. -/
theorem protocolHeader_collect {pre : List UInt8} {p : HobdParser} (h : Reads pre p)
    (hlen : 2 < p.rxBuffer.length) (hhead : ProtocolHeader pre) {b : UInt8}
    (hkeep : KeepsProtocol p (.byte b)) : ProtocolHeader (pre ++ [b]) := by
  match pre with
  | [] => trivial
  | [t] => trivial
  | [t, s] =>
    have htype : headerType p.rxBuffer = t := (h.stored (by simp)).holds.headerType_eq (by omega)
    have := hkeep h.state
    rwa [htype] at this
  | t :: s :: st :: body => exact hhead

/-- The buffer has room for a header, and the parser has read the bytes of a frame. -/
def IsReading (p : HobdParser) : Prop := 2 < p.rxBuffer.length ∧ ∃ pre, Reads pre p

/-- Whatever happens to a parser, it has read the bytes of some frame. -/
theorem exists_reads_event (p : HobdParser) (e : ParserEvent) (h : ∃ pre, Reads pre p) :
    (∃ pre, Reads pre (parserEvent e p).2) ∧
      (parserEvent e p).2.rxBuffer.length = p.rxBuffer.length := by
  obtain ⟨pre, hreads⟩ := h
  cases e with
  | reset => exact ⟨⟨[], reads_nil rfl⟩, rfl⟩
  | byte b =>
    obtain ⟨-, hmoves⟩ := parseByte_reads hreads b
    exact ⟨⟨_, hmoves.reads⟩, hmoves.length⟩

theorem isReading_event (p : HobdParser) (e : ParserEvent) (h : IsReading p) :
    IsReading (parserEvent e p).2 := by
  obtain ⟨hreads, hkeep⟩ := exists_reads_event p e h.2
  exact ⟨hkeep ▸ h.1, hreads⟩

/-- The message a parser delivers is the frame it has read, so its header is in the
buffer. -/
theorem header_of_delivered {pre : List UInt8} {p : HobdParser} (h : Reads pre p) {b : UInt8}
    (hlen : 2 < p.rxBuffer.length) (hnone : (hobdParserParseByte b p).1 = .none) :
    ∃ t s st body, pre = t :: s :: st :: body ∧
      headerType (hobdParserParseByte b p).2.rxBuffer = t ∧
      headerSubtype (hobdParserParseByte b p).2.rxBuffer = st := by
  obtain ⟨hcode, hmoves⟩ := parseByte_reads h b
  rw [hcode] at hnone
  obtain ⟨f, hf⟩ := verdictCode_eq_none.mp hnone
  obtain ⟨t, s, st, body, rfl⟩ := header_of_collect_delivered hf
  obtain ⟨rfl, -, -⟩ := collect_delivered h.isOpen hf
  have hholds := hmoves.frame _ hf
  rw [← hmoves.length] at hlen
  exact ⟨t, s, st, body, rfl, hholds.headerType_eq (by omega), hholds.headerSubtype_eq hlen⟩

/-- **Any header can be completed to a message that is delivered**: a payload of zeros and
the byte that closes the sum. -/
theorem exists_completion {t s st : UInt8} {p : HobdParser} (h : Reads [t, s, st] p) :
    ∃ body c, (hobdParserParseByte c (final hobdParserParseByte p body)).1 = .none ∧
      Reads (t :: s :: st :: body) (final hobdParserParseByte p body) := by
  obtain ⟨-, hmin, -, -⟩ := h.totalSize t s [st] rfl
  obtain ⟨c, hc⟩ := exists_closing (byteSum (t :: s :: st :: List.replicate (s.toNat - 4) 0))
  have hlen : (List.replicate (s.toNat - 4) (0 : UInt8)).length + 4 = s.toNat := by
    rw [List.length_replicate]
    omega
  obtain ⟨-, hfin⟩ := run_body hobdFormat t s st (List.replicate (s.toNat - 4) 0) []
    (by simp; omega)
  obtain ⟨-, hreads, -⟩ := run_reads (List.replicate (s.toNat - 4) 0) h
  rw [hfin, List.nil_append] at hreads
  refine ⟨_, c, ?_, hreads⟩
  rw [(parseByte_checksum hreads hlen).1, close, if_pos]
  · rfl
  · simpa [Nat.add_assoc] using hc

/-- The parser has read the bytes of a frame whose header, once complete, is of the
protocol. -/
def IsReadingProtocol (p : HobdParser) : Prop :=
  2 < p.rxBuffer.length ∧ ∃ pre, Reads pre p ∧ ProtocolHeader pre

/-- One event that keeps to the protocol. -/
theorem deliversProtocol_step (p : HobdParser) (e : ParserEvent) (h : IsReadingProtocol p)
    (hkeep : KeepsProtocol p e) :
    IsReadingProtocol (parserEvent e p).2 ∧ DeliversProtocol p e := by
  obtain ⟨hlen, pre, hreads, hhead⟩ := h
  cases e with
  | reset => exact ⟨⟨hlen, [], reads_nil rfl, trivial⟩, trivial⟩
  | byte b =>
    obtain ⟨-, hmoves⟩ := parseByte_reads hreads b
    refine ⟨⟨hmoves.length ▸ hlen, _, hmoves.reads, ?_⟩, fun hnone => ?_⟩
    · -- the frame goes on with the byte, or it is over
      rcases collect_next hobdFormat b pre with hnext | hnext
      · rw [hnext]
        exact protocolHeader_collect hreads hlen hhead hkeep
      · rw [hnext]
        trivial
    · obtain ⟨t, s, st, body, rfl, ht, hst⟩ := header_of_delivered hreads hlen hnone
      rw [ht, hst]
      exact hhead

/-- One event that does not: it can be followed by bytes with which a foreign message is
delivered. -/
theorem exists_not_deliversProtocol {p : HobdParser} (h : IsReading p) {b : UInt8}
    (hkeep : ¬KeepsProtocol p (.byte b)) :
    ∃ bytes : List UInt8, ¬Along parserEvent DeliversProtocol p (.byte b :: bytes.map .byte) := by
  obtain ⟨hlen, pre, hreads⟩ := h
  have hsub : p.state = .getSubtype := by
    by_contra hc
    exact hkeep fun h => absurd h hc
  obtain ⟨t, s, rfl⟩ := eq_of_stateOf_getSubtype (hreads.state ▸ hsub)
  have htype : headerType p.rxBuffer = t :=
    (hreads.stored (by simp)).holds.headerType_eq (by omega)
  have hmoves := (parseByte_subtype (b := b) hreads).2
  -- the header is complete with this byte, and some bytes complete the message
  obtain ⟨body, c, hnone, hbody⟩ := exists_completion hmoves.reads
  refine ⟨body ++ [c], fun ⟨_, halong⟩ => hkeep fun _ => ?_⟩
  rw [List.map_append, along_append, final_parserEvent_bytes] at halong
  obtain ⟨h1, h2⟩ := halong.2.1 hnone
  have hroom := (run_reads body hmoves.reads).2.2
  rw [hmoves.length] at hroom
  obtain ⟨t', s', st', body', heq, ht, hst⟩ := header_of_delivered hbody (hroom ▸ hlen) hnone
  obtain ⟨rfl, -, rfl, -⟩ : t = t' ∧ s = s' ∧ b = st' ∧ body = body' := by simpa using heq
  rw [htype]
  exact ⟨ht ▸ h1, hst ▸ h2⟩

/-- **Exactly when the parser keeps to the protocol.** A run none of whose events brings a
foreign byte into a header delivers only messages of the protocol, and any event that does
bring one in, after whatever history, can be followed by bytes with which a foreign message
is delivered. -/
theorem deliversProtocol_exact (rxBuffer : List UInt8) (rxBufferSize : UInt16) (p : HobdParser)
    (hinit : hobdParserInit rxBuffer rxBufferSize = some p)
    (hbuf : rxBufferSize.toNat ≤ rxBuffer.length) :
    (∀ es, Along parserEvent KeepsProtocol p es → Along parserEvent DeliversProtocol p es) ∧
    ∀ es b, ¬KeepsProtocol (final parserEvent p es) (.byte b) →
      ∃ bytes : List UInt8,
        ¬Along parserEvent DeliversProtocol p (es ++ .byte b :: bytes.map .byte) := by
  obtain ⟨hsize, hstate, -, -, hrx, -⟩ := hobdParserInit_eq_some hinit
  have hlen : 2 < p.rxBuffer.length := by
    rw [hrx]
    omega
  constructor
  · exact fun es => Along.mono _ deliversProtocol_step es ⟨hlen, [], reads_nil hstate, trivial⟩
  · intro es b hkeep
    have hreading : IsReading (final parserEvent p es) :=
      final_induction _ isReading_event es ⟨hlen, [], reads_nil hstate⟩
    obtain ⟨bytes, hbytes⟩ := exists_not_deliversProtocol hreading hkeep
    exact ⟨bytes, fun hc => hbytes (along_append _ |>.mp hc).2⟩

/-- Four bytes with the type `0x00` are delivered as a message. -/
theorem not_deliversProtocol :
    ∃ p, hobdParserInit (List.replicate 512 0) 512 = some p ∧
      ¬Along parserEvent DeliversProtocol p [.byte 0x00, .byte 0x04, .byte 0x00, .byte 0xFC] :=
  ⟨_, rfl, fun h => absurd (h.2.2.2.1 rfl).1 (by decide)⟩

/-- The init message of the protocol keeps to it. -/
theorem deliversProtocol_exact_init :
    ∃ p, hobdParserInit (List.replicate 512 0) 512 = some p ∧
      Along parserEvent DeliversProtocol p
        [.byte 0x72, .byte 0x05, .byte 0x00, .byte 0xF0, .byte 0x99] :=
  ⟨_, rfl, (deliversProtocol_exact (List.replicate 512 0) 512 _ rfl
    (by rw [List.length_replicate]; decide)).1 _ (by decide)⟩

/-! ### Noise in front of a frame -/

/-- **The frame is found behind the noise**: its last byte is answered with
`HOBD_ERROR_NONE`, no earlier byte is, and the buffer begins with the frame. -/
def FoundAfter (p : HobdParser) (noise : List UInt8) (f : HobdFrame) : Prop :=
  (answers hobdParserParseByte p (noise ++ f.bytes)).getLast? = some .none ∧
    (∀ c ∈ (answers hobdParserParseByte p (noise ++ f.bytes)).dropLast, c ≠ .none) ∧
    (final hobdParserParseByte p (noise ++ f.bytes)).rxBuffer.take f.bytes.length = f.bytes

/-- A buffer that begins with two complete frames begins with one. -/
theorem eq_of_take_eq {buffer f g : List UInt8} (hf : Complete hobdFormat f)
    (hg : Complete hobdFormat g) (hbf : buffer.take f.length = f)
    (hbg : buffer.take g.length = g) : f = g := by
  have hf' := List.take_append_drop f.length buffer
  have hg' := List.take_append_drop g.length buffer
  rw [hbf] at hf'
  rw [hbg] at hg'
  exact hf.eq_of_append hg (hf'.trans hg'.symm)

/-- What is delivered behind the noise is the frame itself only if the noise leaves the
receiver at a boundary. -/
theorem boundary_of_delivered_last {noise f : List UInt8} (hf : f ≠ [])
    (hlast : (answers (collect hobdFormat) [] (noise ++ f)).getLast? = some (.delivered f)) :
    final (collect hobdFormat) [] noise = [] := by
  have hne : answers (collect hobdFormat) (final (collect hobdFormat) [] noise) f ≠ [] := by
    rw [← List.length_pos_iff, length_answers]
    exact List.length_pos_iff.mpr hf
  rw [answers_append, List.getLast?_append_of_ne_nil _ hne] at hlast
  rcases delivered_last (open_nil.final noise) hlast with hpre | ⟨l₁, l₂, hl, hl₁, -, rfl⟩
  · exact List.append_left_eq_self.mp hpre.symm
  · exact absurd (List.append_left_eq_self.mp hl.symm) hl₁

section Noise

variable {p : HobdParser} {noise : List UInt8} {f : HobdFrame}

/-- A frame that is found had nothing delivered before it, and began at a boundary. -/
theorem FoundAfter.drained (hstate : p.state = .getType) (hbuf : 251 ≤ p.rxBuffer.length)
    (h : FoundAfter p noise f) : Drained hobdFormat noise := by
  obtain ⟨hlast, hearlier, hholds⟩ := h
  have hreads : Reads [] p := reads_nil hstate
  obtain ⟨hans, -, hlen⟩ := run_reads (noise ++ f.bytes) hreads
  obtain ⟨g, hv⟩ := exists_delivered_last hreads hlast
  obtain ⟨hg, hcomplete⟩ := holds_delivered_last hreads hv
  -- what is delivered is complete and begins the buffer, as the frame does, so it is the frame
  have htake := hg.take_eq (by rw [hlen]; exact hcomplete.length_le.trans hbuf)
  obtain rfl := eq_of_take_eq f.complete hcomplete hholds htake
  have hboundary := boundary_of_delivered_last f.ne_nil hv
  refine drained_of_run noise hboundary fun g hmem => ?_
  -- a delivery within the noise would have been answered before the last byte
  have hne : answers (collect hobdFormat) [] f.bytes ≠ [] := by
    rw [f.run.1]
    simp
  refine hearlier _ ?_ (verdictCode_eq_none.mpr ⟨g, rfl⟩)
  rw [hans, ← List.map_dropLast, answers_append, hboundary, List.dropLast_append_of_ne_nil hne]
  exact List.mem_map_of_mem (List.mem_append_left _ hmem)

/-- A frame behind drained noise is found. -/
theorem foundAfter_of_drained (hstate : p.state = .getType) (hbuf : 251 ≤ p.rxBuffer.length)
    (h : Drained hobdFormat noise) : FoundAfter p noise f := by
  obtain ⟨hboundary, hquiet⟩ := h.run
  have hreads : Reads [] p := reads_nil hstate
  obtain ⟨hans, -, hlen⟩ := run_reads (noise ++ f.bytes) hreads
  have hrun : answers (collect hobdFormat) [] (noise ++ f.bytes) =
      (answers (collect hobdFormat) [] noise ++
        List.replicate (f.bytes.length - 1) .pending) ++ [.delivered f.bytes] := by
    rw [answers_append, hboundary, f.run.1, List.append_assoc]
  have hlast : (answers (collect hobdFormat) [] (noise ++ f.bytes)).getLast? =
      some (.delivered f.bytes) := by
    rw [hrun, List.getLast?_concat]
  refine ⟨by rw [hans, List.getLast?_map, hlast]; rfl, fun c hc => ?_, ?_⟩
  · rw [hans, hrun, ← List.map_dropLast, List.dropLast_concat] at hc
    obtain ⟨v, hv, rfl⟩ := List.mem_map.mp hc
    intro hnone
    obtain ⟨g, rfl⟩ := verdictCode_eq_none.mp hnone
    rcases List.mem_append.mp hv with hv | hv
    · exact hquiet g hv
    · simp at hv
  · obtain ⟨hholds, hcomplete⟩ := holds_delivered_last hreads hlast
    exact hholds.take_eq (by rw [hlen]; exact hcomplete.length_le.trans hbuf)

end Noise

/-- **Exactly which noise does not lose the frame behind it**: noise made of whole pieces
that the parser drops, which are two bytes whose second is no size, and as many bytes as
their second byte says that do not sum to zero. Whether the noise has bytes in it that are
types of the protocol plays no role. -/
theorem found_iff_drained (p : HobdParser) (hstate : p.state = .getType)
    (hbuf : 251 ≤ p.rxBuffer.length) (noise : List UInt8) (f : HobdFrame) :
    FoundAfter p noise f ↔ Drained hobdFormat noise :=
  ⟨FoundAfter.drained hstate hbuf, foundAfter_of_drained hstate hbuf⟩

/-- Two bytes of noise whose second is no size do not lose the wake-up message. -/
theorem found_iff_drained_pair :
    ∃ p, hobdParserInit (List.replicate 512 0) 512 = some p ∧
      FoundAfter p [0x00, 0x00] wakeUpFrame :=
  ⟨_, rfl, (found_iff_drained _ rfl (by rw [List.length_replicate]; omega) _ _).mpr
    (.badSize (by decide) (by decide) .nil)⟩

/-- One zero byte in front of the wake-up message loses it: the zero is taken for a type
and the type for a size. -/
theorem not_foundAfter_zero :
    ∃ p, hobdParserInit (List.replicate 512 0) 512 = some p ∧
      ¬ProtocolType 0x00 ∧ ¬FoundAfter p [0x00] wakeUpFrame :=
  ⟨_, rfl, by decide, fun h => absurd h.1 (by decide)⟩

end HobdSystem
