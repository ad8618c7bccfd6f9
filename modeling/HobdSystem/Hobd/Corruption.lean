import HobdSystem.Hobd.Frame

/-!
# What the checksum of a message is good for

The checksum is the byte that brings the sum of a message to zero modulo 256, and the sum of a
list changes with every one of its bytes. So **a message with one wrong byte is never taken for a
message**, as long as it is not the size that is wrong (`HobdSystem.parser_detects_corruption`):
the parser reads on to the end of the message and finds that the sum is not zero. It answers the
last byte with `HOBD_ERROR_CHECKSUM`, counts the message as invalid and is at a boundary again, so
that the next message is not affected.

The size byte is left out with reason. A wrong size moves the end of the message, the sum is then
taken over other bytes than those that were sent, and whether it is zero depends on what comes
behind them.

The parser and `hobd_parser_checksum` compute the byte from a 16-bit sum in the same two branches.
On every block of up to 65535 bytes, also where the sum wraps, that is **the one byte that closes
the block** (`HobdSystem.hobdParserChecksum_closes`). Three things follow from that at once: there
is no other byte with which the sum is zero, the checksum does not depend on the order of the
bytes, and a parser that has read everything in front of the checksum of a message accepts this
byte and no other. The last one ties the function, which the encoder calls on a whole message,
to what the parser does byte by byte.
-/

namespace HobdSystem

open Bytes Framing Run

/-! ### Messages with a wrong byte -/

section Corrupt

variable {p : HobdParser} {bytes : List UInt8}

/-- **A complete frame that does not sum to zero**, read from a boundary: only its last byte is
answered with an error, and the parser is at a boundary again. -/
theorem run_corrupt (hstate : p.state = .getType) (hcomplete : Complete hobdFormat bytes)
    (hsum : byteSum bytes % 256 ≠ 0) :
    answers hobdParserParseByte p bytes =
        List.replicate (bytes.length - 1) .noMsg ++ [.checksum] ∧
      (final hobdParserParseByte p bytes).state = .getType ∧
      (final hobdParserParseByte p bytes).validCount = p.validCount ∧
      (final hobdParserParseByte p bytes).invalidCount = p.invalidCount + 1 := by
  obtain ⟨t, s, st, r, rfl, hs, hlen⟩ := hcomplete
  obtain ⟨hcollect, hboundary⟩ :=
    run_frame (hobdFormat_rejectType t) hs (hobdFormat_rejectSubtype st) hlen
  rw [close, if_neg hsum] at hcollect
  obtain ⟨hans, hreads, -⟩ := run_reads (t :: s :: st :: r) (reads_nil hstate)
  obtain ⟨hvalid, hinvalid⟩ := run_counts (t :: s :: st :: r) (reads_nil hstate)
  rw [hcollect] at hans hvalid hinvalid
  rw [hboundary] at hreads
  refine ⟨?_, hreads.state, ?_, ?_⟩
  · rw [hans, List.map_append, List.map_replicate, ← hlen]
    rfl
  · rw [hvalid]
    simp [List.countP_replicate, Verdict.isValid]
  · rw [hinvalid]
    simp [List.countP_replicate, Verdict.isInvalid]

end Corrupt

/-- **Every single wrong byte is found out**, wherever it is but in the size. The message is read
to its end, where it is answered with `HOBD_ERROR_CHECKSUM` and counted as invalid. -/
theorem parser_detects_corruption (f : HobdFrame) (i : ℕ) (a b : UInt8)
    (ha : f.bytes[i]? = some a) (hi : i ≠ 1) (hb : b ≠ a) (p : HobdParser)
    (hstate : p.state = .getType) :
    HobdErrorKind.none ∉ answers hobdParserParseByte p (f.bytes.set i b) ∧
      (answers hobdParserParseByte p (f.bytes.set i b)).getLast? = some .checksum ∧
      (final hobdParserParseByte p (f.bytes.set i b)).state = .getType ∧
      (final hobdParserParseByte p (f.bytes.set i b)).validCount = p.validCount ∧
      (final hobdParserParseByte p (f.bytes.set i b)).invalidCount = p.invalidCount + 1 := by
  obtain ⟨hans, hrest⟩ := run_corrupt hstate (f.complete.set hi b) (byteSum_set_ne ha hb f.sum_eq)
  refine ⟨?_, ?_, hrest⟩
  · rw [hans]
    simp
  · rw [hans, List.getLast?_concat]

/-- The wake-up message with a wrong subtype. -/
theorem parser_detects_corruption_wakeUp :
    ∃ p, hobdParserInit (List.replicate 512 0) 512 = some p ∧
      wakeUpFrame.bytes.set 2 0x00 = [0xFE, 0x04, 0x00, 0xFF] ∧
      (answers hobdParserParseByte p (wakeUpFrame.bytes.set 2 0x00)).getLast? =
        some .checksum :=
  ⟨_, rfl, rfl, (parser_detects_corruption wakeUpFrame 2 0xFF 0x00 rfl (by decide) (by decide) _
    rfl).2.1⟩

/-! ### The checksum of a block -/

section Block

variable {data : List UInt8} {size : UInt16}

/-- Exactly one byte closes a block. -/
theorem closes_iff (hsize : data.length = size.toNat) (c : UInt8) :
    (byteSum data + c.toNat) % 256 = 0 ↔ c = hobdParserChecksum data size := by
  have hspec := hobdParserChecksum_spec data size (by omega)
  rw [← hsize, List.take_length] at hspec
  have hlt : (hobdParserChecksum data size).toNat < 256 := UInt8.toNat_lt _
  have hc : c.toNat < 256 := c.toNat_lt
  rw [← UInt8.toNat_inj]
  omega

/-- A parser that has read a message but for its checksum. -/
theorem reads_of_size {p : HobdParser} (hstate : p.state = .getType)
    (hhead : (headerSize data).toNat = data.length + 1) (hmin : 4 ≤ data.length + 1)
    (hmax : data.length + 1 ≤ 251) :
    ∃ t s st body, data = t :: s :: st :: body ∧ body.length + 4 = s.toNat ∧
      Reads data (final hobdParserParseByte p data) := by
  match data with
  | [] | [_] | [_, _] => simp at hmin
  | t :: s :: st :: body =>
    replace hhead : s.toNat = body.length + 4 := hhead
    simp only [List.length_cons] at hmin hmax
    have hgood : ¬hobdFormat.badSize s := by
      rw [hobdFormat_badSize]
      omega
    obtain ⟨-, hreads, -⟩ := run_reads (t :: s :: st :: body) (reads_nil hstate)
    rw [final_open (hobdFormat_rejectType t) hgood (hobdFormat_rejectSubtype st)
      (by omega)] at hreads
    exact ⟨t, s, st, body, rfl, hhead.symm, hreads⟩

end Block

/-- **The checksum of a block is the one byte that closes it**: so it is the same for the block in
any order, and it is the byte the parser waits for behind a message that begins with the block. -/
theorem hobdParserChecksum_closes (data : List UInt8) (size : UInt16)
    (hsize : data.length = size.toNat) :
    (∀ c : UInt8, (byteSum data + c.toNat) % 256 = 0 ↔ c = hobdParserChecksum data size) ∧
      (∀ data' : List UInt8, data'.Perm data →
        hobdParserChecksum data' size = hobdParserChecksum data size) ∧
      ∀ p : HobdParser, p.state = .getType → (headerSize data).toNat = data.length + 1 →
        4 ≤ data.length + 1 → data.length + 1 ≤ 251 →
        (final hobdParserParseByte p data).state = .getChecksum ∧
          ∀ b, (hobdParserParseByte b (final hobdParserParseByte p data)).1 = .none ↔
            b = hobdParserChecksum data size := by
  refine ⟨closes_iff hsize, fun data' hperm => ?_, fun p hstate hhead hmin hmax => ?_⟩
  · -- the checksum of the other order closes this one
    rw [← closes_iff hsize, ← byteSum_perm hperm, closes_iff (hperm.length_eq.trans hsize)]
  · obtain ⟨t, s, st, body, rfl, hlen, hreads⟩ := reads_of_size hstate hhead hmin hmax
    refine ⟨by rw [hreads.state, stateOf, if_pos hlen], fun b => ?_⟩
    rw [(parseByte_checksum hreads hlen).1, ← closes_iff hsize, verdictCode_eq_none]
    have hsum : byteSum (t :: s :: st :: (body ++ [b])) =
        byteSum (t :: s :: st :: body) + b.toNat := by simp [Nat.add_assoc]
    rw [← hsum, close]
    split_ifs with hzero
    · exact iff_of_true ⟨_, rfl⟩ hzero
    · exact iff_of_false (by simp) hzero

/-- The diagnostic init message is closed by `0x99`. -/
theorem hobdParserChecksum_closes_init :
    hobdParserChecksum [0x72, 0x05, 0x00, 0xF0] 4 = 0x99 :=
  (((hobdParserChecksum_closes [0x72, 0x05, 0x00, 0xF0] 4 rfl).1 0x99).mp rfl).symm

end HobdSystem
