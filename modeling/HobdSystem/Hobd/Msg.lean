import HobdSystem.Hobd.Parser

/-!
# The encoder of the K-line protocol

The model of `hobd_msg.h`: a message is built in place, in a transmit buffer that holds the
payload already. The header is written in front of it, and the checksum is computed over
everything in front of the checksum and stored behind the payload. The two functions of the
source, `HobdSystem.hobdMsgNoData` and `HobdSystem.hobdMsg`, differ in the size they write and in
nothing else, so both are cases of `HobdSystem.build`.

Where the checksum goes is read back from the size byte that was just written, and not from the
arguments. The encoder is therefore right exactly as far as that byte is *honest*: the size of a
message is added up in 8 bits, and a payload of more than 251 bytes gives a size byte that has
wrapped, and a checksum somewhere inside of the payload. `HobdSystem.build_spec` is what the
functions come to when the size byte is honest: the buffer begins with a frame whose bytes sum to
zero, and the rest of the buffer is as it was. `HobdSystem.hobdMsg_spec` has the bound on the
payload that makes it so.

What is sent is not returned by the encoder but cut out of the buffer by the one who transmits it:
the first `header.size` bytes (`HobdSystem.sentBytes`).
-/

namespace HobdSystem

open Bytes

/-- `hobd_msg_update_checksum`, on the message at the start of a buffer. The index into
`data` is an `int`, and a message of size zero would have its checksum in front of the
buffer. -/
def hobdMsgUpdateChecksum (buffer : List UInt8) : List UInt8 :=
  if headerSize buffer = 0 then buffer
  else buffer.set (hobdMsgHeaderSize + (headerSize buffer).toNat - hobdMsgHeadercsSize.toNat)
    (hobdParserChecksum buffer ((headerSize buffer).toUInt16 - 1))

/-- The three stores to the header. -/
def setHeader (type size subtype : UInt8) (buffer : List UInt8) : List UInt8 :=
  ((buffer.set 0 type).set 1 size).set 2 subtype

/-- A message of the given size: the size byte that is returned, which is read back from
the buffer, and the buffer. -/
def build (type size subtype : UInt8) (buffer : List UInt8) : UInt8 × List UInt8 :=
  let buffer := hobdMsgUpdateChecksum (setHeader type size subtype buffer)
  (headerSize buffer, buffer)

/-- `hobd_msg_no_data`. -/
def hobdMsgNoData (type subtype : UInt8) (buffer : List UInt8) : UInt8 × List UInt8 :=
  build type hobdMsgHeadercsSize subtype buffer

/-- `hobd_msg`: the size is added up in a byte. -/
def hobdMsg (type subtype dataSize : UInt8) (buffer : List UInt8) : UInt8 × List UInt8 :=
  build type (dataSize + hobdMsgHeadercsSize) subtype buffer

/-- The transmit buffer once the payload is stored at `data`, behind the three bytes of the
header, which are written later. -/
def putData (payload buffer : List UInt8) : List UInt8 :=
  buffer.take hobdMsgHeaderSize ++ payload ++ buffer.drop (hobdMsgHeaderSize + payload.length)

/-- The bytes that are sent: the first `header.size` bytes of the buffer. -/
def sentBytes (r : UInt8 × List UInt8) : List UInt8 := r.2.take r.1.toNat

/-! ### What the encoder writes -/

section Spec

variable {s : UInt8} {payload : List UInt8}

/-- **The checksum goes behind the payload and closes the sum of the message.** The sum is taken
over the header and the payload, which the size byte tells apart from the rest of the buffer. -/
theorem hobdMsgUpdateChecksum_spec (t st d : UInt8) (rest : List UInt8)
    (hs : s.toNat = payload.length + 4) :
    ∃ c, hobdMsgUpdateChecksum (t :: s :: st :: (payload ++ d :: rest)) =
        t :: s :: st :: (payload ++ c :: rest) ∧
      byteSum (t :: s :: st :: (payload ++ [c])) % 256 = 0 := by
  have hlt : s.toNat < 256 := s.toNat_lt
  have hne : s ≠ 0 := fun hc => by
    rw [hc, UInt8.toNat_zero] at hs
    omega
  have hsize : (s.toUInt16 - 1).toNat = payload.length + 3 := by
    rw [UInt16.toNat_sub, UInt8.toNat_toUInt16]
    change (2 ^ 16 - 1 + s.toNat) % 2 ^ 16 = _
    omega
  have hidx : hobdMsgHeaderSize + s.toNat - hobdMsgHeadercsSize.toNat = payload.length + 3 := by
    change 3 + s.toNat - 4 = _
    omega
  have hsum := hobdParserChecksum_spec (t :: s :: st :: (payload ++ d :: rest)) (s.toUInt16 - 1)
    (by rw [hsize]; simp)
  refine ⟨hobdParserChecksum (t :: s :: st :: (payload ++ d :: rest)) (s.toUInt16 - 1), ?_, ?_⟩
  · have hhead : headerSize (t :: s :: st :: (payload ++ d :: rest)) = s := rfl
    rw [hobdMsgUpdateChecksum, hhead, if_neg hne, hidx]
    simp
  · rw [hsize] at hsum
    simpa [Nat.add_assoc] using hsum

theorem setHeader_putData (t s st : UInt8) {tx : List UInt8}
    (hroom : payload.length + 4 ≤ tx.length) :
    ∃ d rest, setHeader t s st (putData payload tx) = t :: s :: st :: (payload ++ d :: rest) := by
  match tx with
  | [] | [_] | [_, _] => simp at hroom
  | x :: y :: z :: tx =>
    have hne : tx.drop payload.length ≠ [] := by
      rw [← List.length_pos_iff, List.length_drop]
      simp only [List.length_cons] at hroom
      omega
    obtain ⟨d, rest, hd⟩ := List.exists_cons_of_ne_nil hne
    refine ⟨d, rest, ?_⟩
    rw [← hd]
    simp [setHeader, putData, hobdMsgHeaderSize, Nat.add_comm 3]

/-- **A message built with an honest size byte** is a header, the payload and the byte that
closes the sum. -/
theorem build_spec (t st : UInt8) {tx : List UInt8} (hroom : payload.length + 4 ≤ tx.length)
    (hs : s.toNat = payload.length + 4) :
    ∃ c, sentBytes (build t s st (putData payload tx)) = t :: s :: st :: (payload ++ [c]) ∧
      byteSum (t :: s :: st :: (payload ++ [c])) % 256 = 0 := by
  obtain ⟨d, rest, hbuf⟩ := setHeader_putData t s st hroom
  obtain ⟨c, hc, hsum⟩ := hobdMsgUpdateChecksum_spec t st d rest hs
  refine ⟨c, ?_, hsum⟩
  rw [build, hbuf, hc]
  change List.take s.toNat _ = _
  rw [hs]
  simp [List.take_append, List.take_of_length_le]

theorem toNat_ofNat_add_four {n : ℕ} (hn : n ≤ 251) : (UInt8.ofNat (n + 4)).toNat = n + 4 := by
  rw [UInt8.toNat_ofNat']
  omega

/-- What `hobd_msg` sends, for any payload its size argument can name. -/
theorem hobdMsg_spec (t st : UInt8) (payload tx : List UInt8) (hlen : payload.length ≤ 251)
    (hroom : payload.length + 4 ≤ tx.length) :
    ∃ c, sentBytes (hobdMsg t st (UInt8.ofNat payload.length) (putData payload tx)) =
        t :: UInt8.ofNat (payload.length + 4) :: st :: (payload ++ [c]) ∧
      byteSum (t :: UInt8.ofNat (payload.length + 4) :: st :: (payload ++ [c])) % 256 = 0 := by
  have hsize : UInt8.ofNat payload.length + hobdMsgHeadercsSize =
      UInt8.ofNat (payload.length + 4) := (UInt8.ofNat_add _ _).symm
  rw [hobdMsg, hsize]
  exact build_spec t st hroom (toNat_ofNat_add_four hlen)

/-- What `hobd_msg_no_data` sends is what `hobd_msg` sends for an empty payload. -/
theorem hobdMsgNoData_eq (t st : UInt8) (tx : List UInt8) :
    hobdMsgNoData t st tx = hobdMsg t st 0 (putData [] tx) := by
  rw [hobdMsgNoData, hobdMsg, UInt8.zero_add]
  simp [putData]

end Spec

end HobdSystem
