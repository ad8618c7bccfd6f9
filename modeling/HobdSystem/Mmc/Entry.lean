import HobdSystem.Ipc
import HobdSystem.Library.LittleEndian

/-!
# Log entries and the message that carries one

The model of `mmc_entry.h` and of `mmc_log_entry_data`. An entry is a header of twelve bytes –
type, size and timestamp – and its data. The sender packs it into words: three for the header and
then the data, four bytes to a word, the last word filled up with zeros. The first four words of a
message are the message registers, the others go straight into the IPC buffer of the receiver, and
the receiver copies all of them into an array of its own.

**What the receiver ends up with begins with the bytes of the entry**
(`HobdSystem.sel4MrRecv_mmcLogEntryData`), whatever its array and the IPC buffer held before. The
arrays have their lengths in their types and every store is checked, so the theorem says as well
that no store is out of bounds.

An entry is a structure in memory on one side, an array of words in the middle and a list of bytes
in a file at the end, and the three agree only on a target that stores the low byte first. The
proof goes through the bytes: a word of the message is four bytes of the entry
(`HobdSystem.bytes_dataWord`), and the words put together begin with the entry
(`HobdSystem.take_wordsBytes`). The data is shifted into its words byte by byte and the header is
not, so there are two lemmas for the header: one for the type and the size, which share a word,
and one for the timestamp, which is two words.

The check on the size of an entry compares the size of the whole message with a bound that is
meant for the data. It lets 456 bytes of data through (`HobdSystem.sizeOk_iff`), twelve less than
there would be room for, and so it is on the safe side.
-/

namespace HobdSystem

open LittleEndian Memory

/-! ### Entries -/

/-- `MMC_ENTRY_HEADER_SIZE`. -/
def mmcEntryHeaderSize : UInt32 := 12

/-- `MMC_ENTRY_DATA_SIZE_MAX`: 120 words less the header. -/
def mmcEntryDataSizeMax : UInt32 := 120 * 4 - 12

/-- `MMC_ENTRY_TYPE_INVALID`. -/
def mmcEntryTypeInvalid : UInt16 := 0x0000

/-- `MMC_ENTRY_TYPE_BEGIN_FLAG`. -/
def mmcEntryTypeBeginFlag : UInt16 := 0xABFE

/-- What `mmc_entry_s` says. The size is a field of its own and need not be the length of the
data, since what is read from a file may be anything. -/
structure MmcEntry where
  type : UInt16
  size : UInt16
  timestamp : UInt64
  data : List UInt8
  deriving DecidableEq, Repr

/-- The bytes of the header. -/
def MmcEntry.header (e : MmcEntry) : List UInt8 :=
  bytes 2 e.type.toNat ++ bytes 2 e.size.toNat ++ bytes 8 e.timestamp.toNat

/-- The bytes of an entry. -/
def MmcEntry.bytes (e : MmcEntry) : List UInt8 := e.header ++ e.data

/-- The entry at the start of some memory, as a program reads it that has a pointer to an
`mmc_entry_s` there. Nothing tells it whether there is one. -/
def entryAt (mem : List UInt8) : MmcEntry where
  type := UInt16.ofNat (value (mem.take 2))
  size := UInt16.ofNat (value ((mem.drop 2).take 2))
  timestamp := UInt64.ofNat (value ((mem.drop 4).take 8))
  data := (mem.drop 12).take (value ((mem.drop 2).take 2))

/-- `mmc_entry_total_size`. -/
def mmcEntryTotalSize (e : MmcEntry) : UInt16 := e.size + 12

@[simp] theorem MmcEntry.length_header (e : MmcEntry) : e.header.length = 12 := by
  simp [MmcEntry.header]

/-- **The header reads back**, and so does the data as far as it is there: no more is taken of
what comes behind than the size asks for. -/
theorem entryAt_header (e : MmcEntry) (l : List UInt8) :
    entryAt (e.header ++ l) = { e with data := l.take e.size.toNat } := by
  have htype : value (bytes 2 e.type.toNat) = e.type.toNat := by
    rw [value_bytes]
    exact Nat.mod_eq_of_lt e.type.toNat_lt
  have hsize : value (bytes 2 e.size.toNat) = e.size.toNat := by
    rw [value_bytes]
    exact Nat.mod_eq_of_lt e.size.toNat_lt
  have hstamp : value (bytes 8 e.timestamp.toNat) = e.timestamp.toNat := by
    rw [value_bytes]
    exact Nat.mod_eq_of_lt e.timestamp.toNat_lt
  have h2 : (e.header ++ l).drop 2 = bytes 2 e.size.toNat ++ (bytes 8 e.timestamp.toNat ++ l) := by
    simp [MmcEntry.header]
  have h4 : (e.header ++ l).drop 4 = bytes 8 e.timestamp.toNat ++ l := by
    rw [show 4 = 2 + 2 from rfl, ← List.drop_drop, h2]
    simp
  have h12 : (e.header ++ l).drop 12 = l := List.drop_left' e.length_header
  simp only [entryAt, h2, h4, h12]
  simp [MmcEntry.header, htype, hsize, hstamp]

theorem entryAt_bytes (e : MmcEntry) (l : List UInt8) (h : e.size.toNat = e.data.length) :
    entryAt (e.bytes ++ l) = e := by
  rw [MmcEntry.bytes, List.append_assoc, entryAt_header, h]
  simp

/-! ### The message that carries an entry -/

/-- A call of `mmc_log_entry_data`, with what it reads: the data is the memory behind a pointer,
and may be longer than the part that is logged. -/
structure LogCall where
  type : UInt16
  dataSize : UInt16
  /-- `NULL` asks the time server. -/
  timestamp : Option UInt64
  /-- The memory `data` points to. -/
  data : List UInt8
  /-- What the time server answers. -/
  now : UInt64

/-- `align_up`. -/
def alignUp (n align : UInt32) : UInt32 := (n + align - 1) &&& ~~~(align - 1)

/-- The inner loop of `mmc_log_entry_data`: the word of four bytes of data, or of those
that are there. -/
def dataWord (data : List UInt8) (dataSize : UInt16) (idx : ℕ) : UInt32 :=
  (List.range 4).foldl (fun word shift =>
    if idx * 4 + shift < dataSize.toNat then
      word ||| (data.getD (idx * 4 + shift) 0).toUInt32 <<< UInt32.ofNat (shift * 8)
    else word) 0

/-- The timestamp that is logged. -/
def LogCall.stamp (c : LogCall) : UInt64 := c.timestamp.getD c.now

/-- `total_size_bytes`. -/
def LogCall.totalSizeBytes (c : LogCall) : UInt32 :=
  alignUp (c.dataSize.toUInt32 + mmcEntryHeaderSize) 4

/-- `mmc_log_entry_data` up to the send: the length of the message in words, and the words.
There is no result where the program ends or a store is out of bounds. -/
def mmcLogEntryData (c : LogCall) (ipc : Ipc) : Option (UInt32 × Ipc) := do
  let totalSizeWords := c.totalSizeBytes / 4
  if c.totalSizeBytes % 4 ≠ 0 then none
  else if c.totalSizeBytes > mmcEntryDataSizeMax then none
  else
    let ipc ← ipc.setMR 0 (c.type.toUInt32 ||| c.dataSize.toUInt32 <<< 16)
    let ipc ← ipc.setMR 1 (c.stamp &&& 0xFFFFFFFF).toUInt32
    let ipc ← ipc.setMR 2 ((c.stamp >>> 32) &&& 0xFFFFFFFF).toUInt32
    let ipc ← (List.range (totalSizeWords - 3).toNat).foldlM (fun ipc idx =>
      -- the fourth register first, the rest goes into the array
      if idx = 0 then ipc.setMR (3 + idx) (dataWord c.data c.dataSize idx)
      else ipc.setMsg (3 + idx) (dataWord c.data c.dataSize idx)) ipc
    some (totalSizeWords, ipc)

/-- An array of words as the bytes it is in memory. -/
def wordsBytes (words : List UInt32) : List UInt8 :=
  words.flatMap fun word => bytes 4 word.toNat

/-! ### The words of an entry -/

/-- The data, filled up with zeros. -/
def paddedByte (data : List UInt8) (dataSize : UInt16) (j : ℕ) : UInt8 :=
  if j < dataSize.toNat then data.getD j 0 else 0

theorem toNat_dataWord (data : List UInt8) (dataSize : UInt16) (idx : ℕ) :
    (dataWord data dataSize idx).toNat =
      value ((List.range 4).map fun shift => paddedByte data dataSize (idx * 4 + shift)) := by
  -- after `n` rounds the word is the value of the first `n` bytes
  suffices h : ∀ n ≤ 4, ((List.range n).foldl (fun word shift =>
      if idx * 4 + shift < dataSize.toNat then
        word ||| (data.getD (idx * 4 + shift) 0).toUInt32 <<< UInt32.ofNat (shift * 8)
      else word) (0 : UInt32)).toNat =
      value ((List.range n).map fun shift => paddedByte data dataSize (idx * 4 + shift)) from
    h 4 le_rfl
  intro n
  induction n with
  | zero => exact fun _ => rfl
  | succ n ih =>
    intro hn
    have hlt := value_lt ((List.range n).map fun shift =>
      paddedByte data dataSize (idx * 4 + shift))
    rw [List.length_map, List.length_range] at hlt
    rw [List.range_succ, List.foldl_append, List.map_append, value_append, List.length_map,
      List.length_range, List.foldl_cons, List.foldl_nil, List.map_singleton, value_cons,
      value_nil, ← ih (by omega)]
    rw [← ih (by omega)] at hlt
    have hpow : (256 : ℕ) ^ n = 2 ^ (n * 8) := by
      rw [show (256 : ℕ) = 2 ^ 8 from rfl, ← Nat.pow_mul, Nat.mul_comm]
    have hbyte : (data.getD (idx * 4 + n) 0).toNat < 256 := UInt8.toNat_lt _
    by_cases hin : idx * 4 + n < dataSize.toNat
    · have hfits : 2 ^ (n * 8) * (data.getD (idx * 4 + n) 0).toUInt32.toNat < 2 ^ 32 := by
        rw [UInt8.toNat_toUInt32]
        calc 2 ^ (n * 8) * (data.getD (idx * 4 + n) 0).toNat < 2 ^ (n * 8) * 2 ^ 8 :=
              Nat.mul_lt_mul_of_pos_left hbyte (Nat.two_pow_pos _)
          _ = 2 ^ (n * 8 + 8) := (Nat.pow_add ..).symm
          _ ≤ 2 ^ 32 := Nat.pow_le_pow_right (by omega) (by omega)
      rw [if_pos hin, paddedByte, if_pos hin,
        toNat_or_shiftLeft _ _ (by omega) (by rwa [← hpow]) hfits, UInt8.toNat_toUInt32, hpow]
      simp
    · rw [if_neg hin, paddedByte, if_neg hin]
      simp

/-- **The bytes of a data word are the data it was made of**, and zeros where the data ends in the
middle of the word. -/
theorem bytes_dataWord (data : List UInt8) (dataSize : UInt16) (idx : ℕ) :
    bytes 4 (dataWord data dataSize idx).toNat =
      (List.range 4).map fun shift => paddedByte data dataSize (idx * 4 + shift) := by
  have h := bytes_value ((List.range 4).map fun shift =>
    paddedByte data dataSize (idx * 4 + shift))
  rwa [List.length_map, List.length_range, ← toNat_dataWord] at h

/-- The words `mmc_log_entry_data` sends. -/
def LogCall.word (c : LogCall) : ℕ → UInt32
  | 0 => c.type.toUInt32 ||| c.dataSize.toUInt32 <<< 16
  | 1 => (c.stamp &&& 0xFFFFFFFF).toUInt32
  | 2 => ((c.stamp >>> 32) &&& 0xFFFFFFFF).toUInt32
  | idx + 3 => dataWord c.data c.dataSize idx

/-- The entry a call is to log. -/
def LogCall.entry (c : LogCall) : MmcEntry :=
  ⟨c.type, c.dataSize, c.stamp, c.data.take c.dataSize.toNat⟩

theorem LogCall.length_entry (c : LogCall) (hdata : c.dataSize.toNat ≤ c.data.length) :
    c.entry.size.toNat = c.entry.data.length := by
  change c.dataSize.toNat = (c.data.take c.dataSize.toNat).length
  rw [List.length_take, Nat.min_eq_left hdata]

/-- The number of data words. -/
def LogCall.dataWords (c : LogCall) : ℕ := (c.dataSize.toNat + 3) / 4

section Words

variable (c : LogCall)

theorem bytes_word_zero :
    bytes 4 (c.word 0).toNat = bytes 2 c.type.toNat ++ bytes 2 c.dataSize.toNat := by
  have htype : c.type.toNat < 2 ^ 16 := c.type.toNat_lt
  have hsize : c.dataSize.toNat < 2 ^ 16 := c.dataSize.toNat_lt
  have hword : (c.word 0).toNat = c.type.toNat + 256 ^ 2 * c.dataSize.toNat :=
    toNat_or_shiftLeft c.type.toUInt32 c.dataSize.toUInt32 (show 16 < 32 by omega)
      (by rwa [UInt16.toNat_toUInt32])
      (by rw [UInt16.toNat_toUInt32]; change 65536 * _ < 4294967296; omega)
  rw [hword]
  exact bytes_add_mul (n := 2) (show c.type.toNat < 256 ^ 2 from htype)

theorem bytes_stamp :
    bytes 4 (c.word 1).toNat ++ bytes 4 (c.word 2).toNat = bytes 8 c.stamp.toNat := by
  have hlt : c.stamp.toNat < 2 ^ 64 := c.stamp.toNat_lt
  have hlow : (c.word 1).toNat = c.stamp.toNat % 256 ^ 4 := by
    change (c.stamp &&& 0xFFFFFFFF).toUInt32.toNat = _
    rw [UInt64.toNat_toUInt32, UInt64.toNat_and]
    change (c.stamp.toNat &&& (2 ^ 32 - 1)) % 2 ^ 32 = _
    rw [Nat.and_two_pow_sub_one_eq_mod, Nat.mod_mod]
    rfl
  have hhigh : (c.word 2).toNat = c.stamp.toNat / 256 ^ 4 := by
    change ((c.stamp >>> 32) &&& 0xFFFFFFFF).toUInt32.toNat = _
    rw [UInt64.toNat_toUInt32, UInt64.toNat_and, UInt64.toNat_shiftRight]
    change (c.stamp.toNat >>> 32 &&& (2 ^ 32 - 1)) % 2 ^ 32 = _
    rw [Nat.and_two_pow_sub_one_eq_mod, Nat.mod_mod, Nat.shiftRight_eq_div_pow]
    exact Nat.mod_eq_of_lt (by omega)
  rw [hlow, hhigh, bytes_mod]
  exact (bytes_add 4 4 _).symm

/-- The data words are the data and the padding. -/
theorem wordsBytes_dataWords (n : ℕ) :
    wordsBytes ((List.range n).map fun idx => c.word (idx + 3)) =
      (List.range (n * 4)).map (paddedByte c.data c.dataSize) := by
  induction n with
  | zero => rfl
  | succ n ih =>
    have hword : wordsBytes [c.word (n + 3)] =
        (List.range 4).map fun shift => paddedByte c.data c.dataSize (n * 4 + shift) := by
      rw [wordsBytes, List.flatMap_singleton]
      exact bytes_dataWord ..
    have happend : ∀ l l' : List UInt32, wordsBytes (l ++ l') = wordsBytes l ++ wordsBytes l' :=
      fun l l' => List.flatMap_append
    rw [List.range_succ, List.map_append, happend, ih, List.map_singleton, hword,
      Nat.succ_mul, List.range_add, List.map_append, List.map_map]
    rfl

theorem take_paddedByte (hdata : c.dataSize.toNat ≤ c.data.length) {n : ℕ}
    (hn : c.dataSize.toNat ≤ n) :
    ((List.range n).map (paddedByte c.data c.dataSize)).take c.dataSize.toNat =
      c.data.take c.dataSize.toNat := by
  refine List.ext_getElem? fun i => ?_
  rcases Nat.lt_or_ge i c.dataSize.toNat with hi | hi
  · rw [List.getElem?_take_of_lt hi, List.getElem?_take_of_lt hi, List.getElem?_map,
      List.getElem?_range (by omega), Option.map_some, paddedByte, if_pos hi,
      List.getD_eq_getElem?_getD, List.getElem?_eq_getElem (by omega), Option.getD_some]
  · rw [List.getElem?_take_eq_none hi, List.getElem?_take_eq_none hi]

/-- **The words of a message begin with the bytes of the entry**, header and data: the order of
the bytes in a word is that of the machine, and so the receiver may read them as they lie. -/
theorem take_wordsBytes (hdata : c.dataSize.toNat ≤ c.data.length) (rest : List UInt8) :
    (wordsBytes ((List.range (3 + c.dataWords)).map c.word) ++ rest).take
      (12 + c.dataSize.toNat) = c.entry.bytes := by
  have hwords : (List.range (3 + c.dataWords)).map c.word =
      [c.word 0, c.word 1, c.word 2] ++
        (List.range c.dataWords).map fun idx => c.word (idx + 3) := by
    rw [List.range_add, List.map_append, List.map_map]
    congr 1
    exact List.map_congr_left fun idx _ => by rw [Function.comp_apply, Nat.add_comm]
  have hheader : wordsBytes [c.word 0, c.word 1, c.word 2] = c.entry.header := by
    simp only [wordsBytes, List.flatMap_cons, List.flatMap_nil, List.append_nil]
    rw [bytes_word_zero, bytes_stamp]
    rfl
  have hlong : c.dataSize.toNat ≤ c.dataWords * 4 := by
    unfold LogCall.dataWords
    omega
  rw [hwords, wordsBytes, List.flatMap_append, ← wordsBytes, ← wordsBytes, hheader,
    wordsBytes_dataWords, List.append_assoc, ← c.entry.length_header, List.take_length_add_append,
    List.take_append_of_le_length (by simpa using hlong), take_paddedByte c hdata hlong]
  rfl

end Words

/-! ### Sending and receiving -/

/-- The loop over the data words. -/
theorem foldlM_dataWords (c : LogCall) (n : ℕ) (hn : 3 + n ≤ 120) (ipc : Ipc) :
    ∃ ipc', (List.range n).foldlM (fun ipc idx =>
        if idx = 0 then ipc.setMR (3 + idx) (dataWord c.data c.dataSize idx)
        else ipc.setMsg (3 + idx) (dataWord c.data c.dataSize idx)) ipc = some ipc' ∧
      (∀ i < 3, ipc'.word i = ipc.word i) ∧
      ∀ idx < n, ipc'.word (3 + idx) = some (c.word (3 + idx)) := by
  induction n with
  | zero => exact ⟨ipc, rfl, fun _ _ => rfl, fun idx h => absurd h (by omega)⟩
  | succ n ih =>
    obtain ⟨ipc₁, hrun, hlow, hdata⟩ := ih (by omega)
    obtain ⟨ipc₂, hset, hword, hother⟩ : ∃ ipc₂,
        (if n = 0 then ipc₁.setMR (3 + n) (dataWord c.data c.dataSize n)
          else ipc₁.setMsg (3 + n) (dataWord c.data c.dataSize n)) = some ipc₂ ∧
        ipc₂.word (3 + n) = some (dataWord c.data c.dataSize n) ∧
        ∀ j ≠ 3 + n, ipc₂.word j = ipc₁.word j := by
      -- the first data word is the last register, the others are in the array
      split_ifs with h0
      · exact setMR_spec ipc₁ _ (by omega)
      · exact setMsg_spec ipc₁ _ (by omega) (by omega)
    refine ⟨ipc₂, ?_, fun i hi => ?_, fun idx hidx => ?_⟩
    · rw [List.range_succ, List.foldlM_append, hrun]
      simp [hset]
    · rw [hother i (by omega), hlow i hi]
    · rcases Nat.lt_or_eq_of_le (Nat.le_of_lt_succ hidx) with hlt | rfl
      · rw [hother (3 + idx) (by omega), hdata idx hlt]
      · rw [hword, Nat.add_comm]
        rfl

/-- `align_up` rounds up to a multiple of four. -/
theorem toNat_alignUp_four (n : UInt32) (hn : n.toNat + 3 < 2 ^ 32) :
    (alignUp n 4).toNat = (n.toNat + 3) / 4 * 4 := by
  have hsum : (n + 4 - 1).toNat = n.toNat + 3 := by
    rw [UInt32.toNat_sub, UInt32.toNat_add]
    change (2 ^ 32 - 1 + (n.toNat + 4) % 2 ^ 32) % 2 ^ 32 = _
    omega
  have hmask : (~~~(4 - 1) : UInt32).toNat = (2 ^ 30 - 1) * 2 ^ 2 := by decide
  rw [alignUp, UInt32.toNat_and, hsum, hmask]
  -- the mask clears the two lowest bits and keeps the others
  refine Nat.eq_of_testBit_eq fun i => ?_
  rw [Nat.testBit_and, Nat.testBit_mul_two_pow, Nat.testBit_two_pow_sub_one,
    show (n.toNat + 3) / 4 * 4 = (n.toNat + 3) / 2 ^ 2 * 2 ^ 2 from rfl, Nat.testBit_mul_two_pow,
    Nat.testBit_div_two_pow]
  by_cases h2 : 2 ≤ i
  · by_cases h32 : i < 32
    · simp [h2, show i - 2 < 30 by omega, Nat.sub_add_cancel h2]
    · have hbit : (n.toNat + 3).testBit i = false :=
        Nat.testBit_lt_two_pow (hn.trans_le (Nat.pow_le_pow_right (by omega) (by omega)))
      simp [h2, hbit, Nat.sub_add_cancel h2]
  · simp [h2]

theorem toNat_totalSizeBytes (c : LogCall) : c.totalSizeBytes.toNat = (3 + c.dataWords) * 4 := by
  have hsize : c.dataSize.toNat < 65536 := c.dataSize.toNat_lt
  have hsum : (c.dataSize.toUInt32 + mmcEntryHeaderSize).toNat = c.dataSize.toNat + 12 := by
    rw [UInt32.toNat_add, UInt16.toNat_toUInt32]
    change (c.dataSize.toNat + 12) % 2 ^ 32 = _
    omega
  rw [LogCall.totalSizeBytes, toNat_alignUp_four _ (by omega), hsum, LogCall.dataWords]
  omega

/-- The data sizes that pass the check of `mmc_log_entry_data`. -/
def LogCall.SizeOk (c : LogCall) : Prop := c.totalSizeBytes ≤ mmcEntryDataSizeMax

instance (c : LogCall) : Decidable c.SizeOk := inferInstanceAs (Decidable (_ ≤ _))

/-- The check lets 456 bytes of data through. -/
theorem sizeOk_iff (c : LogCall) : c.SizeOk ↔ c.dataSize.toNat ≤ 456 := by
  rw [LogCall.SizeOk, UInt32.le_iff_toNat_le, toNat_totalSizeBytes, LogCall.dataWords]
  change (3 + (c.dataSize.toNat + 3) / 4) * 4 ≤ 468 ↔ _
  omega

/-- **The sender leaves the words of the entry in the message**, and every store is within
bounds. -/
theorem mmcLogEntryData_spec (c : LogCall) (ipc : Ipc) (hok : c.SizeOk) :
    ∃ n ipc', mmcLogEntryData c ipc = some (n, ipc') ∧ n.toNat = 3 + c.dataWords ∧
      ∀ i < 3 + c.dataWords, ipc'.word i = some (c.word i) := by
  have hsize : c.dataSize.toNat ≤ 456 := (sizeOk_iff c).mp hok
  have htotal := toNat_totalSizeBytes c
  have hfew : 3 + c.dataWords ≤ 120 := by
    unfold LogCall.dataWords
    omega
  have hwords : (c.totalSizeBytes / 4).toNat = 3 + c.dataWords := by
    rw [UInt32.toNat_div, htotal]
    exact Nat.mul_div_cancel _ (by decide)
  have hloop : (c.totalSizeBytes / 4 - 3).toNat = c.dataWords := by
    rw [UInt32.toNat_sub, hwords]
    change (2 ^ 32 - 3 + (3 + c.dataWords)) % 2 ^ 32 = _
    omega
  have haligned : c.totalSizeBytes % 4 = 0 := by
    rw [← UInt32.toNat_inj, UInt32.toNat_mod, htotal]
    exact Nat.mul_mod_left _ _
  obtain ⟨ipc₀, h0, hw0, -⟩ := setMR_spec ipc (c.word 0) (show 0 < 4 by omega)
  obtain ⟨ipc₁, h1, hw1, ho1⟩ := setMR_spec ipc₀ (c.word 1) (show 1 < 4 by omega)
  obtain ⟨ipc₂, h2, hw2, ho2⟩ := setMR_spec ipc₁ (c.word 2) (show 2 < 4 by omega)
  obtain ⟨ipc₃, h3, hlow, hdata⟩ := foldlM_dataWords c c.dataWords (by omega) ipc₂
  refine ⟨c.totalSizeBytes / 4, ipc₃, ?_, hwords, fun i hi => ?_⟩
  · simp only [LogCall.word] at h0 h1 h2
    simp only [mmcLogEntryData, haligned, hloop]
    rw [if_neg (by simp), if_neg (UInt32.not_lt.mpr hok)]
    simp only [h0, h1, h2, h3, Option.bind_eq_bind, Option.bind_some]
  · match i with
    | 0 => rw [hlow 0 (by omega), ho2 0 (by omega), ho1 0 (by omega), hw0]
    | 1 => rw [hlow 1 (by omega), ho2 1 (by omega), hw1]
    | 2 => rw [hlow 2 (by omega), hw2]
    | idx + 3 =>
      rw [Nat.add_comm]
      exact hdata idx (by omega)

/-- **The receiver ends up with the entry**, at the start of an array that held anything. -/
theorem sel4MrRecv_mmcLogEntryData (c : LogCall) (ipc : Ipc) (hok : c.SizeOk)
    (hdata : c.dataSize.toNat ≤ c.data.length) (buffer : Vector UInt32 120) :
    ∃ n ipc' buffer' rest, mmcLogEntryData c ipc = some (n, ipc') ∧
      sel4MrRecv ipc' n buffer = some buffer' ∧
      wordsBytes buffer'.toList = c.entry.bytes ++ rest := by
  have hsize : c.dataSize.toNat ≤ 456 := (sizeOk_iff c).mp hok
  obtain ⟨n, ipc', hsend, hn, hword⟩ := mmcLogEntryData_spec c ipc hok
  obtain ⟨buffer', hrecv, hlist⟩ := foldlM_store buffer (3 + c.dataWords) hword
    (by unfold LogCall.dataWords; omega)
  refine ⟨n, ipc', buffer', (wordsBytes buffer'.toList).drop (12 + c.dataSize.toNat), hsend,
    by rw [sel4MrRecv, hn]; exact hrecv, ?_⟩
  rw [← take_wordsBytes c hdata (wordsBytes (buffer.toList.drop (3 + c.dataWords))),
    hlist]
  simp only [wordsBytes, List.flatMap_append, List.take_append_drop]

end HobdSystem
