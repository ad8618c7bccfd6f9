import HobdSystem.Mmc.Entry

/-!
# The reader of the dump tool

The model of `read_next_entry` and of the loop of `main` in the log dump tool. The tool reads a
header into a buffer, and then as many bytes of data behind it as the header says; at the end of
the file it returns `NULL`. An assertion that fails and a read that runs over the buffer have no
result.

The loop of `main` is given with a bound on its rounds, and `HobdSystem.dumpEntries` gives it
rounds enough: every entry takes a header off the file, so a round for every byte and one for the
end will do. The bound is not in the way of anything that is proved, since the loop over any file
comes to its end within it.

`fread` sets the end-of-file flag only when it is asked for more bytes than are left, so the loop
over a file of whole entries reads one entry after the other and comes to the end of the file only
when it looks for the next header (`HobdSystem.readEntries_bytes`). That detail is what the way in
which the tool ends depends on, and so the file is modelled with its flag
(`HobdSystem.InputFile`). The flag is asked for behind the header and not behind the data; what
this means for a file that is cut off is in `HobdSystem.Dump.Truncated`.

The buffer is reused: an entry is read over the one before, and what is behind it stays
(`HobdSystem.readNextEntry_bytes`). The size of an entry is not compared with that of the buffer,
and what this means for a file that holds anything is in `HobdSystem.Dump.Bounds`.
-/

namespace HobdSystem

open LittleEndian Memory

/-- A file that is being read: what is left of it, and the end-of-file flag, which is set by a
read that comes up short and not by one that takes the last byte. -/
structure InputFile where
  rest : List UInt8
  eof : Bool
  deriving DecidableEq, Repr

/-- `fread`, of `n` elements of one byte. -/
def fread (n : ℕ) (file : InputFile) : List UInt8 × InputFile :=
  (file.rest.take n, ⟨file.rest.drop n, file.eof || decide (file.rest.length < n)⟩)

/-- The tool: `g_entry_buffer`, of twice the size of an entry, and the file. The buffer is a
static one and is never cleared between two entries. -/
structure Reader where
  entryBuffer : Vector UInt8 (2 * (120 * 4))
  file : InputFile

/-- `read_next_entry`, with `NULL` as `none`. -/
def readNextEntry (reader : Reader) : Option (Option MmcEntry × Reader) := do
  let (header, file) := fread 12 reader.file
  let buffer ← copy reader.entryBuffer 0 header
  if file.eof = false then
    -- the two lengths are asserted
    if header.length ≠ 12 then none
    else if (entryAt buffer.toList).size ≠ 0 then
      let (data, file) := fread (entryAt buffer.toList).size.toNat file
      let buffer' ← copy buffer 12 data
      if data.length ≠ (entryAt buffer.toList).size.toNat then none
      else some (some (entryAt buffer'.toList), ⟨buffer', file⟩)
    else some (some (entryAt buffer.toList), ⟨buffer, file⟩)
  else some (none, ⟨buffer, file⟩)

/-- The loop of `main`, for at most `fuel` rounds: the entries up to the first `NULL`. -/
def readEntries : ℕ → Reader → Option (List MmcEntry)
  | 0, _ => none
  | fuel + 1, reader =>
    match readNextEntry reader with
    | none => none
    | some (none, _) => some []
    | some (some entry, reader) => (readEntries fuel reader).map (entry :: ·)

/-- The loop of `main`. Every entry takes a header off the file, so that a round for every
byte and one for the end are enough. -/
def dumpEntries (reader : Reader) : Option (List MmcEntry) :=
  readEntries (reader.file.rest.length + 1) reader

section Reading

/-! ### One read -/

theorem fread_header (e : MmcEntry) (l : List UInt8) :
    fread 12 ⟨e.header ++ l, false⟩ = (e.header, ⟨l, false⟩) := by
  simp [fread, List.take_left', List.drop_left']

/-- A read that asks for more than is left comes to the end of the file. -/
theorem fread_short {n : ℕ} {rest : List UInt8} (h : rest.length < n) :
    fread n ⟨rest, false⟩ = (rest, ⟨[], true⟩) := by
  simp [fread, h, List.take_of_length_le h.le, List.drop_of_length_le h.le]

/-- A header is read over the start of the buffer. -/
theorem copy_header (e : MmcEntry) (entryBuffer : Vector UInt8 (2 * (120 * 4))) :
    ∃ buffer, copy entryBuffer 0 e.header = some buffer ∧
      buffer.toList = e.header ++ entryBuffer.toList.drop 12 ∧
      (entryAt buffer.toList).size = e.size := by
  obtain ⟨buffer, hcopy, hlist⟩ := copy_eq e.header entryBuffer
    (show 0 + e.header.length ≤ _ by rw [e.length_header]; omega)
  rw [List.take_zero, List.nil_append, Nat.zero_add, e.length_header] at hlist
  exact ⟨buffer, hcopy, hlist, by rw [hlist, entryAt_header]⟩

/-! ### One entry -/

/-- At the end of the file there is no entry. -/
theorem readNextEntry_nil (reader : Reader) (h : reader.file.rest = []) :
    ∃ reader', readNextEntry reader = some (none, reader') := by
  refine ⟨⟨reader.entryBuffer, ⟨[], true⟩⟩, ?_⟩
  simp [readNextEntry, fread, h, copy]

/-- **An entry is read in whole**, over what was in the buffer. The data is read behind the
header, so the buffer begins with the bytes of the entry, and the rest of it is as it was. -/
theorem readNextEntry_bytes (reader : Reader) (e : MmcEntry) (l : List UInt8)
    (hsize : e.size.toNat = e.data.length) (hshort : e.data.length ≤ 948)
    (hfile : reader.file = ⟨e.bytes ++ l, false⟩) :
    ∃ reader', readNextEntry reader = some (some e, reader') ∧ reader'.file = ⟨l, false⟩ ∧
      reader'.entryBuffer.toList = e.bytes ++ reader.entryBuffer.toList.drop e.bytes.length := by
  have hread : fread 12 reader.file = (e.header, ⟨e.data ++ l, false⟩) := by
    rw [hfile, MmcEntry.bytes, List.append_assoc, fread_header]
  obtain ⟨buffer, hcopy, hlist, hsizeof⟩ := copy_header e reader.entryBuffer
  have hentry : entryAt buffer.toList =
      { e with data := (reader.entryBuffer.toList.drop 12).take e.size.toNat } := by
    rw [hlist, entryAt_header]
  by_cases h0 : e.size = 0
  · -- nothing more is read, and no byte of the buffer behind the header is part of the entry
    have hnil : e.data = [] := by
      rw [h0, UInt16.toNat_zero] at hsize
      exact List.length_eq_zero_iff.mp hsize.symm
    refine ⟨⟨buffer, ⟨e.data ++ l, false⟩⟩, ?_, by rw [hnil]; rfl,
      by rw [hlist, MmcEntry.bytes, hnil, List.append_nil, e.length_header]⟩
    have hdata : (reader.entryBuffer.toList.drop 12).take e.size.toNat = e.data := by
      rw [h0, UInt16.toNat_zero, List.take_zero, hnil]
    have he : entryAt buffer.toList = e := by rw [hentry, hdata]
    simp only [readNextEntry, hread, hcopy, Option.bind_eq_bind, Option.bind_some]
    rw [if_pos trivial, if_neg (by simp), if_neg (by rw [hsizeof]; simpa using h0), he]
  · -- the data goes behind the header, which stays as it is
    have hread' : fread e.size.toNat ⟨e.data ++ l, false⟩ = (e.data, ⟨l, false⟩) := by
      rw [fread, hsize]
      simp
    obtain ⟨buffer', hcopy', hlist'⟩ := copy_eq e.data buffer
      (show 12 + e.data.length ≤ _ by omega)
    have hheader : buffer.toList.take 12 = e.header := by
      rw [hlist]
      exact List.take_left' e.length_header
    have he : entryAt buffer'.toList = e := by
      rw [hlist', hheader, ← MmcEntry.bytes, entryAt_bytes e _ hsize]
    refine ⟨⟨buffer', ⟨l, false⟩⟩, ?_, rfl, ?_⟩
    · simp only [readNextEntry, hread, hcopy, Option.bind_eq_bind, Option.bind_some]
      rw [if_pos trivial, if_neg (by simp), if_pos (by rw [hsizeof]; exact h0), hsizeof, hread']
      simp only [hcopy', Option.bind_some]
      rw [if_neg (by rw [hsize]; simp), he]
    · change buffer'.toList = _
      rw [hlist', hheader, hlist, ← MmcEntry.bytes, ← List.drop_drop,
        List.drop_left' e.length_header, List.drop_drop, MmcEntry.bytes, List.length_append,
        e.length_header]

/-- **The loop over a file of whole entries reads them all and then stops**, at the header it does
not find. -/
theorem readEntries_bytes (es : List MmcEntry)
    (hes : ∀ e ∈ es, e.size.toNat = e.data.length ∧ e.data.length ≤ 948) :
    ∀ {fuel : ℕ} {reader : Reader}, es.length < fuel →
      reader.file = ⟨es.flatMap MmcEntry.bytes, false⟩ → readEntries fuel reader = some es := by
  induction es with
  | nil =>
    intro fuel reader hfuel hfile
    obtain ⟨fuel, rfl⟩ := Nat.exists_eq_add_of_lt hfuel
    obtain ⟨reader', hnext⟩ := readNextEntry_nil reader (by rw [hfile]; rfl)
    simp [readEntries, hnext]
  | cons e es ih =>
    intro fuel reader hfuel hfile
    obtain ⟨fuel, rfl⟩ := Nat.exists_eq_add_one_of_ne_zero (Nat.ne_zero_of_lt hfuel)
    obtain ⟨hsize, hshort⟩ := hes e List.mem_cons_self
    obtain ⟨reader', hnext, hfile', -⟩ := readNextEntry_bytes reader e (es.flatMap MmcEntry.bytes)
      hsize hshort (by rw [hfile, List.flatMap_cons])
    rw [List.length_cons] at hfuel
    have hrest : readEntries fuel reader' = some es :=
      ih (fun e' he' => hes e' (List.mem_cons_of_mem e he')) (by omega) hfile'
    simp [readEntries, hnext, hrest]

theorem length_le_length_flatMap_bytes (es : List MmcEntry) :
    es.length ≤ (es.flatMap MmcEntry.bytes).length := by
  induction es with
  | nil => simp
  | cons e es ih =>
    rw [List.flatMap_cons, List.length_append, List.length_cons, MmcEntry.bytes,
      List.length_append, e.length_header]
    omega

/-- An entry takes at least a header, so the loop has rounds enough. -/
theorem dumpEntries_bytes (es : List MmcEntry)
    (hes : ∀ e ∈ es, e.size.toNat = e.data.length ∧ e.data.length ≤ 948) {reader : Reader}
    (hfile : reader.file = ⟨es.flatMap MmcEntry.bytes, false⟩) : dumpEntries reader = some es := by
  refine readEntries_bytes es hes ?_ hfile
  rw [hfile]
  exact Nat.lt_succ_of_le (length_le_length_flatMap_bytes es)

end Reading

end HobdSystem
