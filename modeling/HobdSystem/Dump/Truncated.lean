import HobdSystem.Dump.Reader

/-!
# Logs that are cut off

A vehicle loses its power at any time, so a log ends anywhere in its last entry. What the dump
tool makes of it depends on the part of that entry that is left (`HobdSystem.leftover`). **Up to
eleven bytes are read as the end of the file**, and the tool has printed the entries in front of
them. A whole header with a part of its data is not: the reader asks for the end-of-file flag only
behind the header, so the assertion on the length of the data fails
(`HobdSystem.dumpEntries_take_iff`).

The difference is in the order of things in `read_next_entry`. A header that comes up short sets
the flag, and the flag is asked for before the header is looked at. A header that is complete does
not set it, even if it is the end of the file; the data that comes up short does, but by then the
function has gone on to compare its length with the size in the header.

So the cuts after which a log can be read are not those between two entries only, but these and
the eleven behind each of them. The proof is an induction over the entries, with the cut moved by
the length of the first one (`HobdSystem.readEntries_take`); an entry without data has no cuts
that do harm.
-/

namespace HobdSystem

open LittleEndian Memory

/-- An entry as `write_mmc_entry` writes it: its size counts its data, which is no longer than
`MMC_ENTRY_DATA_SIZE_MAX`. -/
structure MmcEntry.WellFormed (e : MmcEntry) : Prop where
  size_eq : e.size.toNat = e.data.length
  length_le : e.data.length ≤ mmcEntryDataSizeMax.toNat

/-- The entries that are complete in the first `n` bytes of a log. -/
def completeEntries : ℕ → List MmcEntry → List MmcEntry
  | _, [] => []
  | n, e :: es => if e.bytes.length ≤ n then e :: completeEntries (n - e.bytes.length) es else []

/-- The bytes that are left of the entry that is not complete. -/
def leftover : ℕ → List MmcEntry → ℕ
  | _, [] => 0
  | n, e :: es => if e.bytes.length ≤ n then leftover (n - e.bytes.length) es else n

theorem MmcEntry.length_bytes (e : MmcEntry) : e.bytes.length = 12 + e.data.length := by
  rw [MmcEntry.bytes, List.length_append, e.length_header]

/-- The complete entries and what is left make up the part of the log that is there. -/
theorem length_take_bytes (n : ℕ) (es : List MmcEntry) :
    ((es.flatMap MmcEntry.bytes).take n).length =
      ((completeEntries n es).flatMap MmcEntry.bytes).length + leftover n es := by
  induction es generalizing n with
  | nil => simp [completeEntries, leftover]
  | cons e es ih =>
    rw [completeEntries, leftover, List.flatMap_cons]
    split_ifs with h
    · rw [List.take_append, List.take_of_length_le h, List.flatMap_cons, List.length_append,
        List.length_append, ih]
      omega
    · rw [List.length_take, List.length_append]
      simp only [List.flatMap_nil, List.length_nil]
      omega

section Cut

variable {reader : Reader} {e : MmcEntry} {rest : List UInt8}

/-- **A part of a header is the end of the file**: its read comes up short, which sets the flag
that is asked for behind it, and the number of bytes is then not compared. -/
theorem readNextEntry_short (hfile : reader.file = ⟨rest, false⟩) (hrest : rest.length < 12) :
    ∃ reader', readNextEntry reader = some (none, reader') := by
  have hread : fread 12 reader.file = (rest, ⟨[], true⟩) := by rw [hfile, fread_short hrest]
  obtain ⟨buffer, hcopy, -⟩ := copy_eq rest reader.entryBuffer
    (show 0 + rest.length ≤ _ by omega)
  refine ⟨⟨buffer, ⟨[], true⟩⟩, ?_⟩
  simp [readNextEntry, hread, hcopy]

/-- **A header with a part of its data fails the assertion**: the end-of-file flag is not set
when the header is read, and nobody asks for it afterwards. -/
theorem readNextEntry_cut {part : List UInt8} (hfile : reader.file = ⟨e.header ++ part, false⟩)
    (hpart : part.length < e.size.toNat) (hfit : part.length ≤ 948) :
    readNextEntry reader = none := by
  have hread : fread 12 reader.file = (e.header, ⟨part, false⟩) := by rw [hfile, fread_header]
  obtain ⟨buffer, hcopy, -, hsizeof⟩ := copy_header e reader.entryBuffer
  have hne : e.size ≠ 0 := by
    rintro h0
    rw [h0, UInt16.toNat_zero] at hpart
    omega
  have hread' : fread e.size.toNat ⟨part, false⟩ = (part, ⟨[], true⟩) := fread_short hpart
  obtain ⟨buffer', hcopy', -⟩ := copy_eq part buffer (show 12 + part.length ≤ _ by omega)
  simp only [readNextEntry, hread, hcopy, Option.bind_eq_bind, Option.bind_some]
  rw [if_pos trivial, if_neg (by simp), if_pos (by rw [hsizeof]; exact hne), hsizeof, hread']
  simp only [hcopy', Option.bind_some]
  rw [if_pos (by omega)]

end Cut

/-- **The loop over a log that is cut off** prints the complete entries and stops, or fails in
the data of the entry that is not complete. -/
theorem readEntries_take (es : List MmcEntry) (hes : ∀ e ∈ es, e.WellFormed) :
    ∀ {fuel n : ℕ} {reader : Reader}, (completeEntries n es).length < fuel →
      reader.file = ⟨(es.flatMap MmcEntry.bytes).take n, false⟩ →
      readEntries fuel reader =
        if leftover n es < 12 then some (completeEntries n es) else none := by
  induction es with
  | nil =>
    intro fuel n reader hfuel hfile
    obtain ⟨fuel, rfl⟩ := Nat.exists_eq_add_one_of_ne_zero (Nat.ne_zero_of_lt hfuel)
    obtain ⟨reader', hnext⟩ := readNextEntry_nil reader (by rw [hfile]; simp)
    simp [readEntries, hnext, leftover, completeEntries]
  | cons e es ih =>
    intro fuel n reader hfuel hfile
    obtain ⟨fuel, rfl⟩ := Nat.exists_eq_add_one_of_ne_zero (Nat.ne_zero_of_lt hfuel)
    obtain ⟨hsize, hshort⟩ := hes e List.mem_cons_self
    replace hshort : e.data.length ≤ 468 := hshort
    rw [List.flatMap_cons, List.take_append] at hfile
    rw [leftover, completeEntries]
    rw [completeEntries] at hfuel
    by_cases hle : e.bytes.length ≤ n
    · -- the entry is complete, and the loop goes on behind it
      rw [if_pos hle, List.length_cons] at hfuel
      rw [List.take_of_length_le hle] at hfile
      obtain ⟨reader', hnext, hfile', -⟩ := readNextEntry_bytes reader e _ hsize (by omega) hfile
      have hrest : readEntries fuel reader' = _ :=
        ih (fun e' he' => hes e' (List.mem_cons_of_mem e he')) (by omega) hfile'
      rw [if_pos hle, if_pos hle, readEntries, hnext]
      simp only [hrest]
      split_ifs <;> rfl
    · rw [if_neg hle, if_neg hle]
      split_ifs with hleft
      · -- the cut is in the header
        obtain ⟨reader', hnext⟩ := readNextEntry_short hfile (by simp; omega)
        simp [readEntries, hnext]
      · -- the cut is behind the header and in the data
        have hlen := e.length_bytes
        have hcut : e.bytes.take n = e.header ++ e.data.take (n - 12) := by
          rw [MmcEntry.bytes, List.take_append, e.length_header, List.take_of_length_le]
          rw [e.length_header]
          omega
        have hzero : n - e.bytes.length = 0 := by omega
        rw [hcut, hzero, List.take_zero, List.append_nil] at hfile
        have hnext := readNextEntry_cut hfile (by rw [List.length_take]; omega)
          (by rw [List.length_take]; omega)
        simp [readEntries, hnext]

/-- **Exactly the cuts a log is readable up to.** The dump tool prints the entries that are
complete in the first `n` bytes of a log and stops if and only if fewer than twelve bytes of the
next entry are left; otherwise an assertion fails. -/
theorem dumpEntries_take_iff (es : List MmcEntry) (hes : ∀ e ∈ es, e.WellFormed) (n : ℕ)
    (entryBuffer : Vector UInt8 (2 * (120 * 4))) :
    (dumpEntries ⟨entryBuffer, ⟨(es.flatMap MmcEntry.bytes).take n, false⟩⟩ =
        some (completeEntries n es) ↔ leftover n es < 12) ∧
      (dumpEntries ⟨entryBuffer, ⟨(es.flatMap MmcEntry.bytes).take n, false⟩⟩ = none ↔
        12 ≤ leftover n es) := by
  have hrun : dumpEntries ⟨entryBuffer, ⟨(es.flatMap MmcEntry.bytes).take n, false⟩⟩ =
      if leftover n es < 12 then some (completeEntries n es) else none := by
    refine readEntries_take es hes ?_ rfl
    -- every complete entry has a byte in the file, so the loop has rounds enough
    have hfew := length_le_length_flatMap_bytes (completeEntries n es)
    have hlen := length_take_bytes n es
    change _ < ((es.flatMap MmcEntry.bytes).take n).length + 1
    omega
  rw [hrun]
  split_ifs with hleft
  · exact ⟨iff_of_true rfl hleft, iff_of_false nofun (by omega)⟩
  · exact ⟨iff_of_false nofun hleft, iff_of_true rfl (by omega)⟩

/-- A heartbeat and a fault with two bytes of data. -/
def heartbeatAndFault : List MmcEntry := [⟨0x0020, 0, 7, []⟩, ⟨0x0010, 2, 8, [1, 2]⟩]

theorem heartbeatAndFault_wellFormed : ∀ e ∈ heartbeatAndFault, e.WellFormed := by
  intro e he
  rcases List.mem_pair.mp he with rfl | rfl
  · exact ⟨rfl, by decide⟩
  · exact ⟨rfl, by decide⟩

/-- A log that is cut in the header of its second entry. -/
theorem dumpEntries_take_iff_header :
    dumpEntries ⟨Vector.replicate _ 0,
      ⟨(heartbeatAndFault.flatMap MmcEntry.bytes).take 20, false⟩⟩ =
        some [⟨0x0020, 0, 7, []⟩] :=
  (dumpEntries_take_iff heartbeatAndFault heartbeatAndFault_wellFormed 20 _).1.mpr (by decide)

/-- A log that is cut behind the first byte of the data of its second entry. -/
theorem not_dumpEntries_cut :
    dumpEntries ⟨Vector.replicate _ 0,
      ⟨(heartbeatAndFault.flatMap MmcEntry.bytes).take 25, false⟩⟩ = none := by
  decide +kernel

end HobdSystem
