import HobdSystem.Dump.Report
import HobdSystem.Library.Traced

/-!
# Where the dump tool reads and writes

The dump tool takes sizes from the file: `read_next_entry` reads as many bytes of data into
`g_entry_buffer` as a header says, and `print_hobd_msg` looks for the checksum where the size of
the message says. A file may hold anything, and so may the sizes in it. Here both functions leave
a trace of their accesses to the buffer, and are otherwise the functions they were.

The main results are

* `HobdSystem.result_traceEntries`: **the trace changes nothing**, so that what is proved of the
  accesses is proved of the tool, and `HobdSystem.printHobdMsg_congr`: `print_hobd_msg` looks at
  no byte that is not in its trace;
* `HobdSystem.printAccesses_within`: the position of the checksum is always inside the buffer. The
  index is an `int` and may be negative, but it is counted from behind a header of fifteen bytes,
  and a size of the message is one byte;
* `HobdSystem.traceEntries_within_iff`: the size of an entry is two bytes and nobody compares it
  with the buffer. **The tool stays inside exactly if no entry of the file brings more than 948
  bytes of data**;
* `HobdSystem.traceEntries_within_log`: the entries of a log that the logging thread has written
  bring half as many. It is a result about the two programs as they are used, and nothing else
  depends on it.

What the entries of an arbitrary file are has to be said first. An entry is where the loop looks
for one, whatever it finds there, and the last one is there as far as the file goes
(`HobdSystem.fileEntries`); for the files that were written as logs these are the entries that
were written (`HobdSystem.fileEntries_bytes`).
-/

namespace HobdSystem

open LittleEndian Memory

/-- An access of the tool to `g_entry_buffer`. Writes are made by `fread`, in pieces whose length
comes from the file, and the index of a read may be negative. -/
inductive BufferAccess where
  /-- `fread` writes so many bytes from an offset on. -/
  | write (offset length : ℕ)
  /-- `print_hobd_msg` reads the byte at an index. -/
  | read (index : ℤ)
  deriving DecidableEq, Repr

/-- The access is inside the buffer. -/
def BufferAccess.Within : BufferAccess → Prop
  | write offset length => offset + length ≤ 2 * (120 * 4)
  | read index => 0 ≤ index ∧ index < 2 * (120 * 4)

/-! ### The accesses of the tool -/

/-- `read_next_entry`, with the bytes that `fread` writes. It writes those that are there. -/
def traceNextEntry (reader : Reader) : Traced BufferAccess (Option MmcEntry × Reader) := do
  let (header, file) := fread 12 reader.file
  Traced.emit [.write 0 header.length]
  let buffer ← Traced.ofOption (copy reader.entryBuffer 0 header)
  if file.eof = false then
    Traced.require (header.length = 12)
    if (entryAt buffer.toList).size ≠ 0 then
      let (data, file) := fread (entryAt buffer.toList).size.toNat file
      Traced.emit [.write 12 data.length]
      let buffer' ← Traced.ofOption (copy buffer 12 data)
      Traced.require (data.length = (entryAt buffer.toList).size.toNat)
      pure (some (entryAt buffer'.toList), ⟨buffer', file⟩)
    else pure (some (entryAt buffer.toList), ⟨buffer, file⟩)
  else pure (none, ⟨buffer, file⟩)

/-- The indices of the bytes `print_hobd_msg` looks at. The message begins at `12`, and its data
at `15`; the index of the checksum is computed in `int`. -/
def printIndices (mem : List UInt8) : List ℤ :=
  [12, 13, 14, 15 + ((msgByte mem 1).toNat : ℤ) - 4] ++
    (if msgByte mem 2 = hobdMsgSubtypeTableSubgroup then
      if msgByte mem 0 = hobdMsgTypeQuery then [15, 16, 17]
      else if msgByte mem 0 = hobdMsgTypeResponse then [15, 16] else []
    else [])

/-- `print_entry`, on the data of an entry. -/
def printAccesses (mem : List UInt8) : List BufferAccess :=
  if (entryAt mem).type = mmcEntryTypeHobdMsg then (printIndices mem).map .read else []

/-- The loop of `main`, for at most `fuel` rounds. -/
def traceEntries : ℕ → UInt32 → Reader → Traced BufferAccess (List Report)
  | 0, _, _ => Traced.ofOption none
  | fuel + 1, entryCount, reader => do
    match ← traceNextEntry reader with
    | (none, _) => pure []
    | (some _, reader) =>
      Traced.emit (printAccesses reader.entryBuffer.toList)
      let reports ← traceEntries fuel (entryCount + 1) reader
      pure (reportEntry entryCount reader.entryBuffer.toList :: reports)

/-! ### The trace changes nothing -/

theorem result_traceNextEntry (reader : Reader) :
    (traceNextEntry reader).result = readNextEntry reader := by
  unfold traceNextEntry readNextEntry
  simp only [Traced.result_bind, Traced.emit, Traced.ofOption, Traced.bind_result_require,
    apply_ite Traced.result, Traced.result_pure, Option.bind_some, Option.bind_eq_bind, ne_eq,
    ite_not, decide_eq_true_eq]

theorem result_traceEntries (fuel : ℕ) (entryCount : UInt32) (reader : Reader) :
    (traceEntries fuel entryCount reader).result = reportEntries fuel entryCount reader := by
  induction fuel generalizing entryCount reader with
  | zero => rfl
  | succ fuel ih =>
    rw [traceEntries, Traced.result_bind, result_traceNextEntry, reportEntries]
    rcases readNextEntry reader with - | ⟨- | entry, reader'⟩
    · rfl
    · rfl
    · simp only [Option.bind_some, Traced.emit_bind, Traced.result_bind, ih]
      cases reportEntries fuel (entryCount + 1) reader' <;> rfl

/-- **`print_hobd_msg` looks at no other byte**: if two buffers have the same bytes at the indices
of the trace, the same is printed. So no access has been left out of the trace. -/
theorem printHobdMsg_congr {mem mem' : List UInt8}
    (h : ∀ i ∈ printIndices mem, mem.getD i.toNat 0 = mem'.getD i.toNat 0) :
    printHobdMsg mem = printHobdMsg mem' := by
  have h0 : msgByte mem 0 = msgByte mem' 0 := h 12 (by simp [printIndices])
  have h1 : msgByte mem 1 = msgByte mem' 1 := h 13 (by simp [printIndices])
  have h2 : msgByte mem 2 = msgByte mem' 2 := h 14 (by simp [printIndices])
  have hchecksum : msgChecksum mem = msgChecksum mem' := by
    have hindex : (15 + ((msgByte mem 1).toNat : ℤ) - 4).toNat =
        12 + hobdMsgHeaderSize + (msgByte mem 1).toNat - hobdMsgHeadercsSize.toNat := by
      change _ = 12 + 3 + (msgByte mem 1).toNat - 4
      omega
    have hbyte := h (15 + ((msgByte mem 1).toNat : ℤ) - 4) (by simp [printIndices])
    rw [hindex] at hbyte
    rw [msgChecksum, msgChecksum, ← h1]
    exact hbyte
  have hbody : printMsgBody mem = printMsgBody mem' := by
    unfold printMsgBody
    rw [← h0, ← h2]
    split_ifs with hquery hsub hresp hsub
    · have h3 : msgByte mem 3 = msgByte mem' 3 := h 15 (by simp [printIndices, hquery, hsub])
      have h4 : msgByte mem 4 = msgByte mem' 4 := h 16 (by simp [printIndices, hquery, hsub])
      have h5 : msgByte mem 5 = msgByte mem' 5 := h 17 (by simp [printIndices, hquery, hsub])
      unfold printTableQuery
      rw [h3, h4, h5]
    · rfl
    · have hne : ¬hobdMsgTypeResponse = hobdMsgTypeQuery := by decide
      have h3 : msgByte mem 3 = msgByte mem' 3 := h 15 (by simp [printIndices, hne, hresp, hsub])
      have h4 : msgByte mem 4 = msgByte mem' 4 := h 16 (by simp [printIndices, hne, hresp, hsub])
      unfold printTableResponse
      rw [h1, h3, h4]
    all_goals rfl
  unfold printHobdMsg
  rw [h0, h1, h2, hchecksum, hbody]

/-- **Every index is inside the buffer**, also if the size of the message is less than four. -/
theorem printAccesses_within (mem : List UInt8) : ∀ a ∈ printAccesses mem, a.Within := by
  have hsize : (msgByte mem 1).toNat < 256 := UInt8.toNat_lt _
  intro a ha
  unfold printAccesses at ha
  split at ha
  · obtain ⟨i, hi, rfl⟩ := List.mem_map.mp ha
    change 0 ≤ i ∧ i < 960
    unfold printIndices at hi
    split_ifs at hi <;> simp at hi <;> omega
  · exact absurd ha List.not_mem_nil

/-! ### The entries of a file -/

/-- The entries of any file: an entry is where the loop looks for one, and the last one is there
as far as the file goes. -/
def fileEntries (file : List UInt8) : List MmcEntry :=
  if file.length < 12 then []
  else
    entryAt file ::
      if (entryAt file).data.length = (entryAt file).size.toNat then
        fileEntries (file.drop (12 + (entryAt file).size.toNat))
      else []
termination_by file.length
decreasing_by
  rw [List.length_drop]
  omega

/-- A file is the header of its first entry and what is behind it. -/
theorem header_entryAt {file : List UInt8} (h : 12 ≤ file.length) :
    (entryAt file).header ++ file.drop 12 = file := by
  have hword : ∀ l : List UInt8, l.length = 2 → bytes 2 (UInt16.ofNat (value l)).toNat = l := by
    intro l hl
    have hlt := value_lt l
    have hbytes := bytes_value l
    rw [hl] at hlt hbytes
    rwa [UInt16.toNat_ofNat_of_lt' hlt]
  have hstamp : ∀ l : List UInt8, l.length = 8 → bytes 8 (UInt64.ofNat (value l)).toNat = l := by
    intro l hl
    have hlt := value_lt l
    have hbytes := bytes_value l
    rw [hl] at hlt hbytes
    rwa [UInt64.toNat_ofNat_of_lt' hlt]
  have h4 : (file.drop 4).take 8 ++ file.drop 12 = file.drop 4 := by
    rw [show 12 = 4 + 8 from rfl, ← List.drop_drop, List.take_append_drop]
  have h2 : (file.drop 2).take 2 ++ file.drop 4 = file.drop 2 := by
    rw [show 4 = 2 + 2 from rfl, ← List.drop_drop, List.take_append_drop]
  rw [MmcEntry.header, entryAt, hword _ (by simp; omega), hword _ (by simp; omega),
    hstamp _ (by simp; omega), List.append_assoc, List.append_assoc, h4, h2,
    List.take_append_drop]

theorem data_entryAt (file : List UInt8) :
    (entryAt file).data = (file.drop 12).take (entryAt file).size.toNat := by
  have hlt : value ((file.drop 2).take 2) < 256 ^ 2 :=
    (value_lt _).trans_le (Nat.pow_le_pow_right (by decide) (by simp))
  change (file.drop 12).take _ = (file.drop 12).take (UInt16.ofNat _).toNat
  rw [UInt16.toNat_ofNat_of_lt' hlt]

/-- **The entries of a log are those that were written.** What the loop finds in an arbitrary file
is defined by where it looks; in a log it looks where the entries begin. -/
theorem fileEntries_bytes (es : List MmcEntry) (hes : ∀ e ∈ es, e.WellFormed) :
    fileEntries (es.flatMap MmcEntry.bytes) = es := by
  induction es with
  | nil => simp [fileEntries]
  | cons e es ih =>
    obtain ⟨hsize, -⟩ := hes e List.mem_cons_self
    rw [List.flatMap_cons, fileEntries, entryAt_bytes e _ hsize, if_neg, if_pos hsize.symm, hsize,
      ← e.length_bytes, List.drop_left, ih fun e' he' => hes e' (List.mem_cons_of_mem e he')]
    rw [List.length_append, e.length_bytes]
    omega

/-! ### One entry -/

section Entry

variable {reader : Reader} {file : List UInt8}

/-- The accesses of `read_next_entry`. -/
theorem trace_traceNextEntry (hfile : reader.file = ⟨file, false⟩) (hlen : 12 ≤ file.length) :
    (traceNextEntry reader).trace = .write 0 12 ::
      if (entryAt file).size = 0 then [] else [.write 12 (entryAt file).data.length] := by
  have hread : fread 12 reader.file = ((entryAt file).header, ⟨file.drop 12, false⟩) := by
    rw [hfile, ← fread_header, header_entryAt hlen]
  obtain ⟨buffer, hcopy, -, hsizeof⟩ := copy_header (entryAt file) reader.entryBuffer
  simp only [traceNextEntry, hread, hcopy, Traced.emit_bind, Traced.ofOption,
    Traced.mk_some_bind, hsizeof, MmcEntry.length_header, decide_true, Traced.require_true_bind,
    if_true]
  by_cases h0 : (entryAt file).size = 0
  · rw [if_neg (not_not.mpr h0), if_pos h0]
    rfl
  · rw [if_pos h0, if_neg h0, fread, ← data_entryAt]
    -- nothing is written behind the data
    rcases copy buffer 12 (entryAt file).data with - | buffer'
    · rfl
    · rcases decide ((entryAt file).data.length = (entryAt file).size.toNat) <;> rfl

/-- **One entry stays inside exactly if its data fits** behind the header: the buffer has 960
bytes, and 12 of them are taken. -/
theorem traceNextEntry_within_iff (hfile : reader.file = ⟨file, false⟩)
    (hlen : 12 ≤ file.length) :
    (∀ a ∈ (traceNextEntry reader).trace, a.Within) ↔ (entryAt file).data.length ≤ 948 := by
  rw [trace_traceNextEntry hfile hlen, List.forall_mem_cons]
  have hheader : (BufferAccess.write 0 12).Within := by
    change 0 + 12 ≤ 960
    omega
  split_ifs with h0
  · have hnil : (entryAt file).data.length = 0 := by
      rw [data_entryAt, h0]
      rfl
    exact iff_of_true ⟨hheader, by simp⟩ (by omega)
  · rw [List.forall_mem_singleton]
    change _ ∧ 12 + _ ≤ 960 ↔ _
    exact ⟨fun h => by omega, fun h => ⟨hheader, by omega⟩⟩

/-- A part of a header fits. -/
theorem traceNextEntry_short (hfile : reader.file = ⟨file, false⟩) (hlen : file.length < 12) :
    (traceNextEntry reader).trace = [.write 0 file.length] := by
  have hread : fread 12 reader.file = (file, ⟨[], true⟩) := by rw [hfile, fread_short hlen]
  obtain ⟨buffer, hcopy, -⟩ := copy_eq file reader.entryBuffer
    (show 0 + file.length ≤ _ by omega)
  simp [traceNextEntry, hread, hcopy, Traced.ofOption]

/-- **Behind an entry that fits and is complete the loop goes on**, and otherwise it has come to
its end. -/
theorem readNextEntry_entryAt (hfile : reader.file = ⟨file, false⟩) (hlen : 12 ≤ file.length)
    (hfit : (entryAt file).data.length ≤ 948) :
    if (entryAt file).data.length = (entryAt file).size.toNat then
      ∃ reader', readNextEntry reader = some (some (entryAt file), reader') ∧
        reader'.file = ⟨file.drop (12 + (entryAt file).size.toNat), false⟩
    else readNextEntry reader = none := by
  have hdata := data_entryAt file
  have hsplit := header_entryAt hlen
  split_ifs with hwhole
  · have hbytes : (entryAt file).bytes ++ file.drop (12 + (entryAt file).size.toNat) = file := by
      rw [MmcEntry.bytes, List.append_assoc, hdata, ← List.drop_drop, List.take_append_drop,
        hsplit]
    obtain ⟨reader', hnext, hfile', -⟩ := readNextEntry_bytes reader (entryAt file) _
      hwhole.symm hfit (by rw [hfile, hbytes])
    exact ⟨reader', hnext, hfile'⟩
  · rw [hdata, List.length_take] at hwhole hfit
    exact readNextEntry_cut (e := entryAt file) (by rw [hfile, hsplit]) (by omega) (by omega)

end Entry

/-! ### The loop -/

section Loop

variable {reader reader' : Reader} (entryCount : UInt32)

/-- A round has the accesses of `read_next_entry`. -/
theorem trace_subset_traceEntries (fuel : ℕ) :
    (traceNextEntry reader).trace ⊆ (traceEntries (fuel + 1) entryCount reader).trace := by
  rw [traceEntries]
  exact Traced.trace_subset_bind _ _

/-- If there is no other entry, those are all. -/
theorem forall_traceEntries_of_end
    (hend : ∀ e reader', readNextEntry reader ≠ some (some e, reader'))
    (hone : ∀ a ∈ (traceNextEntry reader).trace, a.Within) (fuel : ℕ) :
    ∀ a ∈ (traceEntries fuel entryCount reader).trace, a.Within := by
  cases fuel with
  | zero => exact fun a ha => absurd ha List.not_mem_nil
  | succ fuel =>
    rw [← result_traceNextEntry] at hend
    rw [traceEntries]
    rcases hres : (traceNextEntry reader).result with - | ⟨- | e, reader'⟩
    · rwa [Traced.bind_none _ hres]
    · rw [Traced.bind_some _ hres]
      exact List.forall_mem_append.mpr ⟨hone, fun a ha => absurd ha List.not_mem_nil⟩
    · exact absurd hres (hend e reader')

/-- If there is one, the loop goes on behind it. -/
theorem trace_traceEntries_of_next {e : MmcEntry}
    (hnext : readNextEntry reader = some (some e, reader')) (fuel : ℕ) :
    (traceEntries (fuel + 1) entryCount reader).trace =
      (traceNextEntry reader).trace ++ (printAccesses reader'.entryBuffer.toList ++
        (traceEntries fuel (entryCount + 1) reader').trace) := by
  rw [← result_traceNextEntry] at hnext
  rw [traceEntries, Traced.bind_some _ hnext]
  simp only [Traced.emit_bind]
  rcases hrest : (traceEntries fuel (entryCount + 1) reader').result with - | reports
  · rw [Traced.bind_none _ hrest]
  · rw [Traced.bind_some _ hrest, Traced.trace_pure, List.append_nil]

theorem forall_traceEntries_of_next {e : MmcEntry}
    (hnext : readNextEntry reader = some (some e, reader'))
    (hone : ∀ a ∈ (traceNextEntry reader).trace, a.Within) :
    (∀ fuel, ∀ a ∈ (traceEntries fuel entryCount reader).trace, a.Within) ↔
      ∀ fuel, ∀ a ∈ (traceEntries fuel (entryCount + 1) reader').trace, a.Within := by
  refine ⟨fun h fuel => ?_, fun h fuel => ?_⟩
  · have hround := h (fuel + 1)
    rw [trace_traceEntries_of_next entryCount hnext, List.forall_mem_append,
      List.forall_mem_append] at hround
    exact hround.2.2
  · cases fuel with
    | zero => exact fun a ha => absurd ha List.not_mem_nil
    | succ fuel =>
      rw [trace_traceEntries_of_next entryCount hnext, List.forall_mem_append,
        List.forall_mem_append]
      exact ⟨hone, printAccesses_within _, h fuel⟩

end Loop

/-- The loop over any file, from any round on. -/
theorem forall_traceEntries_iff (file : List UInt8) : ∀ (entryCount : UInt32) {reader : Reader},
    reader.file = ⟨file, false⟩ →
      ((∀ fuel, ∀ a ∈ (traceEntries fuel entryCount reader).trace, a.Within) ↔
        ∀ e ∈ fileEntries file, e.data.length ≤ 948) := by
  induction file using fileEntries.induct with
  | case1 file hshort =>
    intro entryCount reader hfile
    obtain ⟨reader', hnext⟩ := readNextEntry_short hfile hshort
    rw [fileEntries, if_pos hshort]
    refine iff_of_true (forall_traceEntries_of_end entryCount (by simp [hnext]) ?_)
      fun e he => absurd he List.not_mem_nil
    rw [traceNextEntry_short hfile hshort, List.forall_mem_singleton]
    change 0 + file.length ≤ 960
    omega
  | case2 file hlen ih =>
    intro entryCount reader hfile
    rw [fileEntries, if_neg hlen, List.forall_mem_cons]
    rw [not_lt] at hlen
    by_cases hfit : (entryAt file).data.length ≤ 948
    · have hone := (traceNextEntry_within_iff hfile hlen).mpr hfit
      have hread := readNextEntry_entryAt hfile hlen hfit
      rw [and_iff_right hfit]
      split_ifs at hread ⊢ with hwhole
      · obtain ⟨reader', hnext, hfile'⟩ := hread
        rw [forall_traceEntries_of_next entryCount hnext hone]
        exact ih hwhole _ hfile'
      · exact iff_of_true (forall_traceEntries_of_end entryCount (by simp [hread]) hone)
          fun e he => absurd he List.not_mem_nil
    · -- the round that reads the entry runs over the end of the buffer
      refine iff_of_false (fun h => hfit ?_) fun h => hfit h.1
      rw [← traceNextEntry_within_iff hfile hlen]
      exact fun a ha => h 1 a (trace_subset_traceEntries entryCount 0 ha)

/-- **The log of the logging thread is read inside the buffer**: its entries are half as long. -/
theorem traceEntries_within_log (es : List MmcEntry) (hes : ∀ e ∈ es, e.WellFormed)
    {reader : Reader} (hfile : reader.file = ⟨es.flatMap MmcEntry.bytes, false⟩) (fuel : ℕ) :
    ∀ a ∈ (traceEntries fuel 0 reader).trace, a.Within := by
  refine (forall_traceEntries_iff _ 0 hfile).mpr (fun e he => ?_) fuel
  rw [fileEntries_bytes es hes] at he
  have hle : e.data.length ≤ 468 := (hes e he).length_le
  omega

/-- **The tool stays inside `g_entry_buffer` exactly if the data of every entry of the file fits
into it.** The file may hold anything, and so may the buffer at first; the loop may run for any
number of rounds. -/
theorem traceEntries_within_iff (entryBuffer : Vector UInt8 (2 * (120 * 4)))
    (file : List UInt8) :
    (∀ fuel, ∀ a ∈ (traceEntries fuel 0 ⟨entryBuffer, ⟨file, false⟩⟩).trace, a.Within) ↔
      ∀ e ∈ fileEntries file, e.data.length ≤ 948 :=
  forall_traceEntries_iff file 0 rfl

/-- The log of a heartbeat and a fault. -/
theorem traceEntries_within_iff_heartbeat :
    ∀ fuel, ∀ a ∈ (traceEntries fuel 0 ⟨Vector.replicate _ 0,
      ⟨heartbeatAndFault.flatMap MmcEntry.bytes, false⟩⟩).trace, a.Within :=
  (traceEntries_within_iff _ _).mpr (by
    rw [fileEntries_bytes _ heartbeatAndFault_wellFormed]
    decide)

/-- An entry with one byte of data more than the buffer takes. -/
def oversized : MmcEntry := ⟨mmcEntryTypeFault, 949, 0, List.replicate 949 0⟩

/-- The last byte of such an entry is written behind the end of the buffer. -/
theorem not_traceEntries_within_oversized :
    .write 12 949 ∈ (traceEntries 1 0 ⟨Vector.replicate _ 0, ⟨oversized.bytes, false⟩⟩).trace ∧
      ¬(BufferAccess.write 12 949).Within := by
  have hdata : oversized.data.length = 949 := List.length_replicate
  have hentry : entryAt oversized.bytes = oversized := by
    have hbytes := entryAt_bytes oversized [] hdata.symm
    rwa [List.append_nil] at hbytes
  have hlen : 12 ≤ oversized.bytes.length := by simp [oversized.length_bytes]
  constructor
  · refine trace_subset_traceEntries 0 0 ?_
    rw [trace_traceNextEntry rfl hlen, hentry, hdata,
      if_neg (show ¬oversized.size = 0 from by decide)]
    simp
  · change ¬(12 + 949 ≤ 960)
    decide

end HobdSystem
