import HobdSystem.Dump.Truncated
import HobdSystem.Hobd.Comm
import HobdSystem.Hobd.Deframe
import Mathlib.Data.List.GetD

/-!
# What the dump tool reports

The model of `print_entry` and `log_csv_entry`, and of the loop of `main` with what it prints and
writes. The tool looks at an entry in the buffer it was read into. It takes the fields of a table
from where they would be, whatever the size of the message, so a message that is too short for
them is reported with bytes of the entries before it.

`HobdSystem.reach` is how many bytes of a message are looked at. **The report of an entry depends
on that entry alone exactly if the message reaches that far** (`HobdSystem.dumpReports_iff`).

That the condition is enough is a matter of following the functions of the tool through the bytes
they look at: two buffers that hold the same entry, and the same bytes of the message up to some
place, are reported alike if nothing behind that place is looked at (`HobdSystem.SameUpTo`,
`HobdSystem.reportEntry_congr`). That it is also necessary needs two logs in which an entry that
is too short is reported differently. They are found in one way for all such entries: a fault in
front of it that leaves a byte in the buffer, at the last place the tool looks at
(`HobdSystem.staleFault`). What has to be shown then is that this byte is not only looked at but
printed, so that it makes a difference in the text or in the row, whatever the other bytes are
(`HobdSystem.reportEntry_ne`).

Texts are lists of characters, as `printf` puts them together from its format and its arguments,
and are compared as such.
-/

namespace HobdSystem

open Bytes Framing LittleEndian Memory

/-! ### Formats -/

/-- `%lu`, `%llu` and `%u`. -/
def fmtDec (n : ℕ) : List Char := Nat.toDigits 10 n

/-- A field that is filled up with zeros. -/
def fmtPad (width : ℕ) (l : List Char) : List Char := List.replicate (width - l.length) '0' ++ l

/-- `%02lX` and `%04lX`. -/
def fmtHex (width n : ℕ) : List Char := fmtPad width ((Nat.toDigits 16 n).map Char.toUpper)

/-- A `printf` with one argument. -/
def printed (before : String) (arg : List Char) (after : String) : List Char :=
  before.toList ++ (arg ++ after.toList)

/-- `%u,%u` and so on. -/
def fmtCommas (args : List ℕ) : List Char := [','].intercalate (args.map fmtDec)

/-! ### A message -/

/-- `MMC_ENTRY_TYPE_FAULT`. -/
def mmcEntryTypeFault : UInt16 := 0x0010

/-- `MMC_ENTRY_TYPE_HEARTBEAT`. -/
def mmcEntryTypeHeartbeat : UInt16 := 0x0020

/-- `get_entry_type_str`. -/
def getEntryTypeStr (type : UInt16) : String :=
  if type = mmcEntryTypeInvalid then "INVALID"
  else if type = mmcEntryTypeBeginFlag then "BEGIN-FLAG"
  else if type = mmcEntryTypeHobdMsg then "HOBD-MSG"
  else if type = mmcEntryTypeFault then "FAULT"
  else if type = mmcEntryTypeHeartbeat then "HEARTBEAT"
  else "NA"

/-- A byte of the message in the entry at the start of some memory. -/
def msgByte (mem : List UInt8) (i : ℕ) : UInt8 := mem.getD (12 + i) 0

/-- The checksum, as `print_hobd_msg` finds it: `data[size - 4]`, with the index an `int`. -/
def msgChecksum (mem : List UInt8) : UInt8 :=
  mem.getD (12 + hobdMsgHeaderSize + (msgByte mem 1).toNat - hobdMsgHeadercsSize.toNat) 0

/-- `print_hobd_msg` on the fields of `hobd_data_table_query_s`. -/
def printTableQuery (mem : List UInt8) : List Char :=
  "        table-subgroup\n".toList ++
    (printed "        table: 0x" (fmtHex 2 (msgByte mem 3).toNat) "\n" ++
    (printed "        offset: 0x" (fmtHex 2 (msgByte mem 4).toNat) "\n" ++
    printed "        count: " (fmtDec (msgByte mem 5).toNat) "\n"))

/-- `print_hobd_msg` on the fields of `hobd_data_table_response_s`. The count is computed in
`size_t`. -/
def printTableResponse (mem : List UInt8) : List Char :=
  "        table-subgroup\n".toList ++
    (printed "        table: 0x" (fmtHex 2 (msgByte mem 3).toNat) "\n" ++
    (printed "        offset: 0x" (fmtHex 2 (msgByte mem 4).toNat) "\n" ++
    printed "        count: " (fmtDec ((msgByte mem 1).toUInt64 - 4 - 2).toNat) "\n"))

/-- `print_hobd_msg` behind the checksum. -/
def printMsgBody (mem : List UInt8) : List Char :=
  if msgByte mem 0 = hobdMsgTypeQuery then
    "      -> query\n".toList ++
      (if msgByte mem 2 = hobdMsgSubtypeTableSubgroup then printTableQuery mem else [])
  else if msgByte mem 0 = hobdMsgTypeResponse then
    "      <- response\n".toList ++
      (if msgByte mem 2 = hobdMsgSubtypeTableSubgroup then printTableResponse mem
      else if msgByte mem 2 = hobdMsgSubtypeInit then "        init\n".toList else [])
  else if msgByte mem 0 = hobdMsgTypeWakeUp then "      -> wake-up\n".toList
  else []

/-- `print_hobd_msg`. -/
def printHobdMsg (mem : List UInt8) : List Char :=
  "  hobd-msg\n".toList ++
    (printed "    type: 0x" (fmtHex 2 (msgByte mem 0).toNat) "\n" ++
    (printed "    size: " (fmtDec (msgByte mem 1).toNat) " bytes\n" ++
    (printed "    subtype: 0x" (fmtHex 2 (msgByte mem 2).toNat) "\n" ++
    (printed "    checksum: 0x" (fmtHex 2 (msgChecksum mem).toNat) "\n" ++ printMsgBody mem))))

/-- `print_entry`. -/
def printEntry (entryCount : UInt32) (mem : List UInt8) : List Char :=
  printed "[" (fmtPad 4 (fmtDec entryCount.toNat)) "]\n" ++
    (printed "  type: 0x" (fmtHex 4 (entryAt mem).type.toNat) " | " ++
    (printed "" (getEntryTypeStr (entryAt mem).type).toList "\n" ++
    (printed "  size: " (fmtDec (entryAt mem).size.toNat) " bytes\n" ++
    (printed "  timestamp: " (fmtDec (entryAt mem).timestamp.toNat) " ns\n" ++
    ((if (entryAt mem).type = mmcEntryTypeHobdMsg then printHobdMsg mem else []) ++ ['\n'])))))

/-! ### A row -/

/-- The two files for tables. -/
inductive CsvFile where
  | table10
  | tableD1
  deriving DecidableEq, Repr

/-- The field of two bytes at an offset in the data of a response. -/
def tableField16 (mem : List UInt8) (i : ℕ) : ℕ :=
  value [msgByte mem (5 + i), msgByte mem (5 + i + 1)]

/-- The field of one byte. -/
def tableField (mem : List UInt8) (i : ℕ) : ℕ := (msgByte mem (5 + i)).toNat

/-- `log_csv_table_10`. There is no comma between the parts of its format. -/
def logCsvTable10 (mem : List UInt8) : List Char :=
  fmtCommas [(entryAt mem).timestamp.toNat, tableField16 mem 0, tableField mem 2,
      tableField mem 3, tableField mem 4, tableField mem 5] ++
    (fmtCommas [tableField mem 6, tableField mem 7, tableField mem 8, tableField mem 9,
      tableField mem 10, tableField mem 11] ++
    (fmtCommas [tableField mem 12, tableField mem 13, tableField16 mem 14] ++ ['\n']))

/-- `log_csv_table_d1`. -/
def logCsvTableD1 (mem : List UInt8) : List Char :=
  fmtCommas [(entryAt mem).timestamp.toNat, tableField mem 0, tableField mem 1,
    tableField mem 2, tableField mem 3, tableField mem 4] ++ ['\n']

/-- `log_csv_entry`: the row and the file it goes to. -/
def logCsvEntry (mem : List UInt8) : Option (CsvFile × List Char) :=
  if (entryAt mem).type = mmcEntryTypeHobdMsg ∧ msgByte mem 0 = hobdMsgTypeResponse ∧
      msgByte mem 2 = hobdMsgSubtypeTableSubgroup then
    if msgByte mem 3 = hobdTable10 then some (.table10, logCsvTable10 mem)
    else if msgByte mem 3 = hobdTableD1 then some (.tableD1, logCsvTableD1 mem)
    else none
  else none

/-! ### The loop -/

/-- What the tool reports of an entry: the text it prints, and for a response with one of two
tables the row it writes. -/
structure Report where
  text : List Char
  row : Option (CsvFile × List Char)
  deriving DecidableEq

/-- The report of the entry in the buffer. -/
def reportEntry (entryCount : UInt32) (mem : List UInt8) : Report :=
  ⟨printEntry entryCount mem, logCsvEntry mem⟩

/-- The loop of `main`, for at most `fuel` rounds. -/
def reportEntries : ℕ → UInt32 → Reader → Option (List Report)
  | 0, _, _ => none
  | fuel + 1, entryCount, reader =>
    match readNextEntry reader with
    | none => none
    | some (none, _) => some []
    | some (some _, reader) =>
      (reportEntries fuel (entryCount + 1) reader).map
        (reportEntry entryCount reader.entryBuffer.toList :: ·)

/-- The loop of `main` on a log, with `g_entry_buffer` as a static buffer begins. -/
def dumpReports (es : List MmcEntry) : Option (List Report) :=
  reportEntries ((es.flatMap MmcEntry.bytes).length + 1) 0
    ⟨Vector.replicate _ 0, ⟨es.flatMap MmcEntry.bytes, false⟩⟩

/-! ### Entries whose report is their own -/

/-- An entry of the log, with a message as the parser delivers it if it holds one. -/
structure MmcEntry.Logged (e : MmcEntry) : Prop where
  wellFormed : e.WellFormed
  frame : e.type = mmcEntryTypeHobdMsg → Complete hobdFormat e.data ∧ byteSum e.data % 256 = 0

/-- How many bytes of a message are looked at: its size in any case, and the fields of a query or
of one of the two tables if its header says that it holds one. -/
def reach (msg : List UInt8) : ℕ :=
  if headerType msg = hobdMsgTypeQuery ∧ headerSubtype msg = hobdMsgSubtypeTableSubgroup then 6
  else if headerType msg = hobdMsgTypeResponse ∧
      headerSubtype msg = hobdMsgSubtypeTableSubgroup then
    if msg.getD 3 0 = hobdTable10 then 21 else if msg.getD 3 0 = hobdTableD1 then 10 else 5
  else 4

/-- **All that is looked at belongs to the entry.** It is a condition on a message that is
decidable, and it holds of every entry that is not a message. -/
def ReadsOwn (e : MmcEntry) : Prop := e.type = mmcEntryTypeHobdMsg → reach e.data ≤ e.data.length

instance (e : MmcEntry) : Decidable (ReadsOwn e) := inferInstanceAs (Decidable (_ → _))

/-- Two memories that hold the same entry, and the same first bytes of the message in it. -/
structure SameUpTo (n : ℕ) (mem mem' : List UInt8) : Prop where
  entry : entryAt mem = entryAt mem'
  byte : ∀ i < n, msgByte mem i = msgByte mem' i

section Same

variable {mem mem' : List UInt8} {n : ℕ}

theorem printTableQuery_congr (h : SameUpTo n mem mem') (hn : 6 ≤ n) :
    printTableQuery mem = printTableQuery mem' := by
  unfold printTableQuery
  rw [h.byte 3 (by omega), h.byte 4 (by omega), h.byte 5 (by omega)]

theorem printTableResponse_congr (h : SameUpTo n mem mem') (hn : 5 ≤ n) :
    printTableResponse mem = printTableResponse mem' := by
  unfold printTableResponse
  rw [h.byte 1 (by omega), h.byte 3 (by omega), h.byte 4 (by omega)]

theorem printMsgBody_congr (h : SameUpTo n mem mem') (hn : 4 ≤ n)
    (hquery : msgByte mem 0 = hobdMsgTypeQuery →
      msgByte mem 2 = hobdMsgSubtypeTableSubgroup → 6 ≤ n)
    (hresp : msgByte mem 0 = hobdMsgTypeResponse →
      msgByte mem 2 = hobdMsgSubtypeTableSubgroup → 5 ≤ n) :
    printMsgBody mem = printMsgBody mem' := by
  unfold printMsgBody
  rw [← h.byte 0 (by omega), ← h.byte 2 (by omega)]
  split_ifs with h0 h2 h0 h2
  · rw [printTableQuery_congr h (hquery h0 h2)]
  · rfl
  · rw [printTableResponse_congr h (hresp h0 h2)]
  all_goals rfl

theorem msgChecksum_congr (h : SameUpTo n mem mem') (hn : 1 < n)
    (hfour : 4 ≤ (msgByte mem 1).toNat) (hle : (msgByte mem 1).toNat ≤ n) :
    msgChecksum mem = msgChecksum mem' := by
  have hindex : ∀ s, 4 ≤ s → 12 + hobdMsgHeaderSize + s - hobdMsgHeadercsSize.toNat =
      12 + (s - 1) := by
    intro s hs
    change 12 + 3 + s - 4 = _
    omega
  rw [msgChecksum, msgChecksum, ← h.byte 1 hn, hindex _ hfour]
  exact h.byte _ (by omega)

/-- Everything `print_entry` prints in front of the last part. -/
theorem printEntry_eq_iff (h : SameUpTo n mem mem') (entryCount : UInt32)
    (htype : (entryAt mem).type = mmcEntryTypeHobdMsg) (hn : 4 ≤ n)
    (hfour : 4 ≤ (msgByte mem 1).toNat) (hle : (msgByte mem 1).toNat ≤ n) :
    printEntry entryCount mem = printEntry entryCount mem' ↔
      printMsgBody mem = printMsgBody mem' := by
  unfold printEntry
  rw [← h.entry, if_pos htype, if_pos htype]
  unfold printHobdMsg
  rw [msgChecksum_congr h (by omega) hfour hle, h.byte 0 (by omega), h.byte 1 (by omega),
    h.byte 2 (by omega)]
  simp only [List.append_assoc, List.append_cancel_left_eq, List.append_cancel_right_eq]

theorem logCsvTable10_congr (h : SameUpTo n mem mem') (hn : 21 ≤ n) :
    logCsvTable10 mem = logCsvTable10 mem' := by
  have hfield : ∀ i ≤ 15, tableField mem i = tableField mem' i := fun i hi =>
    congrArg UInt8.toNat (h.byte (5 + i) (by omega))
  have hfield16 : ∀ i ≤ 14, tableField16 mem i = tableField16 mem' i := fun i hi => by
    rw [tableField16, h.byte (5 + i) (by omega), h.byte (5 + i + 1) (by omega), tableField16]
  simp (disch := decide) only [logCsvTable10, h.entry, hfield, hfield16]

theorem logCsvTableD1_congr (h : SameUpTo n mem mem') (hn : 10 ≤ n) :
    logCsvTableD1 mem = logCsvTableD1 mem' := by
  have hfield : ∀ i ≤ 4, tableField mem i = tableField mem' i := fun i hi =>
    congrArg UInt8.toNat (h.byte (5 + i) (by omega))
  simp (disch := decide) only [logCsvTableD1, h.entry, hfield]

theorem logCsvTable10_ne (h : SameUpTo 20 mem mem') (h0 : msgByte mem 20 = 0)
    (h1 : msgByte mem' 20 = 1) : logCsvTable10 mem ≠ logCsvTable10 mem' := by
  have hfield : ∀ i ≤ 14, tableField mem i = tableField mem' i := fun i hi =>
    congrArg UInt8.toNat (h.byte (5 + i) (by omega))
  have hrpm : tableField16 mem 0 = tableField16 mem' 0 := by
    rw [tableField16, h.byte (5 + 0) (by omega), h.byte (5 + 0 + 1) (by omega), tableField16]
  -- the two bytes of the last field
  have hlast : tableField16 mem 14 = (msgByte mem' 19).toNat := by
    rw [tableField16, h.byte (5 + 14) (by omega), h0]
    simp
  have hlast' : tableField16 mem' 14 = (msgByte mem' 19).toNat + 256 := by
    rw [tableField16, h1]
    simp
  have hdec : ∀ n < 256, fmtDec n ≠ fmtDec (n + 256) := by decide +kernel
  intro heq
  simp (disch := decide) only [logCsvTable10, h.entry, hfield, hrpm, hlast, hlast',
    List.append_cancel_left_eq, List.append_cancel_right_eq, fmtCommas, List.map_cons,
    List.map_nil, List.intercalate_cons_cons, List.intercalate_singleton] at heq
  exact hdec _ (msgByte mem' 19).toNat_lt heq

theorem logCsvTableD1_ne (h : SameUpTo 9 mem mem') (h0 : msgByte mem 9 = 0)
    (h1 : msgByte mem' 9 = 1) : logCsvTableD1 mem ≠ logCsvTableD1 mem' := by
  have hfield : ∀ i ≤ 3, tableField mem i = tableField mem' i := fun i hi =>
    congrArg UInt8.toNat (h.byte (5 + i) (by omega))
  have hlast : tableField mem 4 = 0 := congrArg UInt8.toNat h0
  have hlast' : tableField mem' 4 = 1 := congrArg UInt8.toNat h1
  intro heq
  simp (disch := decide) only [logCsvTableD1, h.entry, hfield, hlast, hlast',
    List.append_cancel_left_eq, List.append_cancel_right_eq, fmtCommas, List.map_cons,
    List.map_nil, List.intercalate_cons_cons, List.intercalate_singleton] at heq
  exact absurd heq (by decide)

theorem getD_drop_msg (mem : List UInt8) (i : ℕ) : (mem.drop 12).getD i 0 = msgByte mem i := by
  rw [msgByte, List.getD_eq_getElem?_getD, List.getElem?_drop, ← List.getD_eq_getElem?_getD]

/-- **The report looks no further than `reach`**: two buffers that agree up to there, on the entry
and on the bytes of its message, are reported alike. -/
theorem reportEntry_congr (h : SameUpTo n mem mem') (entryCount : UInt32)
    (hmsg : (entryAt mem).type = mmcEntryTypeHobdMsg → 4 ≤ (msgByte mem 1).toNat ∧
      (msgByte mem 1).toNat ≤ n ∧ reach (mem.drop 12) ≤ n) :
    reportEntry entryCount mem = reportEntry entryCount mem' := by
  by_cases htype : (entryAt mem).type = mmcEntryTypeHobdMsg
  · obtain ⟨hfour, hle, hreach⟩ := hmsg htype
    simp only [reach, headerType, headerSubtype, getD_drop_msg] at hreach
    have hbody : printMsgBody mem = printMsgBody mem' := by
      refine printMsgBody_congr h (by omega) (fun h0 h2 => ?_) (fun h0 h2 => ?_)
      · rwa [if_pos ⟨h0, h2⟩] at hreach
      · rw [if_neg fun hc => absurd (h0.symm.trans hc.1) (by decide), if_pos ⟨h0, h2⟩] at hreach
        split_ifs at hreach <;> omega
    have hrow : logCsvEntry mem = logCsvEntry mem' := by
      unfold logCsvEntry
      rw [← h.entry, ← h.byte 0 (by omega), ← h.byte 2 (by omega), ← h.byte 3 (by omega)]
      split_ifs with hresp h10 hd1
      · obtain ⟨-, h0, h2⟩ := hresp
        rw [if_neg fun hc => absurd (h0.symm.trans hc.1) (by decide), if_pos ⟨h0, h2⟩,
          if_pos h10] at hreach
        rw [logCsvTable10_congr h hreach]
      · obtain ⟨-, h0, h2⟩ := hresp
        rw [if_neg fun hc => absurd (h0.symm.trans hc.1) (by decide), if_pos ⟨h0, h2⟩,
          if_neg h10, if_pos hd1] at hreach
        rw [logCsvTableD1_congr h hreach]
      · rfl
      · rfl
    rw [reportEntry, reportEntry,
      (printEntry_eq_iff h entryCount htype (by omega) hfour hle).mpr hbody, hrow]
  · have htype' : ¬(entryAt mem').type = mmcEntryTypeHobdMsg := h.entry ▸ htype
    have htext : printEntry entryCount mem = printEntry entryCount mem' := by
      unfold printEntry
      rw [← h.entry, if_neg htype, if_neg htype]
    have hrow : ∀ mem, ¬(entryAt mem).type = mmcEntryTypeHobdMsg → logCsvEntry mem = none :=
      fun mem hmem => if_neg fun hc => hmem hc.1
    rw [reportEntry, reportEntry, htext, hrow mem htype, hrow mem' htype']

/-- **The last byte within reach is reported.** If it is zero in one memory and one in the other,
and they are the same in front of it, the reports differ. -/
theorem reportEntry_ne (entryCount : UInt32) (h : SameUpTo n mem mem')
    (htype : (entryAt mem).type = mmcEntryTypeHobdMsg) (hfour : 4 ≤ (msgByte mem 1).toNat)
    (hle : (msgByte mem 1).toNat ≤ n) (hreach : reach (mem.drop 12) = n + 1)
    (h0 : msgByte mem n = 0) (h1 : msgByte mem' n = 1) :
    reportEntry entryCount mem ≠ reportEntry entryCount mem' := by
  intro heq
  obtain ⟨htext, hrow⟩ := Report.mk.inj heq
  rw [printEntry_eq_iff h entryCount htype (by omega) hfour hle] at htext
  unfold printMsgBody at htext
  unfold logCsvEntry at hrow
  simp only [reach, headerType, headerSubtype, getD_drop_msg] at hreach
  rw [← h.byte 0 (by omega), ← h.byte 2 (by omega)] at htext
  rw [← h.entry, ← h.byte 0 (by omega), ← h.byte 2 (by omega), ← h.byte 3 (by omega)] at hrow
  split_ifs at hreach with hq hr h10 hd1
  · -- the count of a query
    obtain rfl : n = 5 := by omega
    rw [if_pos hq.1, if_pos hq.2, if_pos hq.1, if_pos hq.2, List.append_cancel_left_eq] at htext
    unfold printTableQuery at htext
    rw [h.byte 3 (by omega), h.byte 4 (by omega), h0, h1] at htext
    simp only [List.append_cancel_left_eq] at htext
    exact absurd htext (by decide)
  · -- the last field of table 10
    obtain rfl : n = 20 := by omega
    rw [if_pos ⟨htype, hr⟩, if_pos h10, if_pos ⟨htype, hr⟩, if_pos h10] at hrow
    exact logCsvTable10_ne h h0 h1 (Prod.mk.inj (Option.some.inj hrow)).2
  · -- the last field of table D1
    obtain rfl : n = 9 := by omega
    rw [if_pos ⟨htype, hr⟩, if_neg h10, if_pos hd1, if_pos ⟨htype, hr⟩, if_neg h10,
      if_pos hd1] at hrow
    exact logCsvTableD1_ne h h0 h1 (Prod.mk.inj (Option.some.inj hrow)).2
  · -- the offset of a response
    obtain rfl : n = 4 := by omega
    have hne : ¬msgByte mem 0 = hobdMsgTypeQuery := fun hc =>
      absurd (hr.1.symm.trans hc) (by decide)
    rw [if_neg hne, if_pos hr.1, if_pos hr.2, if_neg hne, if_pos hr.1, if_pos hr.2,
      List.append_cancel_left_eq] at htext
    unfold printTableResponse at htext
    rw [h.byte 1 (by omega), h.byte 3 (by omega), h0, h1] at htext
    simp only [List.append_cancel_left_eq, List.append_cancel_right_eq] at htext
    exact absurd htext (by decide)
  · omega

end Same

/-! ### Whole logs -/

/-- The buffer once an entry has been read over what was in it. -/
def overwrite (e : MmcEntry) (mem : List UInt8) : List UInt8 :=
  e.bytes ++ mem.drop e.bytes.length

/-- The reports of some entries, from a buffer on. -/
def reportsFrom : UInt32 → List UInt8 → List MmcEntry → List Report
  | _, _, [] => []
  | entryCount, mem, e :: es =>
    reportEntry entryCount (overwrite e mem) :: reportsFrom (entryCount + 1) (overwrite e mem) es

/-- **The loop over a log** reports every entry, and each over the ones before it: the buffer is
what the entry leaves of it, and nothing is cleared in between. -/
theorem reportEntries_bytes (es : List MmcEntry) (hes : ∀ e ∈ es, e.WellFormed) :
    ∀ {fuel : ℕ} (entryCount : UInt32) (reader : Reader), es.length < fuel →
      reader.file = ⟨es.flatMap MmcEntry.bytes, false⟩ →
      reportEntries fuel entryCount reader =
        some (reportsFrom entryCount reader.entryBuffer.toList es) := by
  induction es with
  | nil =>
    intro fuel entryCount reader hfuel hfile
    obtain ⟨fuel, rfl⟩ := Nat.exists_eq_add_one_of_ne_zero (Nat.ne_zero_of_lt hfuel)
    obtain ⟨reader', hnext⟩ := readNextEntry_nil reader (by rw [hfile]; rfl)
    simp [reportEntries, hnext, reportsFrom]
  | cons e es ih =>
    intro fuel entryCount reader hfuel hfile
    obtain ⟨fuel, rfl⟩ := Nat.exists_eq_add_one_of_ne_zero (Nat.ne_zero_of_lt hfuel)
    obtain ⟨hsize, hshort⟩ := hes e List.mem_cons_self
    replace hshort : e.data.length ≤ 468 := hshort
    obtain ⟨reader', hnext, hfile', hbuffer⟩ := readNextEntry_bytes reader e
      (es.flatMap MmcEntry.bytes) hsize (by omega) (by rw [hfile, List.flatMap_cons])
    rw [List.length_cons] at hfuel
    have hrest : reportEntries fuel (entryCount + 1) reader' = _ :=
      ih (fun e' he' => hes e' (List.mem_cons_of_mem e he')) _ _ (by omega) hfile'
    rw [reportEntries, hnext, reportsFrom, overwrite, ← hbuffer]
    simp only [hrest, Option.map_some]

theorem dumpReports_eq {es : List MmcEntry} (hes : ∀ e ∈ es, e.Logged) :
    dumpReports es = some (reportsFrom 0 (List.replicate 960 0) es) := by
  have hrun := reportEntries_bytes es (fun e he => (hes e he).wellFormed) 0
    ⟨Vector.replicate _ 0, ⟨es.flatMap MmcEntry.bytes, false⟩⟩
    (Nat.lt_succ_of_le (length_le_length_flatMap_bytes es)) rfl
  rw [dumpReports, hrun, Vector.toList_replicate]

/-- The report of an entry is made over some bytes behind it. -/
theorem getElem?_reportsFrom (es : List MmcEntry) {e : MmcEntry} :
    ∀ {i : ℕ} (entryCount : UInt32) (mem : List UInt8), es[i]? = some e →
      ∃ rest, (reportsFrom entryCount mem es)[i]? =
        some (reportEntry (entryCount + UInt32.ofNat i) (e.bytes ++ rest)) := by
  induction es with
  | nil => exact fun _ _ h => absurd h (by simp)
  | cons e' es ih =>
    intro i entryCount mem h
    cases i with
    | zero =>
      obtain rfl := Option.some.inj h
      refine ⟨mem.drop e'.bytes.length, ?_⟩
      simp [reportsFrom, overwrite]
    | succ i =>
      obtain ⟨rest, hrest⟩ := ih (entryCount + 1) (overwrite e' mem) (by simpa using h)
      refine ⟨rest, ?_⟩
      rw [reportsFrom, List.getElem?_cons_succ, hrest, UInt32.ofNat_add, UInt32.add_assoc,
        UInt32.add_comm 1]
      rfl

section Own

variable {e : MmcEntry}

theorem msgByte_bytes (e : MmcEntry) (rest : List UInt8) {i : ℕ} (hi : i < e.data.length) :
    msgByte (e.bytes ++ rest) i = e.data.getD i 0 := by
  rw [msgByte, MmcEntry.bytes, List.append_assoc, List.getD_append_right _ _ _ _ (by simp),
    e.length_header, Nat.add_sub_cancel_left, List.getD_append _ _ _ _ hi]

theorem msgByte_rest (e : MmcEntry) (rest : List UInt8) {i : ℕ} (hi : e.data.length ≤ i) :
    msgByte (e.bytes ++ rest) i = rest.getD (i - e.data.length) 0 := by
  rw [msgByte, MmcEntry.bytes, List.append_assoc, List.getD_append_right _ _ _ _ (by simp),
    e.length_header, Nat.add_sub_cancel_left, List.getD_append_right _ _ _ _ hi]

/-- The size byte of the message counts its bytes. -/
theorem MmcEntry.Logged.msgSize (he : e.Logged) (htype : e.type = mmcEntryTypeHobdMsg)
    (rest : List UInt8) : 4 ≤ e.data.length ∧
      (msgByte (e.bytes ++ rest) 1).toNat = e.data.length := by
  obtain ⟨⟨t, s, st, r, hdata, hs, hlen⟩, -⟩ := he.frame htype
  rw [hobdFormat_badSize] at hs
  have hlength : e.data.length = r.length + 3 := by rw [hdata]; rfl
  refine ⟨by omega, ?_⟩
  rw [msgByte_bytes e rest (by omega), hdata]
  change s.toNat = _
  simp only [List.length_cons]
  omega

theorem reach_append {l rest : List UInt8} (hl : 4 ≤ l.length) : reach (l ++ rest) = reach l := by
  have hbyte : ∀ i < 4, (l ++ rest).getD i 0 = l.getD i 0 := fun i hi =>
    List.getD_append _ _ _ _ (by omega)
  unfold reach headerType headerSubtype
  rw [hbyte 0 (by decide), hbyte 2 (by decide), hbyte 3 (by decide)]

theorem sameUpTo_bytes (he : e.WellFormed) (rest rest' : List UInt8) :
    SameUpTo e.data.length (e.bytes ++ rest) (e.bytes ++ rest') where
  entry := by rw [entryAt_bytes e rest he.size_eq, entryAt_bytes e rest' he.size_eq]
  byte i hi := by rw [msgByte_bytes e rest hi, msgByte_bytes e rest' hi]

theorem drop_bytes (e : MmcEntry) (rest : List UInt8) :
    (e.bytes ++ rest).drop 12 = e.data ++ rest := by
  rw [MmcEntry.bytes, List.append_assoc, List.drop_left' e.length_header]

/-- **An entry that reaches far enough** is reported the same over all bytes that may be behind it
in the buffer. -/
theorem ReadsOwn.reportEntry_eq (hown : ReadsOwn e) (he : e.Logged) (entryCount : UInt32)
    (rest rest' : List UInt8) :
    reportEntry entryCount (e.bytes ++ rest) = reportEntry entryCount (e.bytes ++ rest') := by
  refine reportEntry_congr (sameUpTo_bytes he.wellFormed rest rest') entryCount fun htype => ?_
  rw [entryAt_bytes e rest he.wellFormed.size_eq] at htype
  obtain ⟨hfour, hsize⟩ := he.msgSize htype rest
  rw [hsize, drop_bytes, reach_append hfour]
  exact ⟨hfour, le_rfl, hown htype⟩

/-! A fault leaves its data behind in the buffer. -/

/-- A fault with a byte in its data, at an index. -/
def staleFault (i : ℕ) (b : UInt8) : MmcEntry :=
  ⟨mmcEntryTypeFault, 32, 0, (List.replicate 32 0).set i b⟩

theorem staleFault_logged (i : ℕ) (b : UInt8) : (staleFault i b).Logged where
  wellFormed := ⟨by simp [staleFault], by simp [staleFault, mmcEntryDataSizeMax]⟩
  frame htype := absurd htype (by simp [staleFault, mmcEntryTypeFault, mmcEntryTypeHobdMsg])

/-- Behind a short message the data of the fault in front of it is still there. -/
theorem msgByte_stale (i : ℕ) (b : UInt8) (mem : List UInt8) {j : ℕ} (hj : e.data.length ≤ j)
    (hlt : j < 32) :
    msgByte (overwrite e (overwrite (staleFault i b) mem)) j = if i = j then b else 0 := by
  rw [overwrite, msgByte_rest e _ hj, overwrite, List.getD_eq_getElem?_getD, List.getElem?_drop,
    e.length_bytes, show 12 + e.data.length + (j - e.data.length) = 12 + j by omega,
    ← List.getD_eq_getElem?_getD]
  refine (msgByte_bytes (staleFault i b) _ (by simpa [staleFault] using hlt)).trans ?_
  simp only [staleFault, List.getD_eq_getElem?_getD, List.getElem?_set, List.length_replicate,
    List.getElem?_replicate]
  split_ifs <;> first | rfl | omega

/-- **A message that is too short** is reported differently after different faults. They differ in
one byte of their data, which lies at the last place the tool looks at. -/
theorem reportEntry_stale_ne (he : e.Logged) (htype : e.type = mmcEntryTypeHobdMsg)
    (hshort : e.data.length < reach e.data) (entryCount : UInt32) (mem : List UInt8) :
    reportEntry entryCount (overwrite e (overwrite (staleFault (reach e.data - 1) 0) mem)) ≠
      reportEntry entryCount (overwrite e (overwrite (staleFault (reach e.data - 1) 1) mem)) := by
  obtain ⟨hfour, -⟩ := he.msgSize htype []
  have hreach : reach e.data ≤ 21 := by
    unfold reach
    split_ifs <;> omega
  have hsize := fun rest => (he.msgSize htype rest).2
  have hsame : SameUpTo (reach e.data - 1)
      (overwrite e (overwrite (staleFault (reach e.data - 1) 0) mem))
      (overwrite e (overwrite (staleFault (reach e.data - 1) 1) mem)) := by
    refine ⟨(sameUpTo_bytes he.wellFormed _ _).entry, fun j hj => ?_⟩
    rcases Nat.lt_or_ge j e.data.length with hlt | hge
    · exact (sameUpTo_bytes he.wellFormed _ _).byte j hlt
    · rw [msgByte_stale _ _ _ hge (by omega), msgByte_stale _ _ _ hge (by omega),
        if_neg (by omega), if_neg (by omega)]
  refine reportEntry_ne entryCount hsame ?_ ?_ ?_ ?_ ?_ ?_
  · rw [overwrite, entryAt_bytes e _ he.wellFormed.size_eq]
    exact htype
  · rw [overwrite, hsize]
    exact hfour
  · rw [overwrite, hsize]
    omega
  · rw [overwrite, drop_bytes, reach_append hfour]
    omega
  · rw [msgByte_stale _ _ _ (by omega) (by omega), if_pos rfl]
  · rw [msgByte_stale _ _ _ (by omega) (by omega), if_pos rfl]

end Own

/-- The report of an entry of a log. -/
def reportOf (es : List MmcEntry) (i : ℕ) : Option Report := (dumpReports es).bind (·[i]?)

/-- **Exactly the entries whose report is their own.** Whatever the other entries of two logs are,
an entry they have at the same place is reported the same in both, in the text and in the row, if
and only if its message reaches as far as the tool looks. -/
theorem dumpReports_iff (e : MmcEntry) (he : e.Logged) :
    (∀ es es' i, (∀ x ∈ es, x.Logged) → (∀ x ∈ es', x.Logged) → es[i]? = some e →
      es'[i]? = some e → ∃ r, reportOf es i = some r ∧ reportOf es' i = some r) ↔ ReadsOwn e := by
  constructor
  · intro h htype
    by_contra hshort
    rw [not_le] at hshort
    have hlogged : ∀ b, ∀ x ∈ [staleFault (reach e.data - 1) b, e], x.Logged := by
      intro b x hx
      rcases List.mem_pair.mp hx with rfl | rfl
      · exact staleFault_logged _ b
      · exact he
    obtain ⟨r, hr, hr'⟩ := h [staleFault (reach e.data - 1) 0, e]
      [staleFault (reach e.data - 1) 1, e] 1 (hlogged 0) (hlogged 1) rfl rfl
    rw [reportOf, dumpReports_eq (hlogged 0)] at hr
    rw [reportOf, dumpReports_eq (hlogged 1)] at hr'
    exact reportEntry_stale_ne he htype hshort 1 _
      ((Option.some.inj hr).trans (Option.some.inj hr').symm)
  · intro hown es es' i hes hes' hi hi'
    obtain ⟨rest, hrest⟩ := getElem?_reportsFrom es 0 (List.replicate 960 0) hi
    obtain ⟨rest', hrest'⟩ := getElem?_reportsFrom es' 0 (List.replicate 960 0) hi'
    refine ⟨reportEntry (0 + UInt32.ofNat i) (e.bytes ++ rest), ?_, ?_⟩
    · rw [reportOf, dumpReports_eq hes]
      exact hrest
    · rw [reportOf, dumpReports_eq hes', hown.reportEntry_eq he _ rest rest']
      exact hrest'

/-- A response for table D1 with none of its bytes. -/
def emptyResponse : MmcEntry := ⟨mmcEntryTypeHobdMsg, 6, 7, [0x02, 0x06, 0x72, 0xD1, 0x00, 0xB5]⟩

/-- A response for five bytes of table D1. -/
def fullResponse : MmcEntry :=
  ⟨mmcEntryTypeHobdMsg, 11, 7, [0x02, 0x0B, 0x72, 0xD1, 0x00, 1, 2, 3, 4, 5, 0xA1]⟩

theorem emptyResponse_logged : emptyResponse.Logged :=
  ⟨⟨rfl, by decide⟩, fun _ => ⟨⟨0x02, 0x06, 0x72, _, rfl, by decide, rfl⟩, by decide⟩⟩

theorem fullResponse_logged : fullResponse.Logged :=
  ⟨⟨rfl, by decide⟩, fun _ => ⟨⟨0x02, 0x0B, 0x72, _, rfl, by decide, rfl⟩, by decide⟩⟩

/-- The response for five bytes is reported the same behind a fault and behind a response. -/
theorem dumpReports_iff_full :
    ∃ r, reportOf [staleFault 9 0, fullResponse] 1 = some r ∧
      reportOf [emptyResponse, fullResponse] 1 = some r :=
  (dumpReports_iff fullResponse fullResponse_logged).mpr (by decide) _ _ 1
    (List.forall_mem_cons.mpr ⟨staleFault_logged 9 0,
      List.forall_mem_singleton.mpr fullResponse_logged⟩)
    (List.forall_mem_cons.mpr ⟨emptyResponse_logged,
      List.forall_mem_singleton.mpr fullResponse_logged⟩)
    rfl rfl

/-- The empty response is reported with a byte of the fault in front of it. -/
theorem not_reportOf_stale :
    (staleFault 9 0).Logged ∧ (staleFault 9 1).Logged ∧ emptyResponse.Logged ∧
      (reportOf [staleFault 9 0, emptyResponse] 1).bind Report.row =
        some (.tableD1, "7,181,0,0,0,0\n".toList) ∧
      (reportOf [staleFault 9 1, emptyResponse] 1).bind Report.row =
        some (.tableD1, "7,181,0,0,0,1\n".toList) :=
  ⟨staleFault_logged 9 0, staleFault_logged 9 1, emptyResponse_logged, by decide +kernel,
    by decide +kernel⟩

end HobdSystem
