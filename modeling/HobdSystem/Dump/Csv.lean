import HobdSystem.Dump.Report
import HobdSystem.Library.Fields

/-!
# The tables as the dump tool writes them

The dump tool writes a file for each of two tables, with a header line and one row for every
response that was logged. The format of a row of table `0x10` is three literals one behind the
other, and **there is no comma where they meet**. So its rows have 13 fields under 15 columns, and
two of them hold two numbers each. The rows of table `0xD1` can be read back
(`HobdSystem.csvRecord_readsBack_iff`).

A row is read back if someone who has nothing but the file gets the members of the record from it,
by the names in the header (`Fields.ReadsBack`). For table `0xD1` that is an instance of the
general rule for a header and a row with the same names and numbers in the same order. For table
`0x10` it is enough to count: the header has 15 fields and the row has 13.

One might think that the numbers could still be told from a row by someone who knows of the
missing commas. They cannot: where two numbers are written as one there is no telling where the
first of them ends, so that different records have the same row
(`HobdSystem.not_readsBack_table10`). That the rows of table `0xD1` are different for different
records is a part of the theorem for that reason.

The two tables are structures here, as in the source, and `HobdSystem.logCsvTable10_eq` and
`HobdSystem.logCsvTableD1_eq` are the results that say that the rows of the tool are theirs, taken
from the bytes of the message at the offsets the structures have.
-/

namespace HobdSystem

open Fields LittleEndian

/-! ### The tables -/

/-- `hobd_table_10_s`. -/
structure HobdTable10 where
  engineRpm : UInt16
  tpsVolt : UInt8
  tpsPercent : UInt8
  ectVolt : UInt8
  ectTemp : UInt8
  iatVolt : UInt8
  iatTemp : UInt8
  mapVolt : UInt8
  mapPressure : UInt8
  reserved0 : UInt8
  reserved1 : UInt8
  batteryVolt : UInt8
  wheelSpeed : UInt8
  fuelInjectors : UInt16
  deriving DecidableEq, Repr

/-- `hobd_table_d1_s`. -/
structure HobdTableD1 where
  gear : UInt8
  reserved0 : UInt8
  reserved1 : UInt8
  reserved2 : UInt8
  engineOn : UInt8
  deriving DecidableEq, Repr

/-- The row `log_csv_table_10` writes. -/
def HobdTable10.row (timestamp : UInt64) (table : HobdTable10) : List Char :=
  fmtCommas [timestamp.toNat, table.engineRpm.toNat, table.tpsVolt.toNat, table.tpsPercent.toNat,
      table.ectVolt.toNat, table.ectTemp.toNat] ++
    (fmtCommas [table.iatVolt.toNat, table.iatTemp.toNat, table.mapVolt.toNat,
      table.mapPressure.toNat, table.reserved0.toNat, table.reserved1.toNat] ++
    (fmtCommas [table.batteryVolt.toNat, table.wheelSpeed.toNat, table.fuelInjectors.toNat] ++
      ['\n']))

/-- The row `log_csv_table_d1` writes. -/
def HobdTableD1.row (timestamp : UInt64) (table : HobdTableD1) : List Char :=
  fmtCommas [timestamp.toNat, table.gear.toNat, table.reserved0.toNat, table.reserved1.toNat,
    table.reserved2.toNat, table.engineOn.toNat] ++ ['\n']

/-- `log_csv_headers`. -/
def logCsvHeaders : CsvFile → List Char
  | .table10 =>
    "timestamp,engine_rpm,tps_volt,tps_percent,ect_volt,ect_temp,".toList ++
      ("iat_volt,iat_temp,map_volt,map_pressure,reserved_0,reserved_1,".toList ++
      "battery_volt,wheel_speed,fuel_injectors\n".toList)
  | .tableD1 => "timestamp,gear,reserved_0,reserved_1,reserved_2,engine_on\n".toList

section Memory

variable (mem : List UInt8)

/-- The field of two bytes at an offset in the data of a response, as a number of that width. -/
def tableWord (i : ℕ) : UInt16 := UInt16.ofNat (tableField16 mem i)

/-- The table `0x10` in the response an entry holds. -/
def hobdTable10At : HobdTable10 :=
  ⟨tableWord mem 0, msgByte mem 7, msgByte mem 8, msgByte mem 9, msgByte mem 10, msgByte mem 11,
    msgByte mem 12, msgByte mem 13, msgByte mem 14, msgByte mem 15, msgByte mem 16,
    msgByte mem 17, msgByte mem 18, tableWord mem 14⟩

/-- The table `0xD1` in the response an entry holds. -/
def hobdTableD1At : HobdTableD1 :=
  ⟨msgByte mem 5, msgByte mem 6, msgByte mem 7, msgByte mem 8, msgByte mem 9⟩

theorem toNat_tableWord (i : ℕ) : (tableWord mem i).toNat = tableField16 mem i := by
  have hlo : (msgByte mem (5 + i)).toNat < 256 := UInt8.toNat_lt _
  have hhi : (msgByte mem (5 + i + 1)).toNat < 256 := UInt8.toNat_lt _
  rw [tableWord, UInt16.toNat_ofNat', tableField16]
  simp only [value_cons, value_nil]
  omega

/-- **What is logged of an entry is the row of the table in it**, with the members at the offsets
that the packed structure of the source has them at. -/
theorem logCsvTable10_eq :
    logCsvTable10 mem = (hobdTable10At mem).row (entryAt mem).timestamp := by
  simp only [logCsvTable10, HobdTable10.row, hobdTable10At, toNat_tableWord]
  rfl

theorem logCsvTableD1_eq :
    logCsvTableD1 mem = (hobdTableD1At mem).row (entryAt mem).timestamp := rfl

end Memory

/-! ### Records -/

/-- What a row is written for. -/
inductive CsvRecord where
  | table10 (timestamp : UInt64) (table : HobdTable10)
  | tableD1 (timestamp : UInt64) (table : HobdTableD1)
  deriving DecidableEq, Repr

namespace CsvRecord

/-- The file it goes to. -/
def file : CsvRecord → CsvFile
  | .table10 _ _ => .table10
  | .tableD1 _ _ => .tableD1

/-- The row. -/
def row : CsvRecord → List Char
  | .table10 timestamp table => table.row timestamp
  | .tableD1 timestamp table => table.row timestamp

/-- The timestamp and the members of the structure, by their names. -/
def members : CsvRecord → List (String × ℕ)
  | .table10 timestamp table =>
    [("timestamp", timestamp.toNat), ("engine_rpm", table.engineRpm.toNat),
      ("tps_volt", table.tpsVolt.toNat), ("tps_percent", table.tpsPercent.toNat),
      ("ect_volt", table.ectVolt.toNat), ("ect_temp", table.ectTemp.toNat),
      ("iat_volt", table.iatVolt.toNat), ("iat_temp", table.iatTemp.toNat),
      ("map_volt", table.mapVolt.toNat), ("map_pressure", table.mapPressure.toNat),
      ("reserved_0", table.reserved0.toNat), ("reserved_1", table.reserved1.toNat),
      ("battery_volt", table.batteryVolt.toNat), ("wheel_speed", table.wheelSpeed.toNat),
      ("fuel_injectors", table.fuelInjectors.toNat)]
  | .tableD1 timestamp table =>
    [("timestamp", timestamp.toNat), ("gear", table.gear.toNat),
      ("reserved_0", table.reserved0.toNat), ("reserved_1", table.reserved1.toNat),
      ("reserved_2", table.reserved2.toNat), ("engine_on", table.engineOn.toNat)]

/-- The names of the members. -/
def names : CsvFile → List String
  | .table10 => ["timestamp", "engine_rpm", "tps_volt", "tps_percent", "ect_volt", "ect_temp",
      "iat_volt", "iat_temp", "map_volt", "map_pressure", "reserved_0", "reserved_1",
      "battery_volt", "wheel_speed", "fuel_injectors"]
  | .tableD1 => ["timestamp", "gear", "reserved_0", "reserved_1", "reserved_2", "engine_on"]

theorem map_fst_members (r : CsvRecord) : r.members.map Prod.fst = names r.file := by
  cases r <;> rfl

/-- The names are different ones, and there are no commas in them. -/
theorem names_plain (f : CsvFile) : (names f).Nodup ∧ ∀ name ∈ names f, Plain name.toList := by
  cases f <;> decide +kernel

/-- **The header is a line with the names of the members**, in their order. The source has it as
one text for each table, and this is where the two are compared. -/
theorem logCsvHeaders_eq (f : CsvFile) :
    logCsvHeaders f = line ((names f).map String.toList) := by
  cases f <;> decide +kernel

/-- A row of table `0xD1` is a line with their numbers. -/
theorem row_tableD1 (timestamp : UInt64) (table : HobdTableD1) :
    (tableD1 timestamp table).row =
      line ((tableD1 timestamp table).members.map fun m => Nat.toDigits 10 m.2) := rfl

/-- **A row of table `0x10` has 13 fields**: twice two numbers are written as one, where one
literal of the format ends and the next one begins. -/
theorem length_fields_row_table10 (timestamp : UInt64) (table : HobdTable10) :
    (fields (table10 timestamp table).row).length = 13 := by
  have hd := plain_toDigits
  have hrow : (table10 timestamp table).row = line
      ([fmtDec timestamp.toNat, fmtDec table.engineRpm.toNat, fmtDec table.tpsVolt.toNat,
          fmtDec table.tpsPercent.toNat, fmtDec table.ectVolt.toNat] ++
        (fmtDec table.ectTemp.toNat ++ fmtDec table.iatVolt.toNat) ::
        ([fmtDec table.iatTemp.toNat, fmtDec table.mapVolt.toNat, fmtDec table.mapPressure.toNat,
          fmtDec table.reserved0.toNat] ++
        (fmtDec table.reserved1.toNat ++ fmtDec table.batteryVolt.toNat) ::
        [fmtDec table.wheelSpeed.toNat, fmtDec table.fuelInjectors.toNat])) := by
    rw [line, ← intercalate_append, ← List.cons_append, ← intercalate_append, List.append_assoc,
      List.append_assoc]
    rfl
  rw [hrow, fields_line]
  · rfl
  · simp only [List.cons_append, List.nil_append, List.forall_mem_cons, fmtDec]
    exact ⟨hd _, hd _, hd _, hd _, hd _, (hd _).append (hd _), hd _, hd _, hd _, hd _,
      (hd _).append (hd _), hd _, hd _, List.forall_mem_nil _⟩
  · simp

/-- **A record can be read back** from its row, by the header of its file: each column names a
member, and the field under it is the number that member has. -/
def ReadsBack (r : CsvRecord) : Prop := Fields.ReadsBack (logCsvHeaders r.file) r.row r.members

theorem length_fields_header (f : CsvFile) :
    (fields (logCsvHeaders f)).length = (names f).length := by
  rw [logCsvHeaders_eq, fields_line, List.length_map]
  · intro l hl
    obtain ⟨name, hname, rfl⟩ := List.mem_map.mp hl
    exact (names_plain f).2 name hname
  · cases f <;> simp [names]

theorem readsBack_tableD1 (timestamp : UInt64) (table : HobdTableD1) :
    (tableD1 timestamp table).ReadsBack := by
  obtain ⟨hnodup, hplain⟩ := names_plain .tableD1
  have hmembers : (tableD1 timestamp table).members.map Prod.fst = names .tableD1 :=
    map_fst_members _
  change Fields.ReadsBack (logCsvHeaders .tableD1) _ _
  rw [logCsvHeaders_eq, row_tableD1, ← hmembers, List.map_map]
  refine readsBack_line (by simp [members]) (hmembers ▸ hnodup) fun m hm => hplain m.1 ?_
  rw [← hmembers]
  exact List.mem_map_of_mem hm

/-- A row of table `0xD1` determines its record. -/
theorem tableD1_of_row_eq {timestamp timestamp' : UInt64} {table table' : HobdTableD1}
    (h : (tableD1 timestamp' table').row = (tableD1 timestamp table).row) :
    tableD1 timestamp' table' = tableD1 timestamp table := by
  have hvalues := congrArg (fun row => (fields row).map decimal?) h
  simp only [row_tableD1] at hvalues
  rw [decimal?_line (by simp [members]), decimal?_line (by simp [members])] at hvalues
  obtain ⟨gear, reserved0, reserved1, reserved2, engineOn⟩ := table
  obtain ⟨gear', reserved0', reserved1', reserved2', engineOn'⟩ := table'
  simp only [members, List.map_cons, List.map_nil, List.cons.injEq, Option.some.injEq,
    UInt64.toNat_inj, UInt8.toNat_inj, and_true] at hvalues
  obtain ⟨rfl, rfl, rfl, rfl, rfl, rfl⟩ := hvalues
  rfl

end CsvRecord

/-- **Exactly the rows of table `0xD1` can be read back by their header**, and they are different
for different records. -/
theorem csvRecord_readsBack_iff (r : CsvRecord) :
    (r.ReadsBack ∧ ∀ r' : CsvRecord, r'.file = r.file → r'.row = r.row → r' = r) ↔
      r.file = .tableD1 := by
  cases r with
  | table10 timestamp table =>
    refine iff_of_false (fun h => ?_) (by simp [CsvRecord.file])
    -- there are fewer fields than columns
    have hlen := h.1.length_eq
    rw [CsvRecord.length_fields_row_table10, CsvRecord.length_fields_header] at hlen
    exact absurd hlen (by simp [CsvRecord.file, CsvRecord.names])
  | tableD1 timestamp table =>
    refine iff_of_true ⟨CsvRecord.readsBack_tableD1 timestamp table, fun r' hfile hrow => ?_⟩ rfl
    cases r' with
    | table10 timestamp' table' => simp [CsvRecord.file] at hfile
    | tableD1 timestamp' table' => exact CsvRecord.tableD1_of_row_eq hrow

theorem csvRecord_readsBack_iff_neutral :
    (CsvRecord.tableD1 1000 ⟨1, 0, 0, 0, 1⟩).ReadsBack ∧
      (CsvRecord.tableD1 1000 ⟨1, 0, 0, 0, 1⟩).row = "1000,1,0,0,0,1\n".toList :=
  ⟨((csvRecord_readsBack_iff (.tableD1 1000 ⟨1, 0, 0, 0, 1⟩)).mpr rfl).1, by decide +kernel⟩

/-- A record of table `0x10`, with two of its members. -/
def temperatureRecord (ectTemp iatVolt : UInt8) : CsvRecord :=
  .table10 1000 ⟨0, 0, 0, 0, ectTemp, iatVolt, 0, 0, 0, 0, 0, 0, 0, 0⟩

/-- A row of table `0x10` has 13 fields under 15 columns, and two different records have one
row. -/
theorem not_readsBack_table10 :
    (fields (temperatureRecord 1 11).row).length = 13 ∧
      (fields (logCsvHeaders .table10)).length = 15 ∧
      (temperatureRecord 1 11).row = (temperatureRecord 11 1).row ∧
      temperatureRecord 1 11 ≠ temperatureRecord 11 1 := by
  refine ⟨CsvRecord.length_fields_row_table10 _ _, CsvRecord.length_fields_header _, ?_, ?_⟩
  · decide +kernel
  · decide

end HobdSystem
