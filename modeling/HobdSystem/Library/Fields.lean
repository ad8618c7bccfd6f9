import Mathlib.Data.List.Basic

/-!
# Lines of fields

A text file in which every line has its fields separated by commas, and the first line has the
names of the columns. `Fields.line` puts a line together and `Fields.fields` takes it apart.

There is no quoting in such a file, so what is put in is found again only if there is no comma and
no end of a line in it (`Fields.Plain`, `Fields.fields_line`). And a program that writes a line
with a format string writes its separators by hand. Where one of them is forgotten, two fields
become one (`Fields.intercalate_append`), and the file can no longer be read by its header: there
is a column less, and every column behind it has the wrong name.

That is what the second half of the file is about. A record is a list of named numbers, as the
members of a struct are. **A row is read back by its header** if its fields are numbers and each
of them is the one its column names (`Fields.ReadsBack`). The definition asks the header for the
names, and not the program: it is what a reader of the file can do, who has nothing but the file.
It holds if the header and the row have the names and the numbers of the record in the same order
(`Fields.readsBack_line`), and it fails as soon as they do not have the same number of fields
(`Fields.ReadsBack.length_eq`).
-/

namespace Fields

/-- A line with some fields. -/
def line (texts : List (List Char)) : List Char := [','].intercalate texts ++ ['\n']

/-- The fields of a line. -/
def fields (text : List Char) : List (List Char) := (text.takeWhile (· ≠ '\n')).splitOn ','

/-- A text that can be a field. -/
def Plain (text : List Char) : Prop := ',' ∉ text ∧ '\n' ∉ text

instance (text : List Char) : Decidable (Plain text) := inferInstanceAs (Decidable (_ ∧ _))

theorem Plain.append {a b : List Char} (ha : Plain a) (hb : Plain b) : Plain (a ++ b) := by
  unfold Plain
  rw [List.mem_append, List.mem_append, not_or, not_or]
  exact ⟨⟨ha.1, hb.1⟩, ha.2, hb.2⟩

theorem newline_not_mem_intercalate {texts : List (List Char)} (h : ∀ l ∈ texts, Plain l) :
    '\n' ∉ [','].intercalate texts := by
  induction texts with
  | nil => simp [List.intercalate]
  | cons a texts ih =>
    have ha := (h a List.mem_cons_self).2
    have hrest := ih fun l hl => h l (List.mem_cons_of_mem a hl)
    cases texts with
    | nil => simpa using ha
    | cons b texts =>
      rw [List.intercalate_cons_cons]
      simp [ha, hrest]

/-- **The fields of a line are found again**, if there is at least one: the empty line has one
field, which is empty. -/
theorem fields_line {texts : List (List Char)} (h : ∀ l ∈ texts, Plain l) (hne : texts ≠ []) :
    fields (line texts) = texts := by
  have hall : ∀ c ∈ [','].intercalate texts, decide (c ≠ '\n') = true := by
    intro c hc
    rw [decide_eq_true_eq]
    rintro rfl
    exact newline_not_mem_intercalate h hc
  rw [fields, line, List.takeWhile_append_of_pos hall]
  simp only [ne_eq, not_true_eq_false, decide_false, List.takeWhile_cons, Bool.false_eq_true,
    if_false, List.append_nil]
  exact List.splitOn_intercalate ',' (fun l hl => (h l hl).1) hne

/-- Without a comma between them, the last field of one list and the first of the next are one
field. This is what becomes of a line that is written in two parts, with the separator between
them forgotten. -/
theorem intercalate_append (a b : List Char) (xs ys : List (List Char)) :
    [','].intercalate (xs ++ [a]) ++ [','].intercalate (b :: ys) =
      [','].intercalate (xs ++ (a ++ b) :: ys) := by
  induction xs with
  | nil =>
    cases ys with
    | nil => simp
    | cons y ys => simp [List.intercalate_cons_cons]
  | cons x xs ih =>
    cases xs with
    | nil =>
      rw [List.nil_append] at ih
      simp only [List.cons_append, List.nil_append, List.intercalate_cons_cons, List.append_assoc,
        ih]
    | cons x' xs =>
      rw [List.cons_append, List.cons_append] at ih
      simp only [List.cons_append, List.intercalate_cons_cons, List.append_assoc, ih]

/-! ### Numbers -/

/-- The number a field has in decimal. -/
def decimal? (text : List Char) : Option ℕ :=
  if text ≠ [] ∧ text.all Char.isDigit then some (Nat.ofDigitChars 10 text 0) else none

theorem decimal?_toDigits (n : ℕ) : decimal? (Nat.toDigits 10 n) = some n := by
  have hall : (Nat.toDigits 10 n).all Char.isDigit = true :=
    List.all_eq_true.mpr fun c hc => Nat.isDigit_of_mem_toDigits (by decide) (by decide) hc
  rw [decimal?, if_pos ⟨Nat.toDigits_ne_nil, hall⟩,
    Nat.ofDigitChars_toDigits (by decide) (by decide)]

theorem plain_toDigits (n : ℕ) : Plain (Nat.toDigits 10 n) := by
  have hdigit : ∀ c ∈ Nat.toDigits 10 n, c.isDigit = true := fun c hc =>
    Nat.isDigit_of_mem_toDigits (by decide) (by decide) hc
  exact ⟨fun hc => absurd (hdigit _ hc) (by decide), fun hc => absurd (hdigit _ hc) (by decide)⟩

/-! ### Records -/

/-- The number a record has under the name of a column. -/
def member? (record : List (String × ℕ)) (column : List Char) : Option ℕ :=
  (record.find? fun m => m.1.toList = column).map Prod.snd

theorem member?_of_mem {record : List (String × ℕ)} (hnodup : (record.map Prod.fst).Nodup)
    {m : String × ℕ} (hm : m ∈ record) : member? record m.1.toList = some m.2 := by
  induction record with
  | nil => exact absurd hm List.not_mem_nil
  | cons m' record ih =>
    rw [List.map_cons, List.nodup_cons] at hnodup
    rcases List.mem_cons.mp hm with rfl | hm
    · simp [member?]
    · -- the name is not that of the first member
      have hne : m'.1 ≠ m.1 := fun hc => hnodup.1 (hc ▸ List.mem_map_of_mem hm)
      have hne' : ¬m'.1.toList = m.1.toList := fun hc => hne (String.toList_inj.mp hc)
      rw [member?, List.find?_cons_of_neg (by simpa using hne')]
      exact ih hnodup.2 hm

/-- **A row can be read back by its header**: every column is the name of a member, and the fields
of the row are the numbers of these members, in the order in which the header names them. Nothing
but the text of the file is used to say which member a field is. -/
structure ReadsBack (header row : List Char) (record : List (String × ℕ)) : Prop where
  named : ∀ column ∈ fields header, (member? record column).isSome
  values : (fields row).map decimal? = (fields header).map (member? record)

theorem ReadsBack.length_eq {header row : List Char} {record : List (String × ℕ)}
    (h : ReadsBack header row record) : (fields row).length = (fields header).length := by
  simpa using congrArg List.length h.values

section Line

variable {record : List (String × ℕ)}

/-- The numbers of a row that has those of a record. -/
theorem decimal?_line (hne : record ≠ []) :
    (fields (line (record.map fun m => Nat.toDigits 10 m.2))).map decimal? =
      record.map fun m => some m.2 := by
  rw [fields_line ?_ (by simpa using hne), List.map_map]
  · exact List.map_congr_left fun m _ => decimal?_toDigits m.2
  · intro l hl
    obtain ⟨m, -, rfl⟩ := List.mem_map.mp hl
    exact plain_toDigits m.2

/-- **A header with the names of a record reads back a row with its numbers.** The names have to
be different, or a column could not be found by its name. -/
theorem readsBack_line (hne : record ≠ []) (hnodup : (record.map Prod.fst).Nodup)
    (hplain : ∀ m ∈ record, Plain m.1.toList) :
    ReadsBack (line (record.map fun m => m.1.toList))
      (line (record.map fun m => Nat.toDigits 10 m.2)) record := by
  have hheader : fields (line (record.map fun m => m.1.toList)) =
      record.map fun m => m.1.toList := by
    refine fields_line (fun l hl => ?_) (by simpa using hne)
    obtain ⟨m, hm, rfl⟩ := List.mem_map.mp hl
    exact hplain m hm
  constructor
  · intro column hcolumn
    rw [hheader] at hcolumn
    obtain ⟨m, hm, rfl⟩ := List.mem_map.mp hcolumn
    rw [member?_of_mem hnodup hm]
    rfl
  · rw [decimal?_line hne, hheader, List.map_map]
    exact List.map_congr_left fun m hm => (member?_of_mem hnodup hm).symm

end Line

end Fields
