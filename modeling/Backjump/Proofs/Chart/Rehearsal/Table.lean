import Backjump.Chart.Rehearsal.Table
import Backjump.Proofs.Chart.Table
import Mathlib.Data.List.Basic

/-! Tables are read back as they were written. A written field is taken in whole, whatever it
holds, and stops at the comma or line end that follows. A row of two fields or more begins
with no line break, even where blanks are its first characters, so no line is skipped. Rows of
the length of the header are neither filled up nor cut. -/
namespace Backjump.Chart.Rehearsal

open Csv (needsQuotes doubled line)

variable {c : Char} {mode : Mode} {field chars rest : List Char} {fields row : List String}

theorem of_needsQuotes_eq_false (ordinary : needsQuotes c = false) :
    c ≠ ',' ∧ c ≠ '"' ∧ c ≠ '\r' ∧ c ≠ '\n' := by
  simpa [needsQuotes, and_assoc] using ordinary

/-- A field may end here. -/
def Mode.Open (mode : Mode) : Prop := mode ≠ .quoted ∧ mode ≠ .returnSeen

theorem Mode.open_fieldStart : Mode.fieldStart.Open := by simp [Mode.Open]

theorem Mode.open_plain : Mode.plain.Open := by simp [Mode.Open]

theorem Mode.open_quoteSeen : Mode.quoteSeen.Open := by simp [Mode.Open]

section Open

variable (isOpen : mode.Open) (field rest : List Char) (fields : List String)
include isOpen

theorem readRow_comma : readRow mode field fields (',' :: rest) =
    readRow .fieldStart [] (String.ofList field.reverse :: fields) rest := by
  obtain ⟨unquoted, unreturned⟩ := isOpen
  rw [readRow]
  simp [unquoted, unreturned]

theorem readRow_lineEnd : readRow mode field fields ('\r' :: '\n' :: rest) =
    ((String.ofList field.reverse :: fields).reverse, .line rest) := by
  obtain ⟨unquoted, unreturned⟩ := isOpen
  rw [readRow]
  simp [unquoted, unreturned, readRow]

theorem readRow_ordinary (ordinary : needsQuotes c = false) :
    readRow mode field fields (c :: rest) = readRow .plain (c :: field) fields rest := by
  obtain ⟨unquoted, unreturned⟩ := isOpen
  obtain ⟨comma, quote, carriage, feed⟩ := of_needsQuotes_eq_false ordinary
  rw [readRow]
  simp [unquoted, unreturned, comma, quote, carriage, feed]

end Open

theorem readRow_plain (ordinary : ∀ c ∈ chars, needsQuotes c = false) (field rest : List Char)
    (fields : List String) :
    readRow .plain field fields (chars ++ rest) = readRow .plain (chars.reverse ++ field) fields rest := by
  induction chars generalizing field with
  | nil => rfl
  | cons c chars ih =>
    rw [List.forall_mem_cons] at ordinary
    rw [List.cons_append, readRow_ordinary Mode.open_plain _ _ _ ordinary.1, ih ordinary.2,
      List.reverse_cons, List.append_assoc, List.singleton_append]

/-- Within quotes a doubled quote is a quote, and everything else stands for itself. -/
theorem readRow_quoted (chars field rest : List Char) (fields : List String) :
    readRow .quoted field fields (chars.flatMap doubled ++ rest) =
      readRow .quoted (chars.reverse ++ field) fields rest := by
  induction chars generalizing field with
  | nil => rfl
  | cons c chars ih =>
    have one : readRow .quoted field fields (doubled c ++ (chars.flatMap doubled ++ rest)) =
        readRow .quoted (c :: field) fields (chars.flatMap doubled ++ rest) := by
      by_cases quote : c = '"'
      · subst quote
        simp [doubled, readRow]
      · have single : doubled c = [c] := by simp [doubled, quote]
        rw [single, List.singleton_append, readRow]
        simp [quote]
    rw [List.flatMap_cons, List.append_assoc, one, ih, List.reverse_cons, List.append_assoc,
      List.singleton_append]

theorem toList_field (text : String) : (Csv.field text).toList =
    if text.toList.any needsQuotes then '"' :: (text.toList.flatMap doubled ++ ['"']) else text.toList := by
  have same : text.any needsQuotes = text.toList.any needsQuotes := String.contains_bool_eq
  rw [Csv.field, same]
  split
  · simp only [String.toList_append, String.toList_ofList, List.append_assoc]
    rfl
  · rfl

/-- A written field is taken in as it was. -/
theorem exists_open_of_field (text : String) (rest : List Char) (fields : List String) :
    ∃ mode : Mode, mode.Open ∧ readRow .fieldStart [] fields ((Csv.field text).toList ++ rest) =
      readRow mode text.toList.reverse fields rest := by
  rw [toList_field]
  generalize text.toList = chars
  split
  · refine ⟨.quoteSeen, Mode.open_quoteSeen, ?_⟩
    rw [List.cons_append, List.append_assoc, readRow]
    simp only [reduceCtorEq, if_false, BEq.rfl, decide_true, Bool.and_self, if_true]
    rw [readRow_quoted, List.append_nil, List.singleton_append, readRow]
    simp
  · rename_i unquoted
    have ordinary : ∀ c ∈ chars, needsQuotes c = false := by simpa using unquoted
    cases chars with
    | nil => exact ⟨.fieldStart, Mode.open_fieldStart, rfl⟩
    | cons c chars =>
      rw [List.forall_mem_cons] at ordinary
      refine ⟨.plain, Mode.open_plain, ?_⟩
      rw [List.cons_append, readRow_ordinary Mode.open_fieldStart _ _ _ ordinary.1,
        readRow_plain ordinary.2, List.reverse_cons]

/-- A field ends at a comma. -/
theorem readRow_field_comma (text : String) (rest : List Char) (fields : List String) :
    readRow .fieldStart [] fields ((Csv.field text).toList ++ ',' :: rest) =
      readRow .fieldStart [] (text :: fields) rest := by
  obtain ⟨mode, isOpen, taken⟩ := exists_open_of_field text (',' :: rest) fields
  rw [taken, readRow_comma isOpen, List.reverse_reverse, String.ofList_toList]

/-- A row ends with its last field. -/
theorem readRow_field_lineEnd (text : String) (rest : List Char) (fields : List String) :
    readRow .fieldStart [] fields ((Csv.field text).toList ++ '\r' :: '\n' :: rest) =
      ((text :: fields).reverse, .line rest) := by
  obtain ⟨mode, isOpen, taken⟩ := exists_open_of_field text ('\r' :: '\n' :: rest) fields
  rw [taken, readRow_lineEnd isOpen, List.reverse_reverse, String.ofList_toList]

/-- Rows of two fields or more have commas between the fields alone. -/
def Wide (row : List String) : Prop := 2 ≤ row.length

theorem toList_line (wide : Wide row) :
    (line row).toList = (String.intercalate "," (row.map Csv.field)).toList ++ ['\r', '\n'] := by
  have many : row ≠ [""] := by
    rintro rfl
    exact absurd wide (by simp [Wide])
  rw [line, if_neg many, String.toList_append]
  rfl

/-- The fields of a row behind its first stand behind commas. -/
theorem toList_intercalate_cons (first second : String) (others : List String) :
    (String.intercalate "," ((first :: second :: others).map Csv.field)).toList =
      (Csv.field first).toList ++ ',' :: (String.intercalate "," ((second :: others).map Csv.field)).toList := by
  have comma : ",".toList = [','] := rfl
  rw [List.map_cons, List.map_cons, String.intercalate_cons_cons, String.toList_append,
    String.toList_append, List.append_assoc, comma, List.singleton_append]

theorem readRow_row (text : String) (row : List String) (rest : List Char) (fields : List String) :
    readRow .fieldStart [] fields
        ((String.intercalate "," ((text :: row).map Csv.field)).toList ++ '\r' :: '\n' :: rest) =
      (fields.reverse ++ text :: row, .line rest) := by
  induction row generalizing text fields with
  | nil =>
    rw [List.map_singleton, String.intercalate_singleton, readRow_field_lineEnd, List.reverse_cons]
  | cons next row ih =>
    rw [toList_intercalate_cons, List.append_assoc, List.cons_append, readRow_field_comma, ih,
      List.reverse_cons, List.append_assoc, List.singleton_append]

/-- A written row is read back, and the line with it. -/
theorem readRow_line (wide : Wide row) (rest : List Char) :
    readRow .fieldStart [] [] ((line row).toList ++ rest) = (row, .line rest) := by
  rw [toList_line wide, List.append_assoc]
  cases row with
  | nil => exact absurd wide (by simp [Wide])
  | cons text row => exact readRow_row text row rest []

/-- Blanks at the start of a row lead to where the row began. -/
theorem nextRow_blanks (unbroken : ∀ c ∈ chars, needsQuotes c = false) (mark rest : List Char) (lines : Nat) :
    nextRow mark .blanks lines (chars ++ ',' :: rest) = (lines, some mark) := by
  induction chars with
  | nil => rfl
  | cons c chars ih =>
    rw [List.forall_mem_cons] at unbroken
    obtain ⟨-, -, carriage, feed⟩ := of_needsQuotes_eq_false unbroken.1
    rw [List.cons_append, nextRow]
    simp [carriage, feed, ih unbroken.2]

theorem nextRow_row (unbroken : ∀ c ∈ chars, needsQuotes c = false) (rest : List Char) (lines : Nat) :
    nextRow (chars ++ ',' :: rest) .nothing lines (chars ++ ',' :: rest) =
      (lines, some (chars ++ ',' :: rest)) := by
  cases chars with
  | nil => rfl
  | cons c chars =>
    rw [List.forall_mem_cons] at unbroken
    obtain ⟨-, -, carriage, feed⟩ := of_needsQuotes_eq_false unbroken.1
    rw [List.cons_append, nextRow]
    simp [carriage, feed, nextRow_blanks unbroken.2]

/-- No written row is skipped. -/
theorem nextRow_line (wide : Wide row) (rest : List Char) (lines : Nat) :
    nextRow ((line row).toList ++ rest) .nothing lines ((line row).toList ++ rest) =
      (lines, some ((line row).toList ++ rest)) := by
  match row with
  | [] | [_] => exact absurd wide (by simp [Wide])
  | first :: second :: others =>
    rw [toList_line wide, toList_intercalate_cons, List.append_assoc, List.append_assoc, List.cons_append,
      toList_field]
    split
    · rfl
    · rename_i unquoted
      exact nextRow_row (by simpa using unquoted) _ lines

/-- The characters of a table of rows. -/
def written (rows : List (List String)) : List Char := rows.flatMap fun row => (line row).toList

theorem written_cons (row : List String) (rows : List (List String)) :
    written (row :: rows) = (line row).toList ++ written rows := List.flatMap_cons

section Rows

variable {whole : List Char} {width fuel : Nat} {rows done : List (List String)}

theorem addRow_even (line : Nat) (even : ∀ other ∈ done, other.length = row.length) :
    addRow line done row = .ok (row :: done) := by
  cases done with
  | nil => rfl
  | cons previous earlier =>
    have same := even previous List.mem_cons_self
    simp [addRow, same]

/-- Behind the first row below the names every row is its own mark. -/
theorem markOf_cons_cons (first second : List String) (text : List Char) :
    markOf whole (first :: second :: done) text = text := rfl

/-- A row that is there is read and put before those that were. -/
theorem readRows_line (wide : Wide row) (even : ∀ other ∈ done, other.length = row.length) (rest : List Char)
    (marked : markOf whole done ((line row).toList ++ rest) = (line row).toList ++ rest) (lines : Nat) :
    readRows whole (fuel + 1) false lines done ((line row).toList ++ rest) =
      readRows whole fuel false (lines + 1) (row :: done) rest := by
  rw [readRows]
  simp only [Bool.false_eq_true, if_false, marked, nextRow_line wide, readRow_line wide, addRow_even _ even]
  rfl

theorem readRows_written (few : rows.length < fuel) (wide : 2 ≤ width)
    (even : ∀ row ∈ rows, row.length = width) (even' : ∀ row ∈ done, row.length = width) (some : done ≠ [])
    (marked : markOf whole done (written rows) = written rows) (lines : Nat) :
    readRows whole fuel false lines done (written rows) = .ok (rows.reverse ++ done) := by
  induction rows generalizing fuel done lines with
  | nil =>
    obtain ⟨fuel, rfl⟩ := Nat.exists_eq_add_one.mpr few
    rfl
  | cons row rows ih =>
    obtain ⟨fuel, rfl⟩ := Nat.exists_eq_add_one.mpr (Nat.zero_lt_of_lt few)
    rw [List.forall_mem_cons] at even
    rw [written_cons] at marked ⊢
    have enough : Wide row := by rw [Wide, even.1]; exact wide
    obtain ⟨previous, earlier, rfl⟩ := List.exists_cons_of_ne_nil some
    rw [readRows_line enough (fun other mem => (even' other mem).trans even.1.symm) _ marked,
      ih (Nat.lt_of_succ_lt_succ few) even.2 (List.forall_mem_cons.mpr ⟨even.1, even'⟩)
        (List.cons_ne_nil _ _) (markOf_cons_cons ..),
      List.reverse_cons, List.append_assoc, List.singleton_append]

/-- What follows a line feed is the start of a line. -/
theorem lineStart_append (mark before rest : List Char) :
    lineStart mark (before.length + 1) (before ++ '\n' :: rest) = rest := by
  induction before generalizing mark with
  | nil => simp [lineStart]
  | cons c before ih => exact ih _

/-- The first row below the names is its own mark, since the names end with a line feed. -/
theorem markOf_header (wide : Wide row) (rest : List Char) :
    markOf ((line row).toList ++ rest) [row] rest = rest := by
  have shape : (line row).toList ++ rest =
      ((String.intercalate "," (row.map Csv.field)).toList ++ ['\r']) ++ '\n' :: rest := by
    rw [toList_line wide, List.append_assoc, List.append_assoc]
    rfl
  have count : ((line row).toList ++ rest).length - rest.length =
      ((String.intercalate "," (row.map Csv.field)).toList ++ ['\r']).length + 1 := by
    rw [shape, List.length_append, List.length_cons]
    omega
  rw [markOf, count, shape, lineStart_append]

theorem length_le_written (rows : List (List String)) : rows.length ≤ (written rows).length := by
  induction rows with
  | nil => exact Nat.le_refl 0
  | cons row rows ih =>
    have some : 0 < (line row).toList.length := by
      rw [line, String.toList_append, List.length_append]
      exact Nat.lt_of_lt_of_le (by decide) (Nat.le_add_left 2 _)
    rw [written_cons, List.length_append, List.length_cons]
    omega

/-- Written rows of one length are read back. -/
theorem scan_written {header : List String} (wide : Wide header)
    (even : ∀ row ∈ rows, row.length = header.length)
    (unmarked : (written (header :: rows)).head? ≠ some '\ufeff') :
    scan (written (header :: rows)) = .ok (header :: rows) := by
  have few := length_le_written (header :: rows)
  simp only [scan, unmarked, if_false]
  rw [written_cons] at few ⊢
  rw [readRows_line wide (by simp) _ rfl,
    readRows_written (by rw [List.length_cons] at few; omega) wide even (by simp) (List.cons_ne_nil _ _)
      (markOf_header wide _)]
  simp [Except.map]

end Rows

theorem toList_join (rows : List (List String)) : (String.join (rows.map line)).toList = written rows := by
  rw [String.toList_join, List.flatMap_map]
  rfl

namespace Table

/-- A table that was written, with the names of its columns first, is read back. -/
theorem ofText_join {header : List String} {rows : List (List String)} (wide : Wide header)
    (even : ∀ row ∈ rows, row.length = header.length)
    (unmarked : (written (header :: rows)).head? ≠ some '\ufeff') :
    ofText (String.join ((header :: rows).map line)) = .ok ⟨header, rows⟩ := by
  have surplus : rows.head?.elim 0 List.length - header.length = 0 := by
    cases rows with
    | nil => exact Nat.zero_sub _
    | cons row rows =>
      rw [List.head?_cons, Option.elim_some, even row List.mem_cons_self, Nat.sub_self]
  rw [ofText, toList_join, scan_written wide even unmarked]
  change Except.ok _ = _
  rw [surplus]
  simp only [List.drop_zero, List.map_id_fun', id]

end Table

/-- The table of some results. -/
def resultTable (rows : List ResultRow) : Table := ⟨Benchmark.columns, rows.map ResultRow.cells⟩

theorem wide_columns : Wide Benchmark.columns := by
  change 2 ≤ Benchmark.columns.length
  decide

theorem head?_columns : (line Benchmark.columns).toList.head? = some 's' := by
  rw [toList_line wide_columns, Benchmark.columns, toList_intercalate_cons, toList_field]
  rfl

theorem ofText_resultText (rows : List ResultRow) :
    Table.ofText (resultText rows) = .ok (resultTable rows) := by
  refine Table.ofText_join wide_columns ?_ ?_
  · exact List.forall_mem_map.mpr fun row _ => rfl
  · simp only [written_cons, List.head?_append, head?_columns, Option.some_or]
    decide

theorem column?_resultTable (rows : List ResultRow) {name : String} (listed : name ∈ Benchmark.columns) :
    (resultTable rows).column? name = some (rows.map (·.cell name)) := by
  simp only [Table.column?, resultTable, List.contains_iff_mem.mpr listed, if_true, List.map_map]
  rfl

end Backjump.Chart.Rehearsal
