import Backjump.Proofs.Benchmark.Place
import Backjump.Proofs.Benchmark.Row
import Backjump.Proofs.Benchmark.Suite

/-! The work on one folder. From the sheet after some of its instances the folder comes
to the same end, and the sheets saved on the way are those after more instances and
the last one. A completed folder is left as it is. -/
namespace Backjump.Benchmark

/-- The sheet of a folder that is left for good. -/
def Sheet.complete (t : Sheet) : Sheet := { t with completed := true }

/-- The row a folder gets; none if no instance of it was solved. -/
def Sheet.closingRows (t : Sheet) (j : Job) : Except RecordFault (List (List Json)) :=
  if t.times = [] then .ok []
  else t.record.row j.label j.folder j.locations.length >>= fun row => .ok [row]

def Sheet.addRows (t : Sheet) (rows : List (List Json)) : Sheet := { t with rows := t.rows ++ rows }

theorem Sheet.position_record (t : Sheet) : t.record.position = .ok (t.completedTests : Int) :=
  bind_of_ok (value_record ..) _

theorem Sheet.isCompleted_record (t : Sheet) : t.record.isCompleted = .ok t.completed :=
  bind_of_ok (value_record ..) _

variable {b : Suite} {book : Book} {j : Job} {t u : Sheet} {s : Session} {n : Nat} {o : Outcome}
  {l : Location} {e : Setting} {rows : List (List Json)} {fault : RecordFault}
  {result : Except Fault Unit} {book' : Book} {saved : List Book}

namespace Session

theorem Keeps.record_eq (keeps : s.Keeps book) (sheet : (book.sheet? j).getD .blank = t) :
    s.record j = t.record := by
  rw [record, keeps.ledger, Book.record_ledger, sheet]

/-- The outcome of the next instance is noted on the sheet, and the ledger is saved. -/
theorem noteOutcome_eq (here : s.record j = t.record) (l : Location) (o : Outcome) :
    s.noteOutcome j t.completedTests l o = (.ok (), ((s.putRecord j (t.note o).record).print
      [progressLine j.folder l.name o.progress]).save) := by
  rw [noteOutcome, here, Sheet.absorb_record, keep]
  simp only [Except.mapError, Attempt.andThen_ok, record_putRecord, putRecord_putRecord,
    Sheet.write_completedTests]

/-- The outcome of the next instance is noted, if there is one. -/
theorem runInstance_eq (here : s.record j = t.record) (listed : j.locations[t.completedTests]? = some l)
    (e : Setting) : runInstance e j t.completedTests s =
      match e.outcome j.strategy s.submitted l with
      | .error fault => (.error fault, s)
      | .ok o =>
        (.ok (), ((({ s with submitted := s.submitted + 1 }).putRecord j (t.note o).record).print
          [progressLine j.folder l.name o.progress]).save) := by
  simp only [runInstance, elementAt?_natCast, listed]
  cases e.outcome j.strategy s.submitted l with
  | error fault => rfl
  | ok o =>
    have submitted : record { s with submitted := s.submitted + 1 } j = t.record := here
    exact noteOutcome_eq submitted l o

theorem write_completed (t : Sheet) : t.record.write .completed (.bool true) = t.complete.record := by
  rw [Sheet.record, Record.write_of]
  exact Sheet.of_values fun f => by cases f <;> rfl

theorem append_rows (t : Sheet) (row : List Json) :
    t.record.append .rows (.array row) = .ok (t.addRows [row]).record := by
  refine (Record.append_of (a := t.rows.map .array) rfl).trans (congrArg _ (Sheet.of_values fun f => ?_))
  cases f with
  | rows => simp [Sheet.value, Sheet.addRows]
  | _ => rfl

/-- Completing a folder marks its sheet and adds the row that it gets, if there is one and the
table takes it. -/
theorem completeFolder_eq (here : s.record j = t.record) (e : Setting) : completeFolder e j s =
    match t.complete.closingRows j with
    | .error fault => (.error (.record fault), s.putRecord j t.complete.record)
    | .ok rows =>
      match e.scribe.refusal? (s.rows.length + 1) (rows.map tableLine) with
      | some refusal => (.error (.table refusal), s.putRecord j t.complete.record)
      | none => (.ok (),
        { s.putRecord j (t.complete.addRows rows).record with rows := s.rows ++ rows }.save) := by
  have times : t.complete.record.value .times = .ok (.array (t.times.map .real)) :=
    Sheet.value_record ..
  have same : t.complete.times = t.times := rfl
  simp only [completeFolder, here, write_completed, times, Json.isTruthy, List.isEmpty_map, Bool.not_not,
    List.isEmpty_iff, Sheet.closingRows, same]
  by_cases unsolved : t.times = []
  · rw [if_pos unsolved, if_pos unsolved]
    simp only [Sheet.addRows, List.append_nil]
    rfl
  · rw [if_neg unsolved, if_neg unsolved]
    cases t.complete.record.row j.label j.folder j.locations.length with
    | error fault => rfl
    | ok row =>
      have one : (Except.ok row >>= fun row => .ok [row] : Except RecordFault _) = .ok [row] := rfl
      simp only [append_rows, rows_putRecord, one, List.map_cons, List.map_nil, Scribe.refusal?_singleton]
      have written := putRecord_putRecord s j t.complete.record (t.complete.addRows [row]).record
      cases e.scribe (s.rows.length + 1) (tableLine row) with
      | some refusal => rfl
      | none =>
        exact congrArg (fun s' : Session => (Except.ok (), { s' with rows := s.rows ++ [row] }.save)) written

/-- A folder is opened with its sheet, and skipped or resumed. -/
theorem runFolder_eq (here : s.record j = t.record) (e : Setting) : runFolder e j s = if t.completed
    then (.ok (), (s.putRecord j t.record).print
      [">> Skipping completed: " ++ j.label ++ " - " ++ j.folder])
    else resumeFolder e j (s.putRecord j t.record) := by
  simp only [runFolder, here, record_putRecord, Sheet.isCompleted_record]
  cases t.completed <;> rfl

end Session

namespace Suite

/-- The sheet of a folder when all its instances were run. -/
def fullSheet (b : Suite) (j : Job) : Sheet := (b.sheetAt j j.locations.length).complete

end Suite

end Backjump.Benchmark
