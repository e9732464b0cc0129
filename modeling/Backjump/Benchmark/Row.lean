import Backjump.Benchmark.Record
import Backjump.Binary64.Printed

/-! The row of a folder in the table of results: average, least and greatest time
and memory over the solved instances, the counts of the others, the average
effort over all instances, and the two kinds of answers. -/
namespace Backjump.Benchmark

/-- The names of the columns. -/
def columns : List String :=
  ["solver", "folder", "avg_time", "min_time", "max_time", "avg_mem", "min_mem", "max_mem",
   "inconclusive", "failed", "decisions", "conflicts", "learned", "sat", "unsat"]

/-- The items of a list, the characters of a text, the names in a record. -/
def itemsOf : Json → Except RecordFault (List Json)
  | .array items => .ok items
  | .string s => .ok (s.toList.map fun c => .string c.toString)
  | .object members => .ok (members.map fun m => .string m.1)
  | other => .error (.misused other.kind .iteration)

/-- The numbers to average, checked in order. -/
def samples (value : Json) : Except RecordFault (List Number) := do
  (← itemsOf value).mapM (numberFor .average)

def fixedText (places : Nat) (n : Number) : Except RecordFault Json :=
  n.toBinary64?.elim (.error .tooLarge) fun x => .ok (.string (x.fixed places))

def averageText (places : Nat) (ns : List Number) : Except RecordFault Json :=
  match ns with
  | [] => .error .noData
  | first :: rest => (Number.mean? first rest).elim (.error .quotientTooLarge) (fixedText places)

/-- An extreme of samples, of which there are some. -/
def extremeText (places : Nat) (extreme : Number → List Number → Number) :
    List Number → Except RecordFault Json
  | [] => .error .noData
  | first :: rest => fixedText places (extreme first rest)

/-- A number in fixed notation, whatever value is there. -/
def Record.fixed (r : Record) (places : Nat) (f : Field) : Except RecordFault Json := do
  fixedText places (← numberFor (.format "f") (← r.value f))

/-- A count divided by the number of runs. -/
def Record.perRun (r : Record) (runs : Int) (f : Field) : Except RecordFault Json := do
  match ← numberFor .quotient (← r.value f) with
  | .whole n => fixedText 2 (← (Number.quotient? n runs).elim (.error .quotientTooLarge) .ok)
  | .real x =>
    let divisor ← (Number.toBinary64? (.whole runs)).elim (.error .tooLarge) .ok
    fixedText 2 (.real (x.div divisor))

/-- The row of a folder with so many instances; without any, one run is assumed. -/
def Record.row (r : Record) (label folder : String) (tests : Int) :
    Except RecordFault (List Json) := do
  let runs := if tests = 0 then 1 else tests
  let times ← samples (← r.value .times)
  let averageTime ← averageText 6 times
  let leastTime ← extremeText 6 Number.least times
  let greatestTime ← extremeText 6 Number.greatest times
  let averageMemory ← averageText 2 (← samples (← r.value .mems))
  let leastMemory ← r.fixed 2 .leastMemory
  let greatestMemory ← r.fixed 2 .greatestMemory
  let inconclusive ← r.value .inconclusive
  let failed ← r.value .failed
  let decisions ← r.perRun runs .decisions
  let conflicts ← r.perRun runs .conflicts
  let learned ← r.perRun runs .learned
  let sat ← r.value .sat
  let unsat ← r.value .unsat
  return [.string label, .string folder, averageTime, leastTime, greatestTime, averageMemory,
    leastMemory, greatestMemory, inconclusive, failed, decisions, conflicts, learned, sat, unsat]

end Backjump.Benchmark
