import Backjump.Chart.Library
import Backjump.Disk
import Backjump.Fault

/-! Bar charts of a table of results: average time, memory, decisions and conflicts
for each solver, and the times of the solvers in each folder. A bar shows an
average, a line over it reaches from the least to the greatest value. The axis
is logarithmic, so nothing is drawn below a millionth, and a line never ends
inside its bar. Charts are painted one after the other; what was painted before a fault
stays. -/
namespace Backjump.Chart

inductive Fault (ε : Type) where
  | library (fault : ε)
  | missingColumn (name : String)
  | disk (fault : DiskFault)
  deriving DecidableEq

/-- The least value that is drawn. -/
def floor : Number := .real (.ofDecimal false 1 (-6))

/-- The columns that the charts are drawn from. -/
structure Results (L : Library) where
  times : L.Numbers
  leastTimes : L.Numbers
  greatestTimes : L.Numbers
  memory : L.Numbers
  leastMemory : L.Numbers
  greatestMemory : L.Numbers
  decisions : L.Numbers
  conflicts : L.Numbers
  solvers : Option (List Value)
  folders : Option (List Value)

/-- What a chart shows, bar by bar. -/
structure Measures (L : Library) where
  labels : List Value
  averages : L.Numbers
  least : L.Numbers
  greatest : L.Numbers

variable {L : Library}

def Fault.message : Fault L.Fault → String
  | library fault => L.message fault
  | missingColumn name => Text.quoted name
  | disk fault => fault.message

/-- The numbers of a column. -/
def numbersOf (table : String → Option L.Column) (name : String) : Except (Fault L.Fault) L.Numbers :=
  match table name with
  | none => .error (.missingColumn name)
  | some column => (L.numbers column).mapError .library

def Results.ofTable (table : String → Option L.Column) : Except (Fault L.Fault) (Results L) := do
  return {
    times := ← numbersOf table "avg_time"
    leastTimes := ← numbersOf table "min_time"
    greatestTimes := ← numbersOf table "max_time"
    memory := ← numbersOf table "avg_mem"
    leastMemory := ← numbersOf table "min_mem"
    greatestMemory := ← numbersOf table "max_mem"
    decisions := ← numbersOf table "decisions"
    conflicts := ← numbersOf table "conflicts"
    solvers := (table "solver").map L.values
    folders := (table "folder").map L.values }

/-- The bars in the order of their averages. -/
def Measures.sorted (m : Measures L) : Measures L :=
  let rows := m.labels.zip (m.averages.entries.zip (m.least.entries.zip m.greatest.entries))
  let rows := L.sort m.averages.form (fun row => row.2.1) rows
  ⟨rows.map (·.1), { m.averages with entries := rows.map (·.2.1) },
    { m.least with entries := rows.map (·.2.2.1) }, { m.greatest with entries := rows.map (·.2.2.2) }⟩

/-- The chart of measures; each line ends at the distances of least and greatest value. -/
def Measures.chart (m : Measures L) (path title quantity : String) (colour : Colour) :
    Except L.Fault L.Plot := do
  let m := m.sorted
  let heights := L.raise floor m.averages
  let below ← L.minus heights (L.raise floor m.least)
  let above ← L.minus (L.raise floor m.greatest) heights
  return ⟨path, title, quantity, colour, m.labels, heights, L.raise (.whole 0) below,
    L.raise (.whole 0) above⟩

/-- What stands beside a key. -/
def pick {α : Type} (L : Library) (keys : List Value) (key : Value) (xs : List α) : List α :=
  ((keys.zip xs).filter fun p => L.equal p.1 key).map Prod.snd

/-- One bar for each solver, over all its rows; rows without a solver do not count. -/
def measuresBySolver (solvers : List Value) (averages least greatest : L.Numbers) : Measures L :=
  let keys := L.groups solvers
  let each (statistic : Statistic) (s : L.Numbers) : L.Numbers :=
    L.aggregate statistic s.form (keys.map fun key => pick L solvers key s.entries)
  ⟨keys, each .average averages, each .least least, each .greatest greatest⟩

/-- One bar for each row of a folder. -/
def measuresOfFolder (r : Results L) (solvers folders : List Value) (folder : Value) : Measures L :=
  let part (s : L.Numbers) : L.Numbers := { s with entries := pick L folders folder s.entries }
  ⟨pick L folders folder solvers, part r.times, part r.leastTimes, part r.greatestTimes⟩

/-- The charts over all folders. -/
def solverCharts (r : Results L) (solvers : List Value) (out : String) : List (Except L.Fault L.Plot) :=
  let chart (name title quantity : String) (colour : Colour) (averages least greatest : L.Numbers) :=
    (measuresBySolver solvers averages least greatest).chart
      (Disk.join out ("avg_" ++ name ++ "_log.png")) title quantity colour
  let counts (name quantity : String) (colour : Colour) (s : L.Numbers) :=
    chart name ("Average Number of " ++ quantity ++ " per Solver") quantity colour s s s
  [chart "time" "Average Execution Time per Solver" "Time (s)" .skyBlue
      r.times r.leastTimes r.greatestTimes,
    chart "memory" "Average Memory Usage per Solver" "Memory (KB)" .salmon
      r.memory r.leastMemory r.greatestMemory,
    counts "decisions" "Decisions" .lightGreen r.decisions,
    counts "conflicts" "Conflicts" .orchid r.conflicts]

/-- The chart of a folder, with the rows whose folder equals it. -/
def folderChart (r : Results L) (solvers folders : List Value) (out : String) (folder : Value) :
    Except L.Fault L.Plot :=
  (measuresOfFolder r solvers folders folder).chart
    (Disk.join out ("avg_time_" ++ folder.name ++ "_log.png")) ("Avg Time - Folder: " ++ folder.name)
    "Time (s)" .mediumSeaGreen

/-- Paints charts one after the other, behind those that were painted before. -/
def paintAll : List (Except L.Fault L.Plot) → List L.Plot → Attempt (List L.Plot) Unit (Fault L.Fault)
  | [], painted => (.ok (), painted)
  | made :: rest, painted =>
    match made >>= fun chart => L.paint chart >>= fun _ => .ok chart with
    | .error fault => (.error (.library fault), painted)
    | .ok chart => paintAll rest (painted ++ [chart])

/-- Paints all charts of a table, in a directory that is made if it is not there, and answers their
paths. -/
def drawTable (d : Disk) (table : String → Option L.Column) (out : String) :
    Attempt (List L.Plot) (List String) (Fault L.Fault) :=
  match Results.ofTable table with
  | .error fault => (.error fault, [])
  | .ok r =>
    match (d.makeDirectories out).1 with
    | .error fault => (.error (.disk fault), [])
    | .ok () =>
      match r.solvers with
      | none => (.error (.missingColumn "solver"), [])
      | some solvers =>
        (paintAll (solverCharts r solvers out) []).andThen fun _ painted =>
          match r.folders with
          | none => (.error (.missingColumn "folder"), painted)
          | some folders =>
            let charts := (L.unique folders).map (folderChart r solvers folders out)
            (paintAll charts painted).andThen fun _ painted => (.ok (painted.map (·.path)), painted)

/-- Paints all charts of the text of a table. -/
def drawResults (L : Library) (d : Disk) (text out : String) :
    Attempt (List L.Plot) (List String) (Fault L.Fault) :=
  match L.read text with
  | .error fault => (.error (.library fault), [])
  | .ok table => drawTable d table out

end Backjump.Chart
