import Backjump.Benchmark.Ledger
import Backjump.Text.Case

/-! The summary at the end of a benchmark: one table for each solver and strategy,
with the first row kept for each folder, or dashes where there is none. -/
namespace Backjump.Benchmark

/-- What fills a text up to the width of its column, in characters. -/
def blanks (width : Nat) (text : String) : String :=
  String.ofList (List.replicate (width - text.length) ' ')

def leftAligned (width : Nat) (text : String) : String := text ++ blanks width text

def rightAligned (width : Nat) (text : String) : String := blanks width text ++ text

/-- The name of a solver with a strategy. -/
def labelOf (solver strategy : String) : String := solver ++ "-" ++ Text.lowerCase strategy

def summaryTitle (solver strategy : String) : String :=
  "--- Summary for " ++ Text.upperCase (labelOf solver strategy) ++ " ---"

/-- One line of a summary; the widths are those of its columns. -/
def summaryLine (folder : String) (cells : List (Nat × String)) : String :=
  String.intercalate " " (leftAligned 15 folder :: cells.map fun c => rightAligned c.1 c.2)

def summaryHeader : String :=
  summaryLine "Folder" [(10, "AVG(s)"), (10, "MIN(s)"), (10, "MAX(s)"), (10, "AVG(KB)"), (4, "INC"),
    (5, "FAIL"), (8, "AVG DEC"), (9, "AVG CONF")]

/-- The element at a place of a list or a text. -/
def elementOf (value : Json) (place : Nat) : Except RecordFault Json :=
  match value with
  | .array items => items[place]?.elim (.error .shortRow) .ok
  | .string s => s.toList[place]?.elim (.error .shortText) fun c => .ok (.string c.toString)
  | .object _ => .error (.missingPlace place)
  | other => .error (.misused other.kind .subscript)

/-- A value that fills a cell. -/
def cellText (value : Json) : Except RecordFault String :=
  match value with
  | .string s => .ok s
  | .real x => .ok x.shortest
  | .integer n => .ok (Text.signedNumeral n)
  | .bool b => .ok (if b then "1" else "0")
  | other => .error (.misused other.kind (.format ""))

def countText (value : Json) : Except RecordFault String :=
  match value with
  | .integer n => .ok (Text.signedNumeral n)
  | .bool b => .ok (if b then "1" else "0")
  | other => .error (.misused other.kind (.format "d"))

/-- The columns of a row that the summary shows, with their widths. -/
def shownColumns : List (Nat × Nat) :=
  [(2, 10), (3, 10), (4, 10), (5, 10), (8, 4), (9, 5), (10, 8), (11, 9)]

/-- The line of a folder with a row. -/
def rowLine (folder : String) (row : Json) : Except RecordFault String := do
  let cells ← shownColumns.mapM fun (place, width) => do
    return (width, ← cellText (← elementOf row place))
  return summaryLine folder cells

/-- The line of a folder without a row. -/
def dashLine (folder : String) (members : List (String × Json)) : Except RecordFault String := do
  let count (f : Field) := countText ((members.lookup f.label).getD (.integer 0))
  let inconclusive ← count .inconclusive
  let failed ← count .failed
  return summaryLine folder [(10, "-"), (10, "-"), (10, "-"), (10, "-"), (4, inconclusive),
    (5, failed), (8, "-"), (9, "-")]

def folderLine (folder : String) (value : Json) : Except RecordFault String :=
  match value with
  | .object members =>
    let rows := (members.lookup Field.rows.label).getD .null
    if rows.isTruthy then do rowLine folder (← elementOf rows 0) else dashLine folder members
  | other => .error (.misused other.kind (.member "get"))

/-- The table of a solver with a strategy, under its title. -/
def strategyLines (solver strategy : String) (folders : Json) : Gathered String :=
  let (lines, fault) := gatherMembers (.member "items") (fun folder value =>
    match folderLine folder value with
    | .ok line => ([line], none)
    | .error fault => ([], some fault)) folders
  (["", summaryTitle solver strategy, summaryHeader] ++ lines, fault)

/-- The lines of a summary of a document, up to the first value that cannot be shown. -/
def summary (document : Json) : Gathered String :=
  gatherMembers (.member "items") (fun solver strategies =>
    gatherMembers (.member "items") (strategyLines solver) strategies) document

end Backjump.Benchmark
