import Backjump.Benchmark.Progress
import Backjump.Benchmark.Summary
import Backjump.Benchmark.Table
import Backjump.Dimacs.File
import Backjump.Json.Reader

/-! The run of a benchmark over its folders, for each strategy in turn. After every
instance and after every folder the ledger is saved, so that an interrupted
benchmark goes on where it stood: completed folders are skipped, in the others
the instances counted as completed are. The row of a folder goes to the table first
and to the ledger after that. -/
namespace Backjump.Benchmark

/-- Why the table takes a line no more, and what its file then holds. -/
structure Refusal where
  message : String
  content : String
  deriving DecidableEq

/-- Writes the lines of the table: given how many there are, a line is added or refused. -/
abbrev Scribe := Nat → String → Option Refusal

/-- The first of the lines that is refused, after so many. -/
def Scribe.refusal? (scribe : Scribe) (count : Nat) : List String → Option Refusal
  | [] => none
  | line :: rest => (scribe count line).orElse fun _ => scribe.refusal? (count + 1) rest

inductive Fault where
  | disk (fault : DiskFault)
  | backup (fault : Text.Utf8.Fault)
  | document (fault : Json.ReadFault)
  | file (fault : Dimacs.FileFault)
  | record (fault : RecordFault)
  | worker (message : String)
  | table (refusal : Refusal)
  deriving DecidableEq

def Fault.message : Fault → String
  | disk fault => fault.message
  | backup fault => fault.message
  | document fault => fault.message
  | file fault => fault.message
  | record fault => fault.message
  | worker message => message
  | table refusal => refusal.message

/-- The instances of one folder, for one strategy. -/
structure Job where
  strategy : Strategy
  folder : String
  locations : List Location
  deriving DecidableEq

/-- The solver that is run, by its name in ledger and table. -/
def solverName : String := "cdcl"

def Job.label (j : Job) : String := solverName ++ "-" ++ j.strategy.lowerName

/-- Those that work for a run. -/
structure Staff where
  worker : Worker
  scribe : Scribe

/-- What a run works with: its staff, and how it reads an instance. -/
structure Setting extends Staff where
  read : Location → Except Dimacs.FileFault (List (List Int))

/-- Reads an instance and hands it to the worker, after so many others. -/
def Setting.outcome (e : Setting) (strategy : Strategy) (turn : Nat) (l : Location) :
    Except Fault Outcome :=
  (e.read l).mapError .file >>= fun clauses =>
    (e.worker turn ⟨strategy, l, clauses⟩).mapError .worker

/-- A row as the table has it. -/
def tableLine (row : List Json) : String := Csv.line (row.map Csv.cellText)

/-- What a run has done: `submitted` counts tasks, `rows` is the table so far, `output`
what was printed, `saves` the ledgers saved, the latest last. -/
structure Session where
  ledger : Ledger
  submitted : Nat
  rows : List (List Json)
  output : List String
  saves : List Ledger

abbrev Run := Attempt Session Unit Fault

namespace Session

def print (s : Session) (lines : List String) : Session := { s with output := s.output ++ lines }

def save (s : Session) : Session := { s with saves := s.saves ++ [s.ledger] }

def record (s : Session) (j : Job) : Record :=
  s.ledger.record solverName j.strategy.name j.folder

def putRecord (s : Session) (j : Job) (r : Record) : Session :=
  { s with ledger := s.ledger.putRecord solverName j.strategy.name j.folder r }

/-- The line about an instance. -/
def progressLine (folder name : String) (p : Progress) : String :=
  leftAligned 10 folder ++ " " ++ leftAligned 25 name ++ " " ++
    leftAligned 12 p.status ++ " Time: " ++ rightAligned 9 (p.time.fixed 6) ++
    "s Mem(avg): " ++ rightAligned 9 (p.memory.fixed 2) ++ "KB Decisions: " ++
    leftAligned 5 (Text.numeral p.decisions)

/-- Keeps what a record became, whether the operation succeeded or not. -/
def keep {α : Type} (s : Session) (j : Job) (attempt : Attempt Record α RecordFault) :
    Attempt Session α Fault :=
  (attempt.1.mapError .record, s.putRecord j attempt.2)

/-- Takes the outcome of the instance at a place into account, reports on it and saves. -/
def noteOutcome (s : Session) (j : Job) (place : Int) (l : Location) (o : Outcome) : Run :=
  (s.keep j ((s.record j).absorb o)).andThen fun progress s =>
    let s := s.putRecord j ((s.record j).write .completedTests (.integer (place + 1)))
    (.ok (), (s.print [progressLine j.folder l.name progress]).save)

/-- Runs the instance at a place of a folder. -/
def runInstance (e : Setting) (j : Job) (place : Int) (s : Session) : Run :=
  match elementAt? j.locations place with
  | none => (.error (.record .shortRow), s)
  | some l =>
    match e.outcome j.strategy s.submitted l with
    | .error fault => (.error fault, s)
    | .ok o => { s with submitted := s.submitted + 1 }.noteOutcome j place l o

/-- Runs so many instances of a folder, from a place on. -/
def runInstances (e : Setting) (j : Job) : Nat → Int → Session → Run
  | 0, _, s => (.ok (), s)
  | left + 1, place, s =>
    (runInstance e j place s).andThen fun _ s => runInstances e j left (place + 1) s

/-- Marks a folder as completed and, if an instance of it was solved, writes its row and keeps it. -/
def completeFolder (e : Setting) (j : Job) (s : Session) : Run :=
  let r := (s.record j).write .completed (.bool true)
  let s := s.putRecord j r
  match r.value .times with
  | .error fault => (.error (.record fault), s)
  | .ok times =>
    if !times.isTruthy then (.ok (), s.save)
    else
      match r.row j.label j.folder j.locations.length with
      | .error fault => (.error (.record fault), s)
      | .ok row =>
        -- The lines before it are those of the rows and the names of the columns.
        match e.scribe (s.rows.length + 1) (tableLine row) with
        | some refusal => (.error (.table refusal), s)
        | none =>
          let s := { s with rows := s.rows ++ [row] }
          match r.append .rows (.array row) with
          | .error fault => (.error (.record fault), s)
          | .ok r => (.ok (), (s.putRecord j r).save)

/-- Runs what is left of a folder. -/
def resumeFolder (e : Setting) (j : Job) (s : Session) : Run :=
  match (s.record j).position with
  | .error fault => (.error (.record fault), s)
  | .ok place =>
    let left := ((j.locations.length : Int) - place).toNat
    (runInstances e j left place s).andThen fun _ s => completeFolder e j s

def runFolder (e : Setting) (j : Job) (s : Session) : Run :=
  let s := s.putRecord j (s.record j)
  match (s.record j).isCompleted with
  | .error fault => (.error (.record fault), s)
  | .ok true => (.ok (), s.print [">> Skipping completed: " ++ j.label ++ " - " ++ j.folder])
  | .ok false => resumeFolder e j s

def runFolders (e : Setting) : List Job → Session → Run
  | [], s => (.ok (), s)
  | j :: rest, s => (runFolder e j s).andThen fun _ s => runFolders e rest s

/-- Runs the folders with one strategy, under its title. -/
def runStrategy (e : Setting) (groups : OrderedMap String (List Location)) (strategy : Strategy)
    (s : Session) : Run :=
  let title := "=== " ++ Text.upperCase (labelOf solverName strategy.name) ++ " ==="
  let s := s.print ["", title]
  let folders := s.ledger.folders solverName strategy.name
  let s := { s with ledger := s.ledger.putFolders solverName strategy.name folders }
  runFolders e (groups.entries.map fun g => ⟨strategy, g.1, g.2⟩) s

def runStrategies (e : Setting) (groups : OrderedMap String (List Location)) :
    List Strategy → Session → Run
  | [], s => (.ok (), s)
  | strategy :: rest, s =>
    (runStrategy e groups strategy s).andThen fun _ s => runStrategies e groups rest s

/-- Runs all that a ledger leaves to do; the table starts with the rows it keeps. -/
def run (e : Setting) (groups : OrderedMap String (List Location)) (s : Session) : Run :=
  runStrategies e groups Strategy.all s

end Session

end Backjump.Benchmark
