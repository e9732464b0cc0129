import Backjump.Dimacs.File
import Backjump.Figure
import Backjump.Solver.Run
import Backjump.Walkthrough.Arguments

/-! Solving a file step by step. The walkthrough prints the answer, a model as
signed integers, the counters and the learned clauses; with a directory for
pictures it draws the implication graph of every conflict, once, right when it
arises. What was printed before a failure stays printed. -/
namespace Backjump.Walkthrough

inductive Fault where
  | file (fault : Dimacs.FileFault)
  | setup (fault : SetupFault)
  | search (fault : Backjump.Fault)
  | picture (message : String)
  | budgetDropped
  | directoryDropped
  deriving DecidableEq

def Fault.message : Fault → String
  | file f => f.message
  | setup f => f.message
  | search f => f.message
  | picture message => message
  | budgetDropped => "'<=' not supported between instances of 'list' and 'int'"
  | directoryDropped => "expected str, bytes or os.PathLike object, not list"

/-- What a walkthrough leaves: lines of output and of the log, pictures, and the
fault that ended it, if one did. -/
structure Report where
  output : List String
  log : List String
  figures : List Figure
  fault : Option Fault
  deriving DecidableEq

/-- An assigned variable as a signed number. -/
def signedText (p : Symbol × Bool) : String :=
  match p.1 with
  | .number n => Text.signedNumeral (if p.2 then n else -n)
  | .name t => if p.2 then t else "-" ++ t

/-- The model as one line of signed numbers. -/
def modelLine (model : OrderedMap Symbol Bool) : String :=
  String.intercalate " " (model.entries.map signedText)

def countersLine (s : Solver) : String :=
  "steps: " ++ Text.numeral s.steps ++ "  decisions: " ++ Text.numeral s.decisions ++
    "  conflicts: " ++ Text.numeral s.conflicts ++ "  propagations: " ++
    Text.numeral s.propagations

/-- The lines about a finished search. -/
def resultLines (s : Solver) : List String :=
  (match s.verdict with
   | some (.satisfiable model) => ["Satisfiable", modelLine model]
   | _ => ["Unsatisfiable"]) ++
  [countersLine s] ++ s.learnedClauses.map fun c => "learned " ++ c.text

/-- The snapshots at which a conflict has just arisen. -/
def conflictSnapshots (s : Solver) : List Snapshot :=
  s.history.toList.filter fun p => p.phase == .conflict && p.isConflict

def imageName (p : Snapshot) : String := "conflict_" ++ Text.paddedNumeral 5 p.step ++ ".png"

def imageTitle (p : Snapshot) : String :=
  "step " ++ Text.numeral p.step ++ ", conflict at level " ++ Text.signedNumeral p.level

/-- Draws conflicts one after the other, up to the first that cannot be drawn or saved. -/
def drawAll (files : FileAccess) (out : String) : List Snapshot → List Figure × Option Fault
  | [] => ([], none)
  | p :: rest =>
    match p.graph.draw (Disk.join out (imageName p)) (imageTitle p) with
    | .error f => ([], some (.search f))
    | .ok figure =>
      match files.save figure.path with
      | .error message => ([], some (.picture message))
      | .ok () => let (figures, fault) := drawAll files out rest; (figure :: figures, fault)

/-- Reports on a finished search and draws its conflicts. -/
def reportSearch (files : FileAccess) (out : Setting String) (s : Solver) (log : List String) :
    Report :=
  let lines := resultLines s
  match out with
  | .unset => ⟨lines, log, [], none⟩
  | .dropped => ⟨lines, log, [], some .directoryDropped⟩
  | .value out =>
    match files.makeDirectories out with
    | .error f => ⟨lines, log, [], some (.file (.disk f))⟩
    | .ok () =>
      let (figures, fault) := drawAll files out (conflictSnapshots s)
      ⟨lines ++ figures.map fun figure => "wrote " ++ figure.path, log, figures, fault⟩

/-- The name of the strategy to use, none if it was dropped. -/
def Request.strategyName (r : Request) : Option String :=
  match r.strategy with
  | .unset => some Strategy.ordered.name
  | .dropped => none
  | .value s => some s.name

/-- How to solve; a strategy is missed before a budget. -/
def Request.setup (r : Request) : Except Fault Setup :=
  let read (budget : Option Int) := (Setup.read r.strategyName budget true true).mapError .setup
  match r.maxSteps with
  | .unset => read none
  | .value n => read (some n)
  | .dropped => do let _ ← read none; throw .budgetDropped

/-- The solver for the clauses of a file. -/
def prepare (files : FileAccess) (r : Request) : Except Fault Solver := do
  let clauses ← (Dimacs.clausesOfFile files r.file).mapError .file
  let setup ← r.setup
  (Solver.ofInputs (.ok setup) (clauses.map fun c => .ofItems (c.map .integer))).mapError .setup

def walk (files : FileAccess) (r : Request) : Report :=
  match prepare files r with
  | .error f => ⟨[], [], [], some f⟩
  | .ok s =>
    let (outcome, s) := s.finish
    let log := if r.verbose then s.log.toList.map Event.message else []
    match outcome with
    | .error f => ⟨[], log, [], some (.search f)⟩
    | .ok _ => reportSearch files r.out s log

/-- What the program leaves when it ends: its exit status and its two streams. -/
structure Exit where
  status : Nat
  output : String
  errors : String
  figures : List Figure
  fault : Option Fault
  deriving DecidableEq

def asLines (lines : List String) : String := String.join (lines.map (· ++ "\n"))

/-- Runs a command line on the files that it can reach. -/
def runCommand (files : FileAccess) (words : List String) : Exit :=
  match readArguments words with
  | .error f => ⟨2, "", f.message, [], none⟩
  | .ok .help => ⟨0, help, "", [], none⟩
  | .ok (.walk r) =>
    let report := walk files r
    ⟨if report.fault.isSome then 1 else 0, asLines report.output, asLines report.log,
      report.figures, report.fault⟩

end Backjump.Walkthrough
