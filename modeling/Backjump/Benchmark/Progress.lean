import Backjump.Benchmark.Outcome
import Backjump.Benchmark.Record

/-! How a record grows. An outcome raises one of four counts: solved with a model,
solved without, not in time, failed; a solved instance also adds its effort, its
time and its memory. What a fault leaves half done is not undone. -/
namespace Backjump.Benchmark

/-- What is said of an instance after its run. -/
structure Progress where
  status : String
  time : Binary64
  memory : Binary64
  decisions : Nat
  deriving DecidableEq

namespace Record

/-- Counts a failure. -/
def absorbFailure (r : Record) (message : String) (time memory : Binary64) (decisions : Nat) :
    Attempt Record Progress RecordFault :=
  match r.add .failed 1 with
  | .error fault => (.error fault, r)
  | .ok r => (.ok ⟨"ERROR: " ++ message, time, memory, decisions⟩, r)

/-- What the effort of a search changes. -/
def effortChanges (e : Effort) : List (Record → Except RecordFault Record) :=
  [(·.add .decisions e.decisions), (·.add .conflicts e.conflicts), (·.add .learned e.learned)]

/-- What an answer, its time and its memory change. -/
def answerChanges (p : Report) : List (Record → Except RecordFault Record) :=
  [(·.add (if p.finding.satisfiable then .sat else .unsat) 1), (·.append .times (.real p.time)),
    (·.append .mems (.real p.averageMemory)), (·.lower .leastMemory p.leastMemory),
    (·.raise .greatestMemory p.greatestMemory)]

/-- Takes an outcome into account. A report that does not fit into the record counts as
a failure, and what fitted stays. -/
def absorb (r : Record) : Outcome → Attempt Record Progress RecordFault
  | .timedOut =>
    match r.add .inconclusive 1 with
    | .error fault => (.error fault, r)
    | .ok r => (.ok ⟨"TIMEOUT", .finite false 0, .finite false 0, 0⟩, r)
  | .failed message => r.absorbFailure message (.finite false 0) (.finite false 0) 0
  | .solved p =>
    match r.applyAll (effortChanges p.finding.effort) with
    | (.error fault, r) => r.absorbFailure fault.message p.time p.averageMemory 0
    | (.ok (), r) =>
      let decisions := p.finding.effort.decisions
      match r.applyAll (answerChanges p) with
      | (.error fault, r) => r.absorbFailure fault.message p.time p.averageMemory decisions
      | (.ok (), r) =>
        let status := if p.finding.satisfiable then "SAT" else "UNSAT"
        (.ok ⟨status, p.time, p.averageMemory, decisions⟩, r)

/-- The place of the next instance. -/
def position (r : Record) : Except RecordFault Int := do
  match ← r.value .completedTests with
  | .integer n => return n
  | .bool b => return if b then 1 else 0
  | other => .error (.misused other.kind .index)

def isCompleted (r : Record) : Except RecordFault Bool := do return (← r.value .completed).isTruthy

end Record

end Backjump.Benchmark
