import Backjump.Benchmark.Instance
import Backjump.Benchmark.Suite

/-! What becomes of a task. A worker takes tasks one at a time and answers each
with a report, with a failure, or not in time; a worker that is gone takes none. A
rehearsal solves as usual, but takes time and memory from a plan. -/
namespace Backjump.Benchmark

/-- An instance to solve with a strategy. -/
structure Task where
  strategy : Strategy
  location : Location
  clauses : List (List Int)
  deriving DecidableEq

/-- Time in seconds, memory in kilobytes. -/
structure Report where
  finding : Finding
  time : Binary64
  leastMemory : Binary64
  averageMemory : Binary64
  greatestMemory : Binary64
  deriving DecidableEq

inductive Outcome where
  | solved (report : Report)
  | timedOut
  | failed (message : String)
  deriving DecidableEq

/-- Answers a task, given how many tasks came before it, or says why it takes no more. -/
abbrev Worker := Nat → Task → Except String Outcome

/-- How a task is to go in a rehearsal. -/
inductive Plan where
  | solve (time leastMemory averageMemory greatestMemory : Binary64)
  | timeOut
  | fail (message : String)
  deriving DecidableEq

/-- Solves in no time and without memory. -/
def Plan.effortless : Plan :=
  .solve (.finite false 0) (.finite false 0) (.finite false 0) (.finite false 0)

def Plan.carryOut (p : Plan) (t : Task) : Outcome :=
  match p with
  | timeOut => .timedOut
  | fail message => .failed message
  | solve time least average greatest =>
    match solveInstance (some t.strategy.name) (t.clauses.map fun c => .ofItems (c.map .integer)) with
    | .error fault => .failed fault.message
    | .ok finding => .solved ⟨finding, time, least, average, greatest⟩

/-- Carries out one plan after the other; tasks beyond the last plan take no effort. -/
def rehearse (plans : List Plan) : Worker := fun turn task =>
  .ok ((plans[turn]?.getD .effortless).carryOut task)

end Backjump.Benchmark
