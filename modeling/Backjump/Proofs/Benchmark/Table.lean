import Backjump.Proofs.Benchmark.Resumption

/-! The table of a suite. A benchmark gives each strategy and folder one row, or none if
no instance of the folder was solved, unless an average effort is beyond the range of
binary64; and this holds of the benchmark because it holds of each folder. -/
namespace Backjump.Benchmark

/-- What a worker says of an instance that it solved. -/
def Outcome.report? : Outcome → Option Report
  | .solved p => some p
  | _ => none

/-- How the row of a strategy and a folder begins. -/
def heading (strategy : Strategy) (folder : String) : List Json :=
  [.string (solverName ++ "-" ++ strategy.lowerName), .string folder]

/-- The folders of the instances, for one strategy. -/
def jobsOf (groups : OrderedMap String (List Location)) (strategy : Strategy) : List Job :=
  groups.entries.map fun g => ⟨strategy, g.1, g.2⟩

namespace Suite

def solves (b : Suite) (strategy : Strategy) (l : Location) : Bool :=
  (b.answer strategy l).report?.isSome

def solvesAny (b : Suite) (j : Job) : Bool := j.locations.any (b.solves j.strategy)

/-- Times and memories are numbers that 64 bits can encode. -/
def Measured (b : Suite) : Prop :=
  ∀ l ∈ b.locations, ∀ strategy report, b.answer strategy l = .solved report →
    report.time.InRange ∧ report.averageMemory.InRange

/-- An average effort of the folder is beyond the range of binary64. -/
def Overflows (b : Suite) (j : Job) : Prop :=
  (b.fullSheet j).Overflows (if (j.locations.length : Int) = 0 then 1 else j.locations.length)

def groups (b : Suite) : OrderedMap String (List Location) := groupByFolder b.locations

/-- All folders with all strategies. -/
def jobs (b : Suite) : List Job := Strategy.all.flatMap (jobsOf b.groups)

end Suite

variable {b : Suite} {part next : Part} {book book' : Book} {j : Job} {jobs jobs' : List Job}
  {strategy : Strategy} {page : Page} {earlier : List (String × Page)} {ls : List Location}
  {ending ending' : Book → Prop} {rows : List (List Json)}

section Groups

theorem mem_jobsOf {groups : OrderedMap String (List Location)} : j ∈ jobsOf groups strategy ↔
    j.strategy = strategy ∧ (j.folder, j.locations) ∈ groups.entries := by
  rw [jobsOf, List.mem_map]
  constructor
  · rintro ⟨g, member, rfl⟩
    exact ⟨rfl, member⟩
  · rintro ⟨rfl, member⟩
    exact ⟨_, member, rfl⟩

end Groups

namespace Sheet

end Sheet

namespace Suite

def reports (b : Suite) (j : Job) : List Report := (b.outcomes j).filterMap Outcome.report?

/-- The part can be resumed, and it comes to an end with the rows of the jobs, unless an
average effort of one of them is out of range. -/
inductive Does (b : Suite) (part : Part) (book : Book) (jobs : List Job) (ending : Book → Prop) : Prop
  | ends {book' : Book} {saved : List Book} {rows : List (List Json)}
      (resumes : b.Resumes part book (.ok ()) book' saved) (ended : ending book')
      (added : book'.rows = book.rows ++ rows)
      (headed : rows.map (·.take 2) =
        (jobs.filter b.solvesAny).map fun j => heading j.strategy j.folder)
  | stops {fault : RecordFault} {book' : Book} {saved : List Book} {j : Job}
      (resumes : b.Resumes part book (.error (.record fault)) book' saved) (member : j ∈ jobs)
      (beyond : b.Overflows j)

namespace Does

theorem andThen (first : b.Does part book jobs ending)
    (second : ∀ book', ending book' → b.Does next book' jobs' ending') :
    b.Does (fun e s => (part e s).andThen fun _ s => next e s) book (jobs ++ jobs') ending' := by
  cases first with
  | stops resumes member beyond =>
    exact .stops (resumes.andThen_error next) (List.mem_append_left _ member) beyond
  | ends resumes ended added headed =>
    cases second _ ended with
    | stops resumes' member beyond =>
      exact .stops (resumes.andThen resumes') (List.mem_append_right _ member) beyond
    | ends resumes' ended' added' headed' =>
      rw [added, List.append_assoc] at added'
      refine .ends (resumes.andThen resumes') ended' added' ?_
      rw [List.map_append, headed, headed', List.filter_append, List.map_append]

theorem mono (does : b.Does part book jobs ending) (weaker : ∀ book', ending book' → ending' book') :
    b.Does part book jobs ending' := by
  cases does with
  | stops resumes member beyond => exact .stops resumes member beyond
  | ends resumes ended added headed => exact .ends resumes (weaker _ ended) added headed

end Does

end Suite

end Backjump.Benchmark
