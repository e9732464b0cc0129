import Backjump.Benchmark
import Backjump.Chart.Value
import Backjump.Proofs.Traversal

/-! Tables of results under the names of a benchmark's columns. The rows that a benchmark writes
name a solver and hold numbers with fixed places wherever charts are drawn from them. -/
namespace Backjump.Chart

/-- The cells of a row, in the order of the columns. -/
structure ResultRow where
  solver : String
  folder : String
  averageTime : String
  leastTime : String
  greatestTime : String
  averageMemory : String
  leastMemory : String
  greatestMemory : String
  inconclusive : String
  failed : String
  decisions : String
  conflicts : String
  learned : String
  sat : String
  unsat : String

/-- A number with fixed places. -/
def IsFixed (cell : String) : Prop := ∃ (x : Binary64) (places : Nat), 0 < places ∧ cell = x.fixed places

/-- The columns of numbers that charts are drawn from. -/
def drawnColumns : List String :=
  ["avg_time", "min_time", "max_time", "avg_mem", "min_mem", "max_mem", "decisions", "conflicts"]

namespace ResultRow

def cells (row : ResultRow) : List String :=
  [row.solver, row.folder, row.averageTime, row.leastTime, row.greatestTime, row.averageMemory,
    row.leastMemory, row.greatestMemory, row.inconclusive, row.failed, row.decisions, row.conflicts,
    row.learned, row.sat, row.unsat]

/-- The cell in the column of a name. -/
def cell (row : ResultRow) (name : String) : String := (row.cells[Benchmark.columns.idxOf name]?).getD ""

/-- The cells that are drawn hold numbers with fixed places. -/
def Measured (row : ResultRow) : Prop := ∀ name ∈ drawnColumns, IsFixed (row.cell name)

end ResultRow

/-- The text of a table of results. -/
def resultText (rows : List ResultRow) : String :=
  String.join ((Benchmark.columns :: rows.map ResultRow.cells).map Csv.line)

section Written

open Benchmark (Record RecordFault)

variable {places : Nat} {cell : Json}

/-- What a benchmark writes with fixed places is a number with fixed places. -/
theorem isFixed_fixedText {n : Number} (some : 0 < places)
    (written : Benchmark.fixedText places n = .ok cell) : IsFixed (Csv.cellText cell) := by
  rw [Benchmark.fixedText] at written
  cases value : n.toBinary64? with
  | none =>
    rw [value] at written
    contradiction
  | some x =>
    rw [value] at written
    cases written
    exact ⟨x, places, some, rfl⟩

theorem isFixed_averageText {ns : List Number} (some : 0 < places)
    (written : Benchmark.averageText places ns = .ok cell) : IsFixed (Csv.cellText cell) := by
  cases ns with
  | nil => contradiction
  | cons first rest =>
    rw [Benchmark.averageText] at written
    cases mean : Number.mean? first rest with
    | none =>
      rw [mean] at written
      contradiction
    | some n =>
      rw [mean] at written
      exact isFixed_fixedText some written

theorem isFixed_extremeText {extreme : Number → List Number → Number} {ns : List Number}
    (some : 0 < places) (written : Benchmark.extremeText places extreme ns = .ok cell) :
    IsFixed (Csv.cellText cell) := by
  cases ns with
  | nil => contradiction
  | cons first rest => exact isFixed_fixedText some written

theorem isFixed_perRun {r : Record} {runs : Int} {f : Benchmark.Field}
    (written : r.perRun runs f = .ok cell) : IsFixed (Csv.cellText cell) := by
  obtain ⟨value, -, written⟩ := exists_of_bind written
  obtain ⟨n, -, written⟩ := exists_of_bind written
  cases n with
  | whole n =>
    obtain ⟨quotient, -, written⟩ := exists_of_bind written
    exact isFixed_fixedText (by decide) written
  | real x =>
    obtain ⟨divisor, -, written⟩ := exists_of_bind written
    exact isFixed_fixedText (by decide) written

/-- The row of a folder holds numbers with fixed places wherever charts are drawn from it. -/
theorem exists_resultRow {r : Record} {solver folder : String} {tests : Int} {cells : List Json}
    (written : r.row solver folder tests = .ok cells) : ∃ row : ResultRow, row.Measured ∧
      row.solver = solver ∧ row.folder = folder ∧ cells.map Csv.cellText = row.cells := by
  obtain ⟨_, -, written⟩ := exists_of_bind written
  obtain ⟨times, -, written⟩ := exists_of_bind written
  obtain ⟨averageTime, writtenAverageTime, written⟩ := exists_of_bind written
  obtain ⟨leastTime, writtenLeastTime, written⟩ := exists_of_bind written
  obtain ⟨greatestTime, writtenGreatestTime, written⟩ := exists_of_bind written
  obtain ⟨_, -, written⟩ := exists_of_bind written
  obtain ⟨memory, -, written⟩ := exists_of_bind written
  obtain ⟨averageMemory, writtenAverageMemory, written⟩ := exists_of_bind written
  obtain ⟨leastMemory, writtenLeastMemory, written⟩ := exists_of_bind written
  obtain ⟨greatestMemory, writtenGreatestMemory, written⟩ := exists_of_bind written
  obtain ⟨inconclusive, -, written⟩ := exists_of_bind written
  obtain ⟨failed, -, written⟩ := exists_of_bind written
  obtain ⟨decisions, writtenDecisions, written⟩ := exists_of_bind written
  obtain ⟨conflicts, writtenConflicts, written⟩ := exists_of_bind written
  obtain ⟨learned, -, written⟩ := exists_of_bind written
  obtain ⟨sat, -, written⟩ := exists_of_bind written
  obtain ⟨unsat, -, written⟩ := exists_of_bind written
  cases written
  obtain ⟨_, -, writtenLeastMemory⟩ := exists_of_bind writtenLeastMemory
  obtain ⟨_, -, writtenLeastMemory⟩ := exists_of_bind writtenLeastMemory
  obtain ⟨_, -, writtenGreatestMemory⟩ := exists_of_bind writtenGreatestMemory
  obtain ⟨_, -, writtenGreatestMemory⟩ := exists_of_bind writtenGreatestMemory
  refine ⟨⟨solver, folder, Csv.cellText averageTime, Csv.cellText leastTime, Csv.cellText greatestTime,
    Csv.cellText averageMemory, Csv.cellText leastMemory, Csv.cellText greatestMemory,
    Csv.cellText inconclusive, Csv.cellText failed, Csv.cellText decisions, Csv.cellText conflicts,
    Csv.cellText learned, Csv.cellText sat, Csv.cellText unsat⟩, ?_, rfl, rfl, rfl⟩
  simp only [ResultRow.Measured, drawnColumns, List.forall_mem_cons]
  exact ⟨isFixed_averageText (by decide) writtenAverageTime,
    isFixed_extremeText (by decide) writtenLeastTime, isFixed_extremeText (by decide) writtenGreatestTime,
    isFixed_averageText (by decide) writtenAverageMemory, isFixed_fixedText (by decide) writtenLeastMemory,
    isFixed_fixedText (by decide) writtenGreatestMemory, isFixed_perRun writtenDecisions,
    isFixed_perRun writtenConflicts, List.forall_mem_nil _⟩

/-- The row that a benchmark makes of what it keeps of a folder. -/
def IsRow (cells : List Json) : Prop :=
  ∃ (r : Record) (j : Benchmark.Job) (tests : Int), r.row j.label j.folder tests = .ok cells

/-- What a benchmark writes of its rows is the text of a table that names a solver and holds numbers
to draw in each row. -/
theorem exists_resultText {rows : List (List Json)} (each : ∀ cells ∈ rows, IsRow cells) :
    ∃ results : List ResultRow, (∀ row ∈ results, row.Measured ∧ isMissingWord row.solver = false) ∧
      Benchmark.tableText rows = resultText results := by
  have named (j : Benchmark.Job) : isMissingWord j.label = false := by
    rw [Benchmark.Job.label]
    generalize j.strategy = strategy
    cases strategy <;> decide
  obtain ⟨results, holds, same⟩ : ∃ results : List ResultRow,
      (∀ row ∈ results, row.Measured ∧ isMissingWord row.solver = false) ∧
        rows.map (·.map Csv.cellText) = results.map ResultRow.cells := by
    induction rows with
    | nil => exact ⟨[], List.forall_mem_nil _, rfl⟩
    | cons cells rows ih =>
      obtain ⟨r, j, tests, written⟩ := each cells List.mem_cons_self
      obtain ⟨row, measured, solver, -, same⟩ := exists_resultRow written
      obtain ⟨results, others, rest⟩ := ih fun cells mem => each cells (List.mem_cons_of_mem _ mem)
      have here : row.Measured ∧ isMissingWord row.solver = false := ⟨measured, solver ▸ named j⟩
      exact ⟨row :: results, List.forall_mem_cons.mpr ⟨here, others⟩, congrArg₂ List.cons same rest⟩
  refine ⟨results, holds, congrArg String.join (congrArg (Csv.line Benchmark.columns :: ·) ?_)⟩
  calc rows.map Benchmark.tableLine = (rows.map (·.map Csv.cellText)).map Csv.line := (List.map_map ..).symm
    _ = (results.map ResultRow.cells).map Csv.line := by rw [same]

end Written

end Backjump.Chart
