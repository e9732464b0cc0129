import Backjump.Proofs.Chart.Account

/-! Drawing all charts of a table. Charts are made and painted one after the other, up to the first
that cannot be made or is refused. Of numbers with fixed places every chart can be made, so then
the drawing ends early only where the library refuses a chart. -/
namespace Backjump.Chart

variable {L : Library}

section Painting

variable {chart : L.Plot} {rest : List (Except L.Fault L.Plot)} {before painted : List L.Plot}

/-- A chart that is refused ends the painting. -/
theorem paintAll_refused {fault : L.Fault} (refused : L.paint chart = .error fault) :
    paintAll (.ok chart :: rest) before = (.error (.library fault), before) := by
  simp only [paintAll, bind, Except.bind, refused]

theorem paintAll_accepted (accepted : L.paint chart = .ok ()) :
    paintAll (.ok chart :: rest) before = paintAll rest (before ++ [chart]) := by
  simp only [paintAll, bind, Except.bind, accepted]

theorem paintAll_append (first second : List (Except L.Fault L.Plot)) (before : List L.Plot) :
    paintAll (first ++ second) before =
      (paintAll first before).andThen fun _ painted => paintAll second painted := by
  induction first generalizing before with
  | nil => rfl
  | cons made rest ih =>
    simp only [List.cons_append, paintAll]
    split
    · rfl
    · exact ih _

/-- Charts that are all painted were all made. -/
theorem exists_of_paintAll {made : List (Except L.Fault L.Plot)}
    (all : paintAll made before = (.ok (), painted)) : ∃ charts : List L.Plot,
      made = charts.map .ok ∧ painted = before ++ charts ∧ ∀ chart ∈ charts, L.paint chart = .ok () := by
  induction made generalizing before with
  | nil =>
    cases all
    exact ⟨[], rfl, (List.append_nil _).symm, List.forall_mem_nil _⟩
  | cons made rest ih =>
    cases made with
    | error fault => cases all
    | ok chart =>
      cases outcome : L.paint chart with
      | error fault =>
        rw [paintAll_refused outcome] at all
        cases all
      | ok =>
        rw [paintAll_accepted outcome] at all
        obtain ⟨charts, rfl, rfl, accepted⟩ := ih all
        exact ⟨chart :: charts, rfl, List.append_assoc .., List.forall_mem_cons.mpr ⟨outcome, accepted⟩⟩

/-- Charts that are all made are painted up to the first that is refused. -/
theorem paintAll_of_made (charts before : List L.Plot) :
    (paintAll (charts.map .ok) before = (.ok (), before ++ charts) ∧
        ∀ chart ∈ charts, L.paint chart = .ok ()) ∨
      ∃ painted refused rest fault, charts = painted ++ refused :: rest ∧
        (∀ chart ∈ painted, L.paint chart = .ok ()) ∧ L.paint refused = .error fault ∧
          paintAll (charts.map .ok) before = (.error (.library fault), before ++ painted) := by
  induction charts generalizing before with
  | nil => exact .inl ⟨congrArg (Prod.mk _) (List.append_nil before).symm, List.forall_mem_nil _⟩
  | cons chart charts ih =>
    rw [List.map_cons]
    cases outcome : L.paint chart with
    | error fault =>
      refine .inr ⟨[], chart, charts, fault, rfl, List.forall_mem_nil _, outcome, ?_⟩
      rw [paintAll_refused outcome, List.append_nil]
    | ok =>
      rw [paintAll_accepted outcome]
      rcases ih (before ++ [chart]) with
        ⟨all, accepted⟩ | ⟨painted, refused, rest, fault, rfl, accepted, refusal, stop⟩
      · refine .inl ⟨?_, List.forall_mem_cons.mpr ⟨outcome, accepted⟩⟩
        rw [all, List.append_assoc, List.singleton_append]
      · have first : ∀ other ∈ chart :: painted, L.paint other = .ok () :=
          List.forall_mem_cons.mpr ⟨outcome, accepted⟩
        refine .inr ⟨chart :: painted, refused, rest, fault, rfl, first, refusal, ?_⟩
        rw [stop, List.append_assoc, List.singleton_append]

/-- How a drawing of charts ends: with all of them, or at the first that the library refuses. -/
inductive Drawn (charts : List L.Plot) : Attempt (List L.Plot) (List String) (Fault L.Fault) → Prop where
  | all (accepted : ∀ chart ∈ charts, L.paint chart = .ok ()) :
    Drawn charts (.ok (charts.map BarChart.path), charts)
  | stopped {painted rest : List L.Plot} {refused : L.Plot} {fault : L.Fault}
    (split : charts = painted ++ refused :: rest) (accepted : ∀ chart ∈ painted, L.paint chart = .ok ())
    (refusal : L.paint refused = .error fault) : Drawn charts (.error (.library fault), painted)

theorem Drawn.eq_of_ok {charts : List L.Plot} {paths : List String}
    (drawn : Drawn charts (.ok paths, painted)) : painted = charts := by
  generalize ending : (Except.ok paths, painted) = outcome at drawn
  cases drawn with
  | all => exact congrArg Prod.snd ending
  | stopped => exact nomatch congrArg Prod.fst ending

theorem drawn_of_made (charts : List L.Plot) : Drawn charts
    ((paintAll (charts.map .ok) []).andThen fun _ painted => (.ok (painted.map (·.path)), painted)) := by
  rcases paintAll_of_made charts [] with
    ⟨all, accepted⟩ | ⟨painted, refused, rest, fault, split, accepted, refusal, stop⟩
  · rw [all]
    exact .all accepted
  · rw [stop]
    exact .stopped split accepted refusal

end Painting

section Drawing

variable {r : Results L} {table : String → Option L.Column} {solvers folders : List Value} {d : Disk}
  {out : String}

/-- All charts of a table, those over all folders first. -/
def allCharts (r : Results L) (solvers folders : List Value) (out : String) : List (Except L.Fault L.Plot) :=
  solverCharts r solvers out ++ (L.unique folders).map (folderChart r solvers folders out)

/-- With the columns of names there, a drawing is the painting of all charts. -/
theorem drawTable_eq (made : Results.ofTable table = .ok r) (ready : (d.makeDirectories out).1 = .ok ())
    (hasSolvers : r.solvers = some solvers) (hasFolders : r.folders = some folders) :
    drawTable d table out = (paintAll (allCharts r solvers folders out) []).andThen fun _ painted =>
      (.ok (painted.map (·.path)), painted) := by
  simp only [drawTable, made, ready, hasSolvers, hasFolders, allCharts, paintAll_append]
  cases paintAll (solverCharts r solvers out) [] with
  | mk outcome painted => cases outcome <;> rfl

/-- A drawing that comes to its end has read the numbers and made the directory. -/
theorem exists_of_drawTable {paths : List String} {charts : List L.Plot}
    (drawn : drawTable d table out = (.ok paths, charts)) :
    ∃ r : Results L, Results.ofTable table = .ok r ∧ (d.makeDirectories out).1 = .ok () := by
  cases read : Results.ofTable table with
  | error fault => simp [drawTable, read] at drawn
  | ok r =>
    cases ready : (d.makeDirectories out).1 with
    | error fault => simp [drawTable, read, ready] at drawn
    | ok => exact ⟨r, rfl, rfl⟩

end Drawing

section Computing

variable {Plain : L.Form → Prop} {m : Measures L} {r : Results L} {table : String → Option L.Column}
  {rows : List ResultRow} {solvers folders : List Value}

/-- The numbers that charts are drawn from have forms of which differences can be taken. -/
structure Results.Differ (Plain : L.Form → Prop) (r : Results L) : Prop where
  times : Plain r.times.form
  leastTimes : Plain r.leastTimes.form
  greatestTimes : Plain r.greatestTimes.form
  memory : Plain r.memory.form
  leastMemory : Plain r.leastMemory.form
  greatestMemory : Plain r.greatestMemory.form
  decisions : Plain r.decisions.form
  conflicts : Plain r.conflicts.form

variable (computes : L.Computes Plain)
include computes

theorem exists_chart (averages : Plain m.averages.form) (least : Plain m.least.form)
    (greatest : Plain m.greatest.form) (path title quantity : String) (colour : Colour) :
    ∃ chart, m.chart path title quantity colour = .ok chart := by
  have averages' : Plain m.sorted.averages.form := averages
  have least' : Plain m.sorted.least.form := least
  have greatest' : Plain m.sorted.greatest.form := greatest
  have heights := computes.raise averages' floor
  have low := computes.raise least' floor
  have high := computes.raise greatest' floor
  obtain ⟨below, down⟩ := computes.minus heights low
  obtain ⟨above, up⟩ := computes.minus high heights
  simp only [Measures.chart, bind_of_ok down, bind_of_ok up]
  exact ⟨_, rfl⟩

theorem exists_allCharts (differ : r.Differ Plain) (solvers folders : List Value) (out : String) :
    ∃ charts : List L.Plot, allCharts r solvers folders out = charts.map .ok := by
  have summary {averages least greatest : L.Numbers} (plain : Plain averages.form) (plain' : Plain least.form)
      (plain'' : Plain greatest.form) (path title quantity : String) (colour : Colour) : ∃ chart,
        (measuresBySolver solvers averages least greatest).chart path title quantity colour = .ok chart :=
    exists_chart computes (computes.aggregate plain _ _) (computes.aggregate plain' _ _)
      (computes.aggregate plain'' _ _) path title quantity colour
  apply exists_map_ok
  simp only [allCharts, solverCharts, List.forall_mem_append, List.forall_mem_cons, List.forall_mem_map]
  refine ⟨⟨?_, ?_, ?_, ?_, List.forall_mem_nil _⟩, fun key _ => ?_⟩
  · exact summary differ.times differ.leastTimes differ.greatestTimes _ _ _ _
  · exact summary differ.memory differ.leastMemory differ.greatestMemory _ _ _ _
  · exact summary differ.decisions differ.decisions differ.decisions _ _ _ _
  · exact summary differ.conflicts differ.conflicts differ.conflicts _ _ _ _
  · exact exists_chart computes differ.times differ.leastTimes differ.greatestTimes _ _ _ _

/-- Numbers with fixed places are read so that differences can be taken. -/
theorem exists_results (lawful : L.Lawful) (measured : ∀ row ∈ rows, row.Measured)
    (read : L.read (resultText rows) = .ok table) :
    ∃ r : Results L, Results.ofTable table = .ok r ∧ r.Differ Plain := by
  obtain ⟨table', read', columns⟩ := lawful.reads rows
  cases read.symm.trans read'
  have column {name : String} (drawn : name ∈ drawnColumns) (listed : name ∈ Benchmark.columns) :
      ∃ s : L.Numbers, numbersOf table name = .ok s ∧ Plain s.form := by
    obtain ⟨column, found, -⟩ := columns name listed
    have fixed : ∀ row ∈ rows, IsFixed (row.cell name) := fun row mem => measured row mem name drawn
    obtain ⟨s, numbers, plain⟩ := computes.reads read name listed found fixed
    refine ⟨s, ?_, plain⟩
    simp only [numbersOf, found, numbers]
    rfl
  obtain ⟨times, readTimes, plain⟩ := column (by decide : "avg_time" ∈ _) (by decide)
  obtain ⟨leastTimes, readLeastTimes, plain₂⟩ := column (by decide : "min_time" ∈ _) (by decide)
  obtain ⟨greatestTimes, readGreatestTimes, plain₃⟩ := column (by decide : "max_time" ∈ _) (by decide)
  obtain ⟨memory, readMemory, plain₄⟩ := column (by decide : "avg_mem" ∈ _) (by decide)
  obtain ⟨leastMemory, readLeastMemory, plain₅⟩ := column (by decide : "min_mem" ∈ _) (by decide)
  obtain ⟨greatestMemory, readGreatestMemory, plain₆⟩ := column (by decide : "max_mem" ∈ _) (by decide)
  obtain ⟨decisions, readDecisions, plain₇⟩ := column (by decide : "decisions" ∈ _) (by decide)
  obtain ⟨conflicts, readConflicts, plain₈⟩ := column (by decide : "conflicts" ∈ _) (by decide)
  simp only [Results.ofTable, bind_of_ok readTimes, bind_of_ok readLeastTimes,
    bind_of_ok readGreatestTimes, bind_of_ok readMemory, bind_of_ok readLeastMemory,
    bind_of_ok readGreatestMemory, bind_of_ok readDecisions, bind_of_ok readConflicts]
  exact ⟨_, rfl, ⟨plain, plain₂, plain₃, plain₄, plain₅, plain₆, plain₇, plain₈⟩⟩

end Computing

end Backjump.Chart
