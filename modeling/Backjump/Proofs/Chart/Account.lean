import Backjump.Proofs.Chart.Name
import Backjump.Proofs.Disk
import Backjump.Proofs.Traversal

/-! Charts as they stand to the rows of a table. Once a table is read, each of its rows has a line of
values; the chart of a folder shows lines, bar by bar, and together the charts show every line
whose folder is there. This holds of the charts as they are made, before one is painted. -/
namespace Backjump.Chart

variable {L : Library}

/-- A row of a table as it was read. -/
structure Line (L : Library) where
  row : ResultRow
  solver : Value
  folder : Value
  time : L.Amount
  leastTime : L.Amount
  greatestTime : L.Amount

/-- The columns hold one line for each row, and a folder is missing only if a missing word stands for it. -/
structure ReadAs (rows : List ResultRow) (r : Results L) (lines : List (Line L)) : Prop where
  rows : lines.map Line.row = rows
  solvers : r.solvers = some (lines.map Line.solver)
  folders : r.folders = some (lines.map Line.folder)
  times : r.times.entries = lines.map Line.time
  leastTimes : r.leastTimes.entries = lines.map Line.leastTime
  greatestTimes : r.greatestTimes.entries = lines.map Line.greatestTime
  missing : ∀ line ∈ lines, line.folder.isMissing = true → isMissingWord (untilNul line.row.folder) = true

/-- The chart of a folder with the lines that it shows. -/
structure Panel (L : Library) where
  folder : Value
  lines : List (Line L)
  chart : L.Plot

/-- Each line has a bar of its own, with its solver for a label, its time for a height and its
least and greatest time for the ends of the line over the bar. -/
structure Panel.Shows (p : Panel L) (r : Results L) (out : String) : Prop where
  path : p.chart.path = Disk.join out (folderName p.folder)
  title : p.chart.title = "Avg Time - Folder: " ++ p.folder.name
  labels : p.chart.labels = p.lines.map Line.solver
  heights : p.chart.heights = L.raise floor ⟨r.times.form, p.lines.map Line.time⟩
  below : ∃ distances, p.chart.below = L.raise (.whole 0) distances ∧
    L.minus p.chart.heights (L.raise floor ⟨r.leastTimes.form, p.lines.map Line.leastTime⟩) = .ok distances
  above : ∃ distances, p.chart.above = L.raise (.whole 0) distances ∧
    L.minus (L.raise floor ⟨r.greatestTimes.form, p.lines.map Line.greatestTime⟩) p.chart.heights =
      .ok distances
  bars : ∀ s ∈ [p.chart.heights, p.chart.below, p.chart.above], s.entries.length = p.lines.length

/-- The charts of a table as they stand to its lines. -/
structure Account (r : Results L) (lines : List (Line L)) (out : String) (overall : List L.Plot)
    (panels : List (Panel L)) : Prop where
  /-- The charts over all folders come first. -/
  summaries : overall.map BarChart.path = summaryNames.map (Disk.join out)
  /-- Then each folder has its own. -/
  folders : panels.map Panel.folder = L.unique (lines.map Line.folder)
  shows : ∀ p ∈ panels, p.Shows r out
  selects : ∀ p ∈ panels, p.lines.Perm (lines.filter fun line => L.equal line.folder p.folder)
  /-- Together these show each line with a folder once. -/
  covers : (panels.flatMap Panel.lines).Perm (lines.filter fun line => !line.folder.isMissing)
  /-- No two charts are put at one path if the folders are alike. -/
  distinct : Alike (lines.map Line.folder) →
    ((overall ++ panels.map Panel.chart).map BarChart.path).Nodup

/-- Lists of one length are the sides of a list of pairs. -/
theorem exists_pairs {α β : Type u} {xs : List α} {ys : List β} (even : xs.length = ys.length) :
    ∃ pairs : List (α × β), pairs.map Prod.fst = xs ∧ pairs.map Prod.snd = ys :=
  ⟨xs.zip ys, List.map_fst_zip (Nat.le_of_eq even), List.map_snd_zip (Nat.le_of_eq even.symm)⟩

/-- What is a list of values in another order is one of the list in another order. -/
theorem exists_perm_of_perm_map {α β : Type u} {f : α → β} {xs : List α} {ys : List β}
    (perm : ys.Perm (xs.map f)) : ∃ zs : List α, ys = zs.map f ∧ zs.Perm xs := by
  have composed : Relation.Comp (fun ys zs => ys = List.map f zs) List.Perm ys xs := by
    rw [List.eq_map_comp_perm]
    exact perm
  exact composed

section Reading

variable {rows : List ResultRow} {r : Results L} {table : String → Option L.Column}

theorem exists_of_numbersOf {name : String} {s : L.Numbers} (read : numbersOf table name = .ok s) :
    ∃ column, table name = some column ∧ L.numbers column = .ok s := by
  unfold numbersOf at read
  cases found : table name with
  | none => simp [found] at read
  | some column =>
    simp only [found] at read
    exact ⟨column, rfl, of_mapError read⟩

/-- What results are made of. -/
theorem Results.of_ofTable (made : Results.ofTable table = .ok r) :
    numbersOf table "avg_time" = .ok r.times ∧ numbersOf table "min_time" = .ok r.leastTimes ∧
      numbersOf table "max_time" = .ok r.greatestTimes ∧ r.solvers = (table "solver").map L.values ∧
        r.folders = (table "folder").map L.values := by
  obtain ⟨times, readTimes, made⟩ := exists_of_bind made
  obtain ⟨leastTimes, readLeastTimes, made⟩ := exists_of_bind made
  obtain ⟨greatestTimes, readGreatestTimes, made⟩ := exists_of_bind made
  obtain ⟨memory, -, made⟩ := exists_of_bind made
  obtain ⟨leastMemory, -, made⟩ := exists_of_bind made
  obtain ⟨greatestMemory, -, made⟩ := exists_of_bind made
  obtain ⟨decisions, -, made⟩ := exists_of_bind made
  obtain ⟨conflicts, -, made⟩ := exists_of_bind made
  cases made
  exact ⟨readTimes, readLeastTimes, readGreatestTimes, rfl, rfl⟩

theorem exists_lines_of_columns {solvers folders : List Value}
    {times leastTimes greatestTimes : List L.Amount} (ofSolvers : rows.length = solvers.length)
    (ofFolders : rows.length = folders.length) (ofTimes : rows.length = times.length)
    (ofLeast : rows.length = leastTimes.length) (ofGreatest : rows.length = greatestTimes.length) : ∃ lines : List (Line L),
      lines.map Line.row = rows ∧ lines.map Line.solver = solvers ∧ lines.map Line.folder = folders ∧
        lines.map Line.time = times ∧ lines.map Line.leastTime = leastTimes ∧
          lines.map Line.greatestTime = greatestTimes := by
  obtain ⟨named, rfl, rfl⟩ := exists_pairs ofSolvers
  obtain ⟨placed, rfl, rfl⟩ := exists_pairs (List.length_map _ ▸ ofFolders)
  simp only [List.length_map] at ofTimes ofLeast ofGreatest
  obtain ⟨timed, rfl, rfl⟩ := exists_pairs ofTimes
  simp only [List.length_map] at ofLeast ofGreatest
  obtain ⟨bounded, rfl, rfl⟩ := exists_pairs ofLeast
  simp only [List.length_map] at ofGreatest
  obtain ⟨whole, rfl, rfl⟩ := exists_pairs ofGreatest
  refine ⟨whole.map fun ⟨⟨⟨⟨⟨row, solver⟩, folder⟩, time⟩, least⟩, greatest⟩ =>
    ⟨row, solver, folder, time, least, greatest⟩, ?_⟩
  simp only [List.map_map]
  exact ⟨rfl, rfl, rfl, rfl, rfl, rfl⟩

/-- What was read of a table of results are lines, one for each row. -/
theorem exists_lines (lawful : L.Lawful) (read : L.read (resultText rows) = .ok table)
    (made : Results.ofTable table = .ok r) : ∃ lines : List (Line L), ReadAs rows r lines ∧
      L.Keyed (lines.map Line.folder) ∧ ∀ v ∈ lines.map Line.folder, v.IsBinary64 := by
  obtain ⟨table', read', columns⟩ := lawful.reads rows
  cases read.symm.trans read'
  obtain ⟨solver, hasSolver, solvers⟩ := columns "solver" (by decide)
  obtain ⟨folder, hasFolder, folders⟩ := columns "folder" (by decide)
  have even {name : String} {s : L.Numbers} (listed : name ∈ Benchmark.columns)
      (numbers : numbersOf table name = .ok s) : rows.length = s.entries.length := by
    obtain ⟨column, found, holds⟩ := columns name listed
    obtain ⟨column', found', numbers⟩ := exists_of_numbersOf numbers
    cases found.symm.trans found'
    exact holds.length_values.trans (holds.length_numbers numbers).symm
  obtain ⟨readTimes, readLeast, readGreatest, solverValues, folderValues⟩ := Results.of_ofTable made
  obtain ⟨lines, ofRows, ofSolvers, ofFolders, ofTimes, ofLeast, ofGreatest⟩ :=
    exists_lines_of_columns (L := L) solvers.length_values folders.length_values
      (even (by decide) readTimes) (even (by decide) readLeast) (even (by decide) readGreatest)
  refine ⟨lines, ⟨ofRows, ?_, ?_, ofTimes.symm, ofLeast.symm, ofGreatest.symm, ?_⟩,
    ofFolders ▸ folders.keyed, ofFolders ▸ folders.binary64⟩
  · simp only [solverValues, hasSolver, Option.map_some, ofSolvers]
  · simp only [folderValues, hasFolder, Option.map_some, ofFolders]
  · have missing := folders.missing
    simp only [← ofRows, ← ofFolders, List.map_map, List.forall₂_map_left_iff, List.forall₂_map_right_iff,
      List.forall₂_same] at missing
    exact missing

end Reading

section Making

variable {r : Results L} {lines : List (Line L)} {out : String} {key : Value} {chart : L.Plot}

/-- What a chart of lines shows. -/
def measuresOfLines (r : Results L) (lines : List (Line L)) : Measures L :=
  ⟨lines.map Line.solver, ⟨r.times.form, lines.map Line.time⟩, ⟨r.leastTimes.form, lines.map Line.leastTime⟩,
    ⟨r.greatestTimes.form, lines.map Line.greatestTime⟩⟩

/-- Bars are put in order line by line. -/
theorem exists_sorted (lawful : L.Lawful) (r : Results L) (lines : List (Line L)) : ∃ sorted : List (Line L),
    (measuresOfLines r lines).sorted = measuresOfLines r sorted ∧ sorted.Perm lines := by
  let entry (line : Line L) := (line.solver, line.time, line.leastTime, line.greatestTime)
  obtain ⟨sorted, order, perm⟩ := exists_perm_of_perm_map (f := entry)
    (lawful.sort_perm r.times.form (fun row => row.2.1) (lines.map entry))
  refine ⟨sorted, ?_, perm⟩
  simp only [Measures.sorted, measuresOfLines, List.zip_map']
  simp only [entry] at order
  simp only [order, List.map_map]
  rfl

variable {rows : List ResultRow}

theorem measuresOfFolder_eq (read : ReadAs rows r lines) (key : Value) :
    measuresOfFolder r (lines.map Line.solver) (lines.map Line.folder) key =
      measuresOfLines r (lines.filter fun line => L.equal line.folder key) := by
  simp only [measuresOfFolder, measuresOfLines, read.times, read.leastTimes, read.greatestTimes, pick_map]

/-- The chart of a folder shows the lines of that folder, one by one. -/
theorem exists_panel (lawful : L.Lawful) (read : ReadAs rows r lines)
    (made : folderChart r (lines.map Line.solver) (lines.map Line.folder) out key = .ok chart) :
    ∃ p : Panel L, p.folder = key ∧ p.chart = chart ∧ p.Shows r out ∧
      p.lines.Perm (lines.filter fun line => L.equal line.folder key) := by
  obtain ⟨sorted, order, perm⟩ := exists_sorted lawful r (lines.filter fun line => L.equal line.folder key)
  simp only [folderChart, Measures.chart, measuresOfFolder_eq read, order] at made
  obtain ⟨below, down, made⟩ := exists_of_bind made
  obtain ⟨above, up, made⟩ := exists_of_bind made
  cases made
  have downs := lawful.length_minus down (by simp [lawful.length_raise, measuresOfLines])
  have ups := lawful.length_minus up (by simp [lawful.length_raise, measuresOfLines])
  simp only [lawful.length_raise, measuresOfLines, List.length_map] at downs ups
  refine ⟨⟨key, sorted, _⟩, rfl, rfl, ⟨rfl, rfl, rfl, rfl, ⟨below, rfl, down⟩, ⟨above, rfl, up⟩, ?_⟩, perm⟩
  simp [lawful.length_raise, measuresOfLines, downs, ups]

theorem exists_panels (lawful : L.Lawful) (read : ReadAs rows r lines) {keys : List Value}
    {charts : List L.Plot}
    (made : keys.map (folderChart r (lines.map Line.solver) (lines.map Line.folder) out) = charts.map .ok) :
    ∃ panels : List (Panel L), panels.map Panel.folder = keys ∧ panels.map Panel.chart = charts ∧
      ∀ p ∈ panels, p.Shows r out ∧ p.lines.Perm (lines.filter fun line => L.equal line.folder p.folder) := by
  induction keys generalizing charts with
  | nil =>
    have none : charts = [] := List.map_eq_nil_iff.mp made.symm
    exact ⟨[], rfl, none.symm, List.forall_mem_nil _⟩
  | cons key keys ih =>
    obtain ⟨chart, charts, rfl, first, others⟩ := List.map_eq_cons_iff.mp made.symm
    obtain ⟨p, rfl, rfl, shows, perm⟩ := exists_panel lawful read first.symm
    obtain ⟨panels, rfl, rfl, each⟩ := ih others.symm
    exact ⟨p :: panels, rfl, rfl, List.forall_mem_cons.mpr ⟨⟨shows, perm⟩, each⟩⟩

theorem path_of_chart {m : Measures L} {path title quantity : String} {colour : Colour}
    (made : m.chart path title quantity colour = .ok chart) : chart.path = path := by
  obtain ⟨below, -, made⟩ := exists_of_bind made
  obtain ⟨above, -, made⟩ := exists_of_bind made
  cases made
  rfl

/-- The charts over all folders have fixed names. -/
theorem paths_solverCharts {solvers : List Value} {overall : List L.Plot}
    (made : solverCharts r solvers out = overall.map .ok) :
    overall.map BarChart.path = summaryNames.map (Disk.join out) := by
  obtain ⟨times, _, rfl, first, made⟩ := List.map_eq_cons_iff.mp made.symm
  obtain ⟨memory, _, rfl, second, made⟩ := List.map_eq_cons_iff.mp made
  obtain ⟨decisions, _, rfl, third, made⟩ := List.map_eq_cons_iff.mp made
  obtain ⟨conflicts, _, rfl, fourth, made⟩ := List.map_eq_cons_iff.mp made
  obtain rfl := List.map_eq_nil_iff.mp made
  simp only [List.map_cons, List.map_nil, path_of_chart first.symm, path_of_chart second.symm,
    path_of_chart third.symm, path_of_chart fourth.symm]
  rfl

/-- Charts that are made account for the lines. -/
theorem exists_account (lawful : L.Lawful) (read : ReadAs rows r lines)
    (keyed : L.Keyed (lines.map Line.folder)) (binary64 : ∀ v ∈ lines.map Line.folder, v.IsBinary64)
    {overall panelCharts : List L.Plot}
    (summaries : solverCharts r (lines.map Line.solver) out = overall.map .ok)
    (made : (L.unique (lines.map Line.folder)).map
      (folderChart r (lines.map Line.solver) (lines.map Line.folder) out) = panelCharts.map .ok) :
    ∃ panels, panels.map Panel.chart = panelCharts ∧ Account r lines out overall panels := by
  obtain ⟨panels, keys, charts, each⟩ := exists_panels lawful read made
  have paths := paths_solverCharts summaries
  have shows (p : Panel L) (mem : p ∈ panels) : p.Shows r out := (each p mem).1
  refine ⟨panels, charts, paths, keys, shows, fun p mem => (each p mem).2, ?_, fun alike => ?_⟩
  · have selected := keyed.flatMap_unique_perm
    rw [← keys, List.flatMap_map] at selected
    exact (List.Perm.flatMap_left panels fun p mem => (each p mem).2).trans selected
  · have panelPaths : (panels.map Panel.chart).map BarChart.path =
        ((L.unique (lines.map Line.folder)).map folderName).map (Disk.join out) := by
      simp only [← keys, List.map_map]
      exact List.map_congr_left fun p mem => (shows p mem).path
    have names := keyed.nodup_names alike binary64
    simp only [List.map_append, paths, panelPaths]
    rw [← List.map_append]
    exact (nodup_chartNames names).map (Disk.join_injective out)

end Making

end Backjump.Chart
