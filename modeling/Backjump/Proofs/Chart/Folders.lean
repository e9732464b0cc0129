import Backjump.Proofs.Chart.Drawing
import Backjump.Proofs.Chart.Rehearsal.Lawful

/-! The charts of the folders. Whatever a table of results holds, once its charts are drawn each
row has one bar in the chart of its folder, and none if its folder is missing. This rests on what charts
leave to a library no more than on its laws, and a library to rehearse with keeps them. -/
namespace Backjump.Chart

variable {L : Library} {rows : List ResultRow} {out : String} {d : Disk}

/-- The charts of a table of results, as it was read, account for its rows. -/
def AccountFor (rows : List ResultRow) (out : String) (charts : List L.Plot) : Prop :=
  ∃ table r lines overall panels, L.read (resultText rows) = .ok table ∧ Results.ofTable table = .ok r ∧
    ReadAs rows r lines ∧ Account r lines out overall panels ∧ charts = overall ++ panels.map Panel.chart

theorem accountFor_of_made {table : String → Option L.Column} {r : Results L} {lines : List (Line L)}
    {charts : List L.Plot} (lawful : L.Lawful) (read : L.read (resultText rows) = .ok table)
    (made : Results.ofTable table = .ok r) (ofRows : ReadAs rows r lines)
    (keyed : L.Keyed (lines.map Line.folder)) (binary64 : ∀ v ∈ lines.map Line.folder, v.IsBinary64)
    (all : allCharts r (lines.map Line.solver) (lines.map Line.folder) out = charts.map .ok) :
    AccountFor rows out charts := by
  obtain ⟨overall, rest, rfl, summaries, others⟩ := List.map_eq_append_iff.mp all.symm
  obtain ⟨panels, rfl, account⟩ := exists_account lawful ofRows keyed binary64 summaries.symm others.symm
  exact ⟨table, r, lines, overall, panels, read, made, ofRows, account, rfl⟩

section Drawing

variable {table : String → Option L.Column} {r : Results L} {lines : List (Line L)} {paths : List String}
  {charts : List L.Plot}

theorem drawResults_eq (read : L.read (resultText rows) = .ok table) (made : Results.ofTable table = .ok r)
    (ready : (d.makeDirectories out).1 = .ok ()) (ofRows : ReadAs rows r lines) :
    drawResults L d (resultText rows) out =
      (paintAll (allCharts r (lines.map Line.solver) (lines.map Line.folder) out) []).andThen fun _ painted =>
        (.ok (painted.map (·.path)), painted) := by
  simp only [drawResults, read, drawTable_eq made ready ofRows.solvers ofRows.folders]

/-- What a drawing leaves that comes to its end. -/
theorem accountFor_of_drawResults (lawful : L.Lawful)
    (drawn : drawResults L d (resultText rows) out = (.ok paths, charts)) :
    AccountFor rows out charts ∧ paths = charts.map BarChart.path ∧
      ∀ chart ∈ charts, L.paint chart = .ok () := by
  obtain ⟨table, read, -⟩ := lawful.reads rows
  have drawing : drawTable d table out = (.ok paths, charts) := by
    rw [drawResults, read] at drawn
    exact drawn
  obtain ⟨r, made, ready⟩ := exists_of_drawTable drawing
  obtain ⟨lines, ofRows, keyed, binary64⟩ := exists_lines lawful read made
  rw [drawResults_eq read made ready ofRows] at drawn
  generalize painting :
    paintAll (allCharts r (lines.map Line.solver) (lines.map Line.folder) out) [] = outcome at drawn
  obtain ⟨_ | _, painted⟩ := outcome
  · cases drawn
  · cases drawn
    obtain ⟨charts, all, rfl, accepted⟩ := exists_of_paintAll painting
    exact ⟨accountFor_of_made lawful read made ofRows keyed binary64 all, rfl, accepted⟩

/-- Of numbers with fixed places all charts are made. -/
theorem exists_drawn {Plain : L.Form → Prop} (lawful : L.Lawful) (computes : L.Computes Plain)
    (measured : ∀ row ∈ rows, row.Measured) (ready : (d.makeDirectories out).1 = .ok ()) :
    ∃ charts : List L.Plot, AccountFor rows out charts ∧
      Drawn charts (drawResults L d (resultText rows) out) := by
  obtain ⟨table, read, -⟩ := lawful.reads rows
  obtain ⟨r, made, differ⟩ := exists_results computes lawful measured read
  obtain ⟨lines, ofRows, keyed, binary64⟩ := exists_lines lawful read made
  obtain ⟨charts, all⟩ := exists_allCharts computes differ (lines.map Line.solver) (lines.map Line.folder) out
  refine ⟨charts, accountFor_of_made lawful read made ofRows keyed binary64 all, ?_⟩
  rw [drawResults_eq read made ready ofRows, all]
  exact drawn_of_made charts

/-- What a benchmark writes is drawn, with a solver named in each row. -/
theorem exists_drawn_tableText {Plain : L.Form → Prop} {cells : List (List Json)} (lawful : L.Lawful)
    (computes : L.Computes Plain) (each : ∀ row ∈ cells, IsRow row)
    (ready : (d.makeDirectories out).1 = .ok ()) :
    ∃ (rows : List ResultRow) (charts : List L.Plot), (∀ row ∈ rows, isMissingWord row.solver = false) ∧
      AccountFor rows out charts ∧ Drawn charts (drawResults L d (Benchmark.tableText cells) out) := by
  obtain ⟨rows, holds, text⟩ := exists_resultText each
  obtain ⟨charts, account, drawn⟩ := exists_drawn lawful computes (fun row mem => (holds row mem).1) ready
  exact ⟨rows, charts, fun row mem => (holds row mem).2, account, text ▸ drawn⟩

end Drawing

/-- Once the charts of a table are drawn, every row with a folder has its bar in the chart of that
folder and no other, a row without one has none, and each chart is put at a path of its own if the folders are
alike. Of numbers as a benchmark writes them all these charts are made, and painted up to the first that the
library refuses. -/
theorem folder_charts_account_for_rows (lawful : L.Lawful) (d : Disk) (rows : List ResultRow) (out : String) :
    (∀ paths charts, drawResults L d (resultText rows) out = (.ok paths, charts) →
      AccountFor rows out charts ∧ paths = charts.map BarChart.path ∧
        ∀ chart ∈ charts, L.paint chart = .ok ()) ∧
    ∀ Plain : L.Form → Prop, L.Computes Plain → (∀ row ∈ rows, row.Measured) →
      (d.makeDirectories out).1 = .ok () →
        ∃ charts : List L.Plot, AccountFor rows out charts ∧
          Drawn charts (drawResults L d (resultText rows) out) :=
  ⟨fun _ _ drawn => accountFor_of_drawResults lawful drawn, fun _ computes measured ready =>
    exists_drawn lawful computes measured ready⟩

/-- A rehearsal reads a column as one type, so it puts no two charts at one path. -/
theorem alike_folders_of_rehearsal {table : String → Option rehearsal.Column} {r : Results rehearsal}
    {lines : List (Line rehearsal)} (read : rehearsal.read (resultText rows) = .ok table)
    (made : Results.ofTable table = .ok r) (ofRows : ReadAs rows r lines) :
    Alike (lines.map Line.folder) := by
  cases (Rehearsal.read_resultText rows).symm.trans read
  obtain ⟨-, -, -, -, values⟩ := Results.of_ofTable made
  have column := Rehearsal.map_column?_resultTable rows (by decide : "folder" ∈ Benchmark.columns)
  rw [ofRows.folders, column] at values
  have same : lines.map Line.folder = _ := Option.some.inj values
  exact same ▸ Rehearsal.alike_ofCells _

/-! Rows that differ in their folders alone. -/
namespace Sample

def row (folder : String) : ResultRow :=
  ⟨"cdcl-ordered", folder, "0.020000", "0.010000", "0.040000", "120.00", "80.00", "200.00", "0", "0",
    "12.50", "8.00", "8.00", "4", "0"⟩

def bar : Rehearsal.Bar :=
  ⟨"cdcl-ordered", .ofDecimal false 2 (-2), .ofDecimal false 1 (-2), .ofDecimal false 4 (-2)⟩

theorem measured (folders : List String) : ∀ r ∈ folders.map row, r.Measured := by
  refine List.forall_mem_map.mpr fun folder _ => ?_
  simp only [ResultRow.Measured, drawnColumns, List.forall_mem_cons]
  exact ⟨⟨.ofDecimal false 2 (-2), 6, by decide, (by decide +kernel : "0.020000" = _)⟩,
    ⟨.ofDecimal false 1 (-2), 6, by decide, (by decide +kernel : "0.010000" = _)⟩,
    ⟨.ofDecimal false 4 (-2), 6, by decide, (by decide +kernel : "0.040000" = _)⟩,
    ⟨.ofDecimal false 120 0, 2, by decide, (by decide +kernel : "120.00" = _)⟩,
    ⟨.ofDecimal false 80 0, 2, by decide, (by decide +kernel : "80.00" = _)⟩,
    ⟨.ofDecimal false 200 0, 2, by decide, (by decide +kernel : "200.00" = _)⟩,
    ⟨.ofDecimal false 125 (-1), 2, by decide, (by decide +kernel : "12.50" = _)⟩,
    ⟨.ofDecimal false 8 0, 2, by decide, (by decide +kernel : "8.00" = _)⟩, List.forall_mem_nil _⟩

theorem ready : ((Disk.ofFiles []).makeDirectories "results").1 = .ok () := by
  have split : Disk.splitLast "results" = ("", "results") := by decide
  have checked : Disk.checkPath "results" = .ok () := by
    rw [Disk.checkPath_eq]
    decide +kernel
  have named : Disk.names "results" = ["results"] := by
    rw [Disk.names_eq]
    decide
  have missing : (Disk.ofFiles []).makeDirectory "results" = .ok ⟨(Disk.ofFiles []).files, [["results"]]⟩ := by
    rw [Disk.makeDirectory, bind_of_ok checked, named]
    decide +kernel
  rw [Disk.makeDirectories_eq split (by decide), Disk.ensureDirectory, missing]

/-- The table as a rehearsal reads it. -/
def table (folders : List String) (name : String) : Option Rehearsal.Column :=
  ((Rehearsal.resultTable (folders.map row)).column? name).map .ofCells

theorem read_resultText (folders : List String) :
    rehearsal.read (resultText (folders.map row)) = .ok (table folders) := Rehearsal.read_resultText _

/-- The charts that a rehearsal paints. -/
def charts? (folders : List String) : Option (List rehearsal.Plot) := do
  let r ← (Results.ofTable (L := rehearsal) (table folders)).toOption
  match paintAll (allCharts r (← r.solvers) (← r.folders) "results") [] with
  | (.ok (), painted) => some painted
  | (.error _, _) => none

theorem drawn_of_charts? {folders : List String} {charts : List rehearsal.Plot}
    (painted : charts? folders = some charts) :
    drawResults rehearsal (.ofFiles []) (resultText (folders.map row)) "results" =
      (.ok (charts.map BarChart.path), charts) := by
  obtain ⟨r, found, painted⟩ := Option.bind_eq_some_iff.mp painted
  obtain ⟨solvers, hasSolvers, painted⟩ := Option.bind_eq_some_iff.mp painted
  obtain ⟨keys, hasFolders, painted⟩ := Option.bind_eq_some_iff.mp painted
  have made : Results.ofTable (L := rehearsal) (table folders) = .ok r := by
    cases outcome : Results.ofTable (L := rehearsal) (table folders) with
    | error fault => simp [outcome, Except.toOption] at found
    | ok r' => simpa [outcome, Except.toOption] using found
  simp only [drawResults, read_resultText, drawTable_eq made ready hasSolvers hasFolders]
  generalize paintAll _ [] = outcome at painted
  obtain ⟨_ | _, before⟩ := outcome
  · contradiction
  · cases painted
    rfl

end Sample

theorem folder_charts_account_for_rows_of_sample : ∃ charts : List rehearsal.Plot,
    drawResults rehearsal (.ofFiles []) (resultText (["uf20", "NA"].map Sample.row)) "results" =
      (.ok (charts.map BarChart.path), charts) ∧
    AccountFor (["uf20", "NA"].map Sample.row) "results" charts ∧
    (charts.drop 4).map Rehearsal.bars = [[Sample.bar], []] ∧ (charts.map BarChart.path).Nodup := by
  have computed : (Sample.charts? ["uf20", "NA"]).map (fun charts => (charts.drop 4).map Rehearsal.bars) =
      some [[Sample.bar], []] := by decide +kernel
  obtain ⟨charts, painted, bars⟩ := Option.map_eq_some_iff.mp computed
  have drawn := Sample.drawn_of_charts? painted
  obtain ⟨accounts, made⟩ := folder_charts_account_for_rows rehearsal_lawful (.ofFiles [])
    (["uf20", "NA"].map Sample.row) "results"
  obtain ⟨charts, account, ending⟩ := made Rehearsal.Amounts.Plain rehearsal_computes
    (Sample.measured ["uf20", "NA"]) Sample.ready
  rw [drawn] at ending
  obtain rfl := ending.eq_of_ok
  refine ⟨_, drawn, (accounts _ _ drawn).1, bars, ?_⟩
  obtain ⟨table, r, lines, overall, panels, read, made, ofRows, account, rfl⟩ := account
  exact account.distinct (alike_folders_of_rehearsal read made ofRows)

/-- A row whose folder has a missing word for a name is in no chart: the one that is drawn for it
has no bars. -/
theorem row_without_folder_lost : ∃ (overall : List rehearsal.Plot) (chart : rehearsal.Plot),
    drawResults rehearsal (.ofFiles []) (resultText (["NA"].map Sample.row)) "results" =
      (.ok ((overall ++ [chart]).map BarChart.path), overall ++ [chart]) ∧
    overall.map BarChart.path = summaryNames.map (Disk.join "results") ∧
    chart.path = "results/avg_time_nan_log.png" ∧ Rehearsal.bars chart = [] := by
  have computed : (Sample.charts? ["NA"]).map (fun charts => ((charts.take 4).map BarChart.path,
      (charts.drop 4).map fun chart => (chart.path, Rehearsal.bars chart))) =
        some (summaryNames.map (Disk.join "results"), [("results/avg_time_nan_log.png", [])]) := by
    decide +kernel
  obtain ⟨charts, painted, parts⟩ := Option.map_eq_some_iff.mp computed
  obtain ⟨paths, others⟩ := Prod.mk.inj parts
  obtain ⟨chart, last, shown⟩ := List.map_eq_singleton_iff.mp others
  obtain ⟨path, bars⟩ := Prod.mk.inj shown
  have split : charts.take 4 ++ ([chart] : List rehearsal.Plot) = charts :=
    last ▸ List.take_append_drop 4 charts
  refine ⟨charts.take 4, chart, ?_, paths, path, bars⟩
  rw [split]
  exact Sample.drawn_of_charts? painted

end Backjump.Chart
