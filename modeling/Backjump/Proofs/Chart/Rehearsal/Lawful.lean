import Backjump.Chart.Rehearsal
import Backjump.Proofs.Chart.Rehearsal.Amounts
import Backjump.Proofs.Chart.Rehearsal.Column
import Backjump.Proofs.Chart.Rehearsal.Table

/-! A library to rehearse with keeps the laws that charts rely on. -/
namespace Backjump.Chart.Rehearsal

theorem read_resultText (rows : List ResultRow) :
    read (resultText rows) = .ok fun name => ((resultTable rows).column? name).map .ofCells := by
  rw [read, ofText_resultText]

theorem keyed (values : List Value) : rehearsal.Keyed values where
  equal_self v _ := same_self v
  equal_comm v _ w _ := same_comm v w
  equal_trans _ _ _ _ _ _ := same_trans
  mem_of_mem_unique _ := mem_of_mem_distinct
  apart := (apart_distinct values).imp fun apart => Bool.or_eq_false_iff.mp apart
  covers v mem := by
    obtain ⟨w, listed, stands⟩ := exists_standsFor mem
    refine ⟨w, listed, ?_⟩
    rcases Bool.or_eq_true _ _ ▸ stands with equal | missing
    · exact .inl ((same_comm v w).trans equal)
    · exact .inr (Bool.and_eq_true _ _ ▸ missing).symm

/-- A column holds what its cells are read as. -/
theorem holds_ofCells (cells : List String) : rehearsal.Holds cells (.ofCells cells) where
  missing := by
    refine List.forall₂_map_right_iff.mpr (List.forall₂_same.mpr fun cell mem missing => ?_)
    have word := isMissingWord_of_isMissing mem missing
    rwa [untilNul_of_isMissingWord word]
  binary64 v mem := by
    obtain ⟨cell, -, rfl⟩ := List.mem_map.mp mem
    exact (fits_value _ cell).isBinary64
  keyed := keyed _
  length_numbers numbers := Amounts.length_ofColumn (of_mapError numbers)

theorem map_column?_resultTable (rows : List ResultRow) {name : String} (listed : name ∈ Benchmark.columns) :
    ((resultTable rows).column? name).map Column.ofCells = some (.ofCells (rows.map (·.cell name))) := by
  rw [column?_resultTable rows listed, Option.map_some]

end Rehearsal

open Rehearsal

theorem rehearsal_lawful : rehearsal.Lawful where
  reads rows := by
    refine ⟨_, read_resultText rows, fun name listed => ?_⟩
    exact ⟨_, map_column?_resultTable rows listed, holds_ofCells _⟩
  sort_perm form key rows := List.mergeSort_perm rows _
  length_raise bound s := by
    cases bound with
    | whole n => exact Amounts.length_withoutNegative s
    | real x => exact Amounts.length_raisedTo x s
  length_minus taken even := Amounts.length_difference (of_mapError taken) even

/-- Rehearsals can take differences of real numbers and of whole ones with a sign. -/
theorem rehearsal_computes : rehearsal.Computes Amounts.Plain where
  reads read name listed found fixed := by
    cases (read_resultText _).symm.trans read
    cases (map_column?_resultTable _ listed).symm.trans found
    obtain ⟨s, numbers, plain⟩ := Amounts.exists_ofColumn_of_isFixed (List.forall_mem_map.mpr fixed)
    exact ⟨s, congrArg (Except.mapError Fault.amount) numbers, plain⟩
  aggregate plain statistic groups := by
    cases statistic with
    | average => exact .inl rfl
    | least | greatest => exact plain
  raise plain bound := by
    cases bound with
    | whole n => exact plain
    | real x => exact Amounts.plain_raisedTo plain x
  minus plain plain' := by
    obtain ⟨c, taken⟩ := Amounts.exists_difference plain plain'
    exact ⟨c, congrArg (Except.mapError Fault.amount) taken⟩

end Backjump.Chart
