import Backjump.Chart
import Backjump.Proofs.Binary64.Nearest
import Backjump.Proofs.Chart.Table
import Mathlib.Data.List.Perm.Basic

/-! What charts rely on. A table that was written is read back row by row, and only a missing
word gives a missing value. Within a column equality is an equivalence, but for what is missing: it equals
nothing, itself included. The different values stand for all, those that are missing for
each other. Sorting only moves rows, and computing leaves their number as it is. -/
namespace Backjump

/-- Selections that never overlap are together one selection. -/
theorem flatMap_filter_perm {α : Type u} {κ : Type v} {selects : κ → α → Bool} {keys : List κ}
    {xs : List α}
    (apart : keys.Pairwise fun j k => ∀ x ∈ xs, selects j x = true → selects k x = false) :
    (keys.flatMap fun key => xs.filter (selects key)).Perm
      (xs.filter fun x => keys.any fun key => selects key x) := by
  induction keys with
  | nil => simp
  | cons key keys ih =>
    obtain ⟨here, later⟩ := List.pairwise_cons.mp apart
    let picked := xs.filter fun x => (key :: keys).any fun key => selects key x
    have first : picked.filter (selects key) = xs.filter (selects key) := by
      simp only [picked, List.filter_filter]
      refine List.filter_congr fun x _ => ?_
      cases selected : selects key x <;> simp [selected]
    have others : (picked.filter fun x => !selects key x) =
        xs.filter fun x => keys.any fun key => selects key x := by
      simp only [picked, List.filter_filter]
      refine List.filter_congr fun x mem => ?_
      cases selected : selects key x with
      | false => simp [selected]
      | true =>
        have none : (keys.any fun key => selects key x) = false :=
          List.any_eq_false.mpr fun other listed => by simp [here other listed x mem selected]
        simp [selected, none]
    have rest : (xs.filter (selects key) ++ keys.flatMap fun key => xs.filter (selects key)).Perm
        (picked.filter (selects key) ++ picked.filter fun x => !selects key x) := by
      simp only [first, others]
      exact (ih later).append_left _
    exact rest.trans (List.filter_append_perm _ _)

namespace Chart

/-- A cell as a reader has it for whom texts end at a null character. -/
def untilNul (cell : String) : String := String.ofList (cell.toList.takeWhile (· != '\x00'))

/-- A real number is one of binary64. -/
def Value.IsBinary64 (v : Value) : Prop := ∀ x, v = real x → x.IsNumber ∨ x = .nan

namespace Library

/-- Equality among some values, and the different ones of them. -/
structure Keyed (L : Library) (values : List Value) : Prop where
  equal_self : ∀ v ∈ values, L.equal v v = !v.isMissing
  equal_comm : ∀ v ∈ values, ∀ w ∈ values, L.equal v w = L.equal w v
  equal_trans : ∀ u ∈ values, ∀ v ∈ values, ∀ w ∈ values,
    L.equal u v = true → L.equal v w = true → L.equal u w = true
  mem_of_mem_unique : ∀ v ∈ L.unique values, v ∈ values
  apart : (L.unique values).Pairwise fun v w => L.equal v w = false ∧ (v.isMissing && w.isMissing) = false
  covers : ∀ v ∈ values, ∃ w ∈ L.unique values, L.equal v w = true ∨ v.isMissing = true ∧ w.isMissing = true

/-- A column as it is read from cells: a value is missing only if its cell is a missing word. -/
structure Holds (L : Library) (cells : List String) (column : L.Column) : Prop where
  missing : List.Forall₂ (fun cell v => v.isMissing = true → isMissingWord (untilNul cell) = true)
    cells (L.values column)
  binary64 : ∀ v ∈ L.values column, v.IsBinary64
  keyed : L.Keyed (L.values column)
  length_numbers : ∀ {s}, L.numbers column = .ok s → s.entries.length = (L.values column).length

structure Lawful (L : Library) : Prop where
  /-- What was written is read, with the cells of each column under its name. -/
  reads : ∀ rows : List ResultRow, ∃ table, L.read (resultText rows) = .ok table ∧
    ∀ name ∈ Benchmark.columns, ∃ column, table name = some column ∧ L.Holds (rows.map (·.cell name)) column
  sort_perm : ∀ {α : Type} (form : L.Form) (key : α → L.Amount) (rows : List α),
    (L.sort form key rows).Perm rows
  length_raise : ∀ bound s, (L.raise bound s).entries.length = s.entries.length
  length_minus : ∀ {a b c}, L.minus a b = .ok c → a.entries.length = b.entries.length →
    c.entries.length = a.entries.length

/-- Forms of numbers of which differences can be taken. Numbers with fixed places are read in such
forms and stay in them. -/
structure Computes (L : Library) (Plain : L.Form → Prop) : Prop where
  reads : ∀ {rows : List ResultRow} {table column}, L.read (resultText rows) = .ok table →
    ∀ name ∈ Benchmark.columns, table name = some column → (∀ row ∈ rows, IsFixed (row.cell name)) →
      ∃ s, L.numbers column = .ok s ∧ Plain s.form
  aggregate : ∀ {form}, Plain form → ∀ statistic groups, Plain (L.aggregate statistic form groups).form
  raise : ∀ {s}, Plain s.form → ∀ bound, Plain (L.raise bound s).form
  minus : ∀ {a b}, Plain a.form → Plain b.form → ∃ c, L.minus a b = .ok c

theorem Holds.length_values {L : Library} {α : Type u} {rows : List α} {cell : α → String} {column : L.Column}
    (holds : L.Holds (rows.map cell) column) : rows.length = (L.values column).length := by
  simpa using holds.missing.length_eq

section Selection

variable {L : Library} {α : Type} {value : α → Value} {rows : List α}

/-- What is missing equals nothing. -/
theorem Keyed.isMissing_eq_false {values : List Value} {v w : Value} (keyed : L.Keyed values)
    (listed : v ∈ values) (listed' : w ∈ values) (equal : L.equal v w = true) : v.isMissing = false := by
  have back : L.equal w v = true := (keyed.equal_comm v listed w listed').symm.trans equal
  have self : L.equal v v = true := keyed.equal_trans v listed w listed' v listed equal back
  simpa [keyed.equal_self v listed] using self

variable (keyed : L.Keyed (rows.map value))
include keyed

/-- A value that is there equals one of the keys. -/
theorem Keyed.any_equal_unique {row : α} (mem : row ∈ rows) :
    (L.unique (rows.map value)).any (fun key => L.equal (value row) key) = !(value row).isMissing := by
  have listed := List.mem_map_of_mem (f := value) mem
  cases missing : (value row).isMissing with
  | true =>
    refine List.any_eq_false.mpr fun key among equal => ?_
    have present := keyed.isMissing_eq_false listed (keyed.mem_of_mem_unique key among) equal
    exact absurd (missing.symm.trans present) (by decide)
  | false =>
    obtain ⟨key, among, equal | ⟨absent, -⟩⟩ := keyed.covers _ listed
    · exact List.any_eq_true.mpr ⟨key, among, equal⟩
    · exact absurd (missing.symm.trans absent) (by decide)

/-- Every row whose value is there is picked by one key, and no other row is picked. -/
theorem Keyed.flatMap_unique_perm :
    ((L.unique (rows.map value)).flatMap fun key => rows.filter fun row => L.equal (value row) key).Perm
      (rows.filter fun row => !(value row).isMissing) := by
  have apart : (L.unique (rows.map value)).Pairwise fun first second => ∀ row ∈ rows,
      L.equal (value row) first = true → L.equal (value row) second = false := by
    refine keyed.apart.imp_of_mem fun {first second} among among' different row mem equal => ?_
    have listed := List.mem_map_of_mem (f := value) mem
    have listedFirst := keyed.mem_of_mem_unique first among
    have listedSecond := keyed.mem_of_mem_unique second among'
    have back : L.equal first (value row) = true := (keyed.equal_comm _ listed _ listedFirst).symm.trans equal
    by_contra also
    have same := keyed.equal_trans _ listedFirst _ listed _ listedSecond back (Bool.not_eq_false _ ▸ also)
    exact absurd (same.symm.trans different.1) (by decide)
  refine (flatMap_filter_perm apart).trans (.of_eq ?_)
  exact List.filter_congr fun row mem => keyed.any_equal_unique mem

end Selection

end Library

/-- What stands beside a key, of columns made from the same rows. -/
theorem pick_map {L : Library} {α β : Type} (rows : List α) (value : α → Value) (key : Value) (f : α → β) :
    pick L (rows.map value) key (rows.map f) = (rows.filter fun row => L.equal (value row) key).map f := by
  simp only [pick, List.zip_map', List.filter_map, List.map_map]
  rfl

end Chart

end Backjump
