import Backjump.Chart.Rehearsal.Amounts
import Backjump.Proofs.Binary64
import Backjump.Proofs.Binary64.Scan
import Backjump.Proofs.Chart.Table

/-! The numbers of columns. Numbers with fixed places are read as real numbers, what is not a number
included, unless there are none: a column without cells is one of whole numbers. Differences can be
taken of both, and raising keeps them so. -/
namespace Backjump.Chart.Rehearsal

open Binary64 (AllDigits)

variable {cell : String} {cells : List String} {a b c : Amounts}

section Fixed

theorem looksReal_digits {digits : List Char} (all : AllDigits digits) (seen : Bool) (rest : List Char) :
    looksReal seen (digits ++ '.' :: rest) = true := by
  induction digits generalizing seen with
  | nil => simp [looksReal]
  | cons c digits ih =>
    have digit := all c List.mem_cons_self
    have later := ih fun d mem => all d (List.mem_cons_of_mem c mem)
    rw [List.cons_append, looksReal]
    cases seen <;> simp [digit, later]

/-- A number with fixed places has a point, unless it is infinite or none. -/
theorem looksReal_or_of_isFixed (fixed : IsFixed cell) :
    looksReal false cell.toList = true ∨ cell = "inf" ∨ cell = "-inf" ∨ cell = "nan" := by
  obtain ⟨x, places, some, rfl⟩ := fixed
  cases x with
  | finite negative units =>
    obtain ⟨whole, fraction, ⟨-, digits⟩, -, text⟩ := Binary64.toList_fixed some negative units
    left
    rw [text]
    cases negative with
    | true => exact looksReal_digits digits false fraction
    | false => exact looksReal_digits digits false fraction
  | infinite negative => cases negative <;> simp [Binary64.fixed]
  | nan => simp [Binary64.fixed]

variable (fixed : IsFixed cell) (there : isMissingWord cell = false)
include fixed there

theorem isSome_scan?_of_isFixed : (Binary64.scan? cell).isSome = true := by
  obtain ⟨x, places, some, rfl⟩ := fixed
  refine Option.isSome_iff_exists.mpr (Binary64.exists_scan?_fixed some ?_)
  rintro rfl
  have word : isMissingWord "nan" = true := by decide
  exact absurd (word.symm.trans there) (by decide)

theorem signed64_of_isFixed (pointless : looksReal false cell.toList = false) :
    signed64 cell = .error .malformed := by
  rcases looksReal_or_of_isFixed fixed with pointed | rfl | rfl | rfl
  · exact absurd (pointless.symm.trans pointed) (by decide)
  · decide +kernel
  · decide +kernel
  · exact absurd there (by decide)

end Fixed

/-- Numbers with fixed places are read as real numbers, if there is a cell at all. -/
theorem ofCells_of_isFixed (fixed : ∀ cell ∈ cells, IsFixed cell) (some : cells ≠ []) :
    ColumnType.ofCells cells = .reals ∨ ColumnType.ofCells cells = .gapped := by
  generalize filled_eq : (cells.filter fun c => !isMissingWord c) = filled
  have each (c : String) (mem : c ∈ filled) : IsFixed c ∧ isMissingWord c = false := by
    obtain ⟨listed, there⟩ := List.mem_filter.mp (filled_eq ▸ mem)
    exact ⟨fixed c listed, by simpa using there⟩
  have mixed : ColumnType.ofMixed filled = .reals := by
    have all : filled.all (fun c => (Binary64.scan? c).isSome) = true :=
      List.all_eq_true.mpr fun c mem => isSome_scan?_of_isFixed (each c mem).1 (each c mem).2
    rw [ColumnType.ofMixed, if_pos all]
  by_cases pointed : filled.any (fun c => looksReal false c.toList) = true
  · left
    simp only [ColumnType.ofCells, filled_eq, pointed, if_true, mixed]
  · cases filled with
    | nil =>
      have incomplete : (0 == cells.length) = false :=
        beq_eq_false_iff_ne.mpr fun same => some (List.length_eq_zero_iff.mp same.symm)
      right
      simp only [ColumnType.ofCells, filled_eq, List.length_nil, incomplete]
      rfl
    | cons c rest =>
      have here : c ∈ c :: rest := List.mem_cons_self
      have pointless : looksReal false c.toList = false := by
        simpa using List.any_eq_false.mp (Bool.not_eq_true _ ▸ pointed) c here
      have malformed : (c :: rest).mapM signed64 = .error .malformed := by
        rw [List.mapM_cons, signed64_of_isFixed (each c here).1 (each c here).2 pointless]
        rfl
      left
      simp only [ColumnType.ofCells, filled_eq, if_neg pointed, malformed, mixed]

namespace Amounts

/-- Forms of numbers of which differences can be taken. -/
def Plain (form : Form) : Prop := form = .real ∨ form = .signed

theorem exists_ofColumn_of_isFixed (fixed : ∀ cell ∈ cells, IsFixed cell) :
    ∃ a, ofColumn (.ofCells cells) = .ok a ∧ Plain a.form := by
  by_cases none : cells = []
  · subst none
    exact ⟨_, rfl, .inr rfl⟩
  · rcases ofCells_of_isFixed fixed none with type | type
    · exact ⟨⟨.real, (Column.ofCells cells).values.map number⟩,
        by simp only [ofColumn, Column.ofCells, type], .inl rfl⟩
    · exact ⟨⟨.real, (Column.ofCells cells).values.map number⟩,
        by simp only [ofColumn, Column.ofCells, type], .inl rfl⟩

theorem plain_raisedTo (plain : Plain a.form) (bound : Binary64) : Plain (a.raisedTo bound).form := by
  unfold raisedTo
  split
  · exact plain
  · rcases plain with real | signed
    · rw [real]
      exact .inl rfl
    · rw [signed]
      exact .inl rfl

theorem exists_difference (plain : Plain a.form) (plain' : Plain b.form) : ∃ c, difference a b = .ok c := by
  unfold difference
  rcases plain with form | form <;> rcases plain' with form' | form' <;> rw [form, form'] <;> exact ⟨_, rfl⟩

theorem length_raisedTo (bound : Binary64) (a : Amounts) :
    (a.raisedTo bound).entries.length = a.entries.length := by
  unfold raisedTo
  split
  · rfl
  · cases a.form <;> simp

theorem length_withoutNegative (a : Amounts) : a.withoutNegative.entries.length = a.entries.length := by
  simp [withoutNegative]

theorem length_difference (taken : difference a b = .ok c) (even : a.entries.length = b.entries.length) :
    c.entries.length = a.entries.length := by
  unfold difference at taken
  split at taken
  · contradiction
  · cases taken
    simp only [List.length_zipWith, even, Nat.min_self]

/-- There is one number for each value. -/
theorem length_ofColumn {column : Column} (read : ofColumn column = .ok a) :
    a.entries.length = column.values.length := by
  unfold ofColumn at read
  dsimp only at read
  split at read
  · cases read
    simp
  · cases read
    simp
  · split at read <;> cases read <;> simp
  · split at read
    · cases read
      simp
    · contradiction
  · cases read
    simp

end Amounts

end Backjump.Chart.Rehearsal
