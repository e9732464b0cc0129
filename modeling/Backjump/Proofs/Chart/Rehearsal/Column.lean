import Backjump.Chart.Rehearsal.Column
import Backjump.Proofs.Binary64.Scan
import Backjump.Proofs.Chart.Name
import Backjump.Proofs.Traversal
import Mathlib.Data.List.Induction

/-! The values of a column. A column is read as a type that every cell with a value in it can be
read as, so a value is missing only where a missing word stands. Equality leaves out what is
missing, and the different values are found in order of first appearance. -/
namespace Backjump

namespace Binary64

theorem isNumber_ofInt (n : Int) : (ofInt n).IsNumber := by
  rw [ofInt, ofRatio]
  exact isNumber_ofQuotient (by decide) _ _

theorem IsNumber.isNan_eq_false {x : Binary64} (number : x.IsNumber) : x.isNan = false := by
  cases number <;> rfl

theorem equal_comm (x y : Binary64) : x.equal y = y.equal x := by
  simp only [equal, Bool.and_assoc, Bool.and_comm, Bool.and_left_comm]

theorem equal_self (x : Binary64) : x.equal x = !x.isNan := by
  cases x with
  | finite => simp [equal, isNan, lt]
  | infinite => simp [equal, isNan, lt]
  | nan => rfl

theorem equal_trans {x y z : Binary64} (first : x.equal y = true) (second : y.equal z = true) :
    x.equal z = true := by
  cases x <;> cases y <;> cases z <;> simp_all [equal, lt, isNan]
  · omega
  · grind

end Binary64

namespace Chart.Rehearsal

variable {type : ColumnType} {cell : String} {cells filled : List String} {u v w : Value} {values : List Value}

section Reading

/-- What a column of a type can hold. -/
inductive Fits : ColumnType → Value → Prop where
  | missing {type : ColumnType} (other : type ≠ .verbatim) : Fits type .missing
  | signed {n : Int} : Fits .signed (.integer n)
  | unsigned {n : Int} : Fits .unsigned (.integer n)
  | large {n : Int} : Fits .large (.integer n)
  | gapped {x : Binary64} (number : x.IsNumber) : Fits .gapped (.real x)
  | reals {x : Binary64} (number : x.IsNumber) : Fits .reals (.real x)
  | truths {b : Bool} : Fits .truths (.truth b)
  | texts {s : String} (there : isMissingWord s = false) : Fits .texts (.text s)
  | verbatim {s : String} : Fits .verbatim (.text s)

theorem fits_value (type : ColumnType) (cell : String) : Fits type (type.value cell) := by
  unfold ColumnType.value
  split
  · subst_vars
    exact .verbatim
  split
  · exact .missing ‹_›
  · cases type with
    | signed => cases (signed64 cell).toOption with | none => exact .missing ‹_› | some => exact .signed
    | gapped =>
      cases (signed64 cell).toOption with
      | none => exact .missing ‹_›
      | some n => exact .gapped (Binary64.isNumber_ofInt n)
    | unsigned =>
      cases (unsigned64 cell).toOption.join with | none => exact .missing ‹_› | some => exact .unsigned
    | large => cases anyInteger? cell with | none => exact .missing ‹_› | some => exact .large
    | reals =>
      cases read : Binary64.scan? cell with
      | none => exact .missing ‹_›
      | some x => exact .reals (Binary64.isNumber_scan? read)
    | truths => cases truth? cell with | none => exact .missing ‹_› | some => exact .truths
    | texts => exact .texts (Bool.not_eq_true _ ▸ ‹_›)
    | verbatim => exact .verbatim

theorem Fits.isBinary64 (fits : Fits type v) : v.IsBinary64 := by
  intro x real
  cases fits with
  | gapped number | reals number =>
    cases real
    exact .inl number
  | _ => contradiction

theorem Fits.sameKind (fits : Fits type v) (fits' : Fits type w) (present : v.isMissing = false)
    (present' : w.isMissing = false) : v.SameKind w := by
  cases fits with
  | missing => contradiction
  | _ =>
    cases fits' with
    | missing => contradiction
    | _ => trivial

/-- Where a text is named like a missing value, the column is taken as it stands. -/
theorem Fits.isMissing_eq_false (fits : Fits type (.text "nan")) (fits' : Fits type v) :
    v.isMissing = false := by
  cases fits with
  | texts there => exact absurd there (by decide)
  | verbatim =>
    cases fits' with
    | missing other => contradiction
    | verbatim => rfl

/-- A column has one type, so its values are alike. -/
theorem alike_ofCells (cells : List String) : Alike (Column.ofCells cells).values where
  kinds := by
    simp only [Column.ofCells, List.forall_mem_map]
    intro cell _ cell' _ present present'
    exact (fits_value _ cell).sameKind (fits_value _ cell') present present'
  words listed := by
    obtain ⟨cell, -, word⟩ := List.mem_map.mp listed
    have fits := word ▸ fits_value (.ofCells cells) cell
    exact List.forall_mem_map.mpr fun cell' _ => fits.isMissing_eq_false (fits_value _ cell')

/-- Whether a cell is one of a type. -/
def Reads : ColumnType → String → Prop
  | .signed, cell | .gapped, cell => ∃ n, signed64 cell = .ok n
  | .unsigned, cell => ∃ n, unsigned64 cell = .ok (some n)
  | .large, cell => ∃ n, anyInteger? cell = some n
  | .reals, cell => ∃ x, Binary64.scan? cell = some x
  | .truths, cell => ∃ b, truth? cell = some b
  | .texts, _ | .verbatim, _ => True

theorem reads_ofMixed (mem : cell ∈ filled) : Reads (.ofMixed filled) cell := by
  unfold ColumnType.ofMixed
  split
  · rename_i all
    exact Option.isSome_iff_exists.mp (List.all_eq_true.mp all cell mem)
  split
  · rename_i all
    exact Option.isSome_iff_exists.mp (List.all_eq_true.mp all cell mem)
  · trivial

theorem reads_ofLarge (mem : cell ∈ filled) : Reads (.ofLarge filled) cell := by
  unfold ColumnType.ofLarge
  split
  · rename_i all
    exact Option.isSome_iff_exists.mp (List.all_eq_true.mp all cell mem)
  · trivial

theorem reads_ofUnsigned (mem : cell ∈ filled) (complete : Bool) :
    Reads (.ofUnsigned filled complete) cell := by
  unfold ColumnType.ofUnsigned
  split
  · exact reads_ofMixed mem
  · exact reads_ofLarge mem
  · rename_i numbers answered
    dsimp only
    split
    · trivial
    split
    · exact reads_ofLarge mem
    · rename_i signless
      obtain ⟨n, listed, read⟩ := exists_mem_of_mapM answered mem
      cases n with
      | none => exact absurd (List.contains_iff_mem.mpr listed) signless
      | some n => exact ⟨n, read⟩

/-- A column is read as a type of which every cell is that holds a value. -/
theorem reads_ofCells (mem : cell ∈ cells) (there : isMissingWord cell = false) :
    Reads (.ofCells cells) cell := by
  have kept : cell ∈ cells.filter fun c => !isMissingWord c :=
    List.mem_filter.mpr ⟨mem, by simp [there]⟩
  unfold ColumnType.ofCells
  dsimp only
  split
  · exact reads_ofMixed kept
  split
  · rename_i numbers answered
    obtain ⟨n, -, read⟩ := exists_mem_of_mapM answered kept
    split <;> exact ⟨n, read⟩
  · exact reads_ofMixed kept
  · exact reads_ofUnsigned kept _

/-- Only a missing word gives a missing value. -/
theorem isMissingWord_of_isMissing (mem : cell ∈ cells)
    (missing : ((ColumnType.ofCells cells).value cell).isMissing = true) : isMissingWord cell = true := by
  by_contra there
  rw [Bool.not_eq_true] at there
  have reads := reads_ofCells mem there
  generalize ColumnType.ofCells cells = type at reads missing
  cases type with
  | texts | verbatim => simp [ColumnType.value, there, Value.isMissing] at missing
  | signed | unsigned | large | truths =>
    obtain ⟨n, read⟩ := reads
    simp [ColumnType.value, there, read, Except.toOption, Value.isMissing] at missing
  | gapped =>
    obtain ⟨n, read⟩ := reads
    have number := (Binary64.isNumber_ofInt n).isNan_eq_false
    simp [ColumnType.value, there, read, Except.toOption, Value.isMissing, number] at missing
  | reals =>
    obtain ⟨x, read⟩ := reads
    have number := (Binary64.isNumber_scan? read).isNan_eq_false
    simp [ColumnType.value, there, read, Value.isMissing, number] at missing

/-- No missing word is cut short. -/
theorem untilNul_of_isMissingWord (word : isMissingWord cell = true) : untilNul cell = cell := by
  have table : ∀ word ∈ missingWords, untilNul word = word := by decide +kernel
  exact table cell (List.contains_iff_mem.mp word)

end Reading

section Equality

theorem same_comm (v w : Value) : same v w = same w v := by
  cases v with
  | real x =>
    cases w with
    | real y => exact Binary64.equal_comm x y
    | _ => rfl
  | _ => cases w <;> first | rfl | exact BEq.comm

theorem same_self (v : Value) : same v v = !v.isMissing := by
  cases v with
  | missing => rfl
  | real x => exact Binary64.equal_self x
  | _ => simp [same, Value.isMissing]

theorem same_trans (first : same u v = true) (second : same v w = true) : same u w = true := by
  cases u with
  | missing => contradiction
  | real x =>
    cases v with
    | real y =>
      cases w with
      | real z => exact Binary64.equal_trans first second
      | _ => contradiction
    | _ => contradiction
  | _ => cases v <;> cases w <;> simp_all [same]

/-- The value stands for another: it equals it, or both are missing. -/
def standsFor (w v : Value) : Bool := same w v || w.isMissing && v.isMissing

theorem standsFor_self (v : Value) : standsFor v v = true := by
  cases missing : v.isMissing <;> simp [standsFor, same_self, missing]

theorem distinct_concat (values : List Value) (v : Value) : distinct (values ++ [v]) =
    if (distinct values).any (standsFor · v) then distinct values else distinct values ++ [v] := by
  rw [distinct, List.foldl_append]
  rfl

theorem mem_of_mem_distinct (mem : v ∈ distinct values) : v ∈ values := by
  induction values using List.reverseRecOn with
  | nil => exact mem
  | append_singleton values last ih =>
    rw [distinct_concat] at mem
    split at mem
    · exact List.mem_append_left _ (ih mem)
    · rcases List.mem_append.mp mem with before | here
      · exact List.mem_append_left _ (ih before)
      · exact List.mem_append_right _ here

theorem apart_distinct (values : List Value) :
    (distinct values).Pairwise fun v w => standsFor v w = false := by
  induction values using List.reverseRecOn with
  | nil => exact .nil
  | append_singleton values last ih =>
    rw [distinct_concat]
    split
    · exact ih
    · rename_i new
      refine List.pairwise_append.mpr ⟨ih, List.pairwise_singleton _ _, fun v mem w here => ?_⟩
      obtain rfl := List.mem_singleton.mp here
      simpa using List.any_eq_false.mp (Bool.not_eq_true _ ▸ new) v mem

theorem exists_standsFor (mem : v ∈ values) : ∃ w ∈ distinct values, standsFor w v = true := by
  induction values using List.reverseRecOn with
  | nil => contradiction
  | append_singleton values last ih =>
    rw [distinct_concat]
    rcases List.mem_append.mp mem with before | here
    · obtain ⟨w, listed, stands⟩ := ih before
      split
      · exact ⟨w, listed, stands⟩
      · exact ⟨w, List.mem_append_left _ listed, stands⟩
    · obtain rfl := List.mem_singleton.mp here
      split
      · rename_i old
        exact List.any_eq_true.mp old
      · exact ⟨v, List.mem_append_right _ (List.mem_singleton_self v), standsFor_self v⟩

end Equality

end Chart.Rehearsal

end Backjump
