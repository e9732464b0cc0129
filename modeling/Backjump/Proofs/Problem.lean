import Backjump.Proofs.FirstOccurrence
import Backjump.Proofs.Traversal
import Backjump.Solver

/-! Problems and their models. A problem is a list of clauses, each a list of
literals as a caller writes them: empty clauses, repeated clauses, repeated
literals and both polarities of a variable are all allowed. An interpretation
gives every variable a value. A solver is fresh for a problem when it was made
from clauses that denote it, or from a formula with its clauses. -/
namespace Backjump

/-- A value for every variable. -/
abbrev Interpretation := Symbol → Bool

namespace Literal

def TrueIn (l : Literal) (m : Interpretation) : Prop := m l.symbol = l.positive

instance (l : Literal) (m : Interpretation) : Decidable (l.TrueIn m) :=
  inferInstanceAs (Decidable (_ = _))

@[simp] theorem trueIn_negate {l : Literal} {m : Interpretation} :
    l.negate.TrueIn m ↔ ¬l.TrueIn m := by
  simp [TrueIn, negate, Bool.eq_not]

end Literal

def Clause.TrueIn (c : Clause) (m : Interpretation) : Prop := ∃ l ∈ c.literals, l.TrueIn m

def Formula.TrueIn (f : Formula) (m : Interpretation) : Prop := ∀ c ∈ f.clauses, c.TrueIn m

abbrev Problem := List (List Literal)

namespace Problem

def Models (p : Problem) (m : Interpretation) : Prop := ∀ c ∈ p, ∃ l ∈ c, l.TrueIn m

/-- The variables, each once, in order of first appearance. -/
def symbols (p : Problem) : List Symbol := (p.flatMap (·.map Literal.symbol)).eraseDups

/-- The problem in numbered variables; zeros stand for nothing. -/
def ofInts (clauses : List (List Int)) : Problem := clauses.map (·.filterMap Literal.ofInt?)

/-- All clauses over two variables: one of them is false, whatever the values. -/
def allPairs : Problem := ofInts [[1, 2], [-1, 2], [1, -2], [-1, -2]]

/-- After 1 and then 2 are decided, 2 makes 3 true and 3 alone leads into the conflict. -/
def funnel : Problem := ofInts [[1, 2], [-2, 3], [-3, 4], [-3, 5], [-1, -4, -5]]

end Problem

namespace Clause

/-- The literal that an item stands for: itself, or the one that a non-zero integer numbers. -/
def Item.literal? : Item → Option Literal
  | .literal l => some l
  | .integer n => Literal.ofInt? n
  | .other _ => none

theorem Item.read_eq_ok {item : Item} {l : Literal} (h : item.literal? = some l) :
    item.read = .ok l := by
  cases item with
  | literal l' => simpa [literal?, read] using h
  | integer n =>
    simp only [literal?] at h
    simp [read, ofNumber, h]
  | other kind => simp [literal?] at h

/-- The input is a sequence of items that stand for the literals. -/
def Input.Denotes (input : Input) (literals : List Literal) : Prop :=
  ∃ items, input = .ofItems items ∧ List.Forall₂ (fun item l => item.literal? = some l) items literals

theorem Input.read_eq_ok {input : Input} {literals : List Literal} (h : input.Denotes literals)
    (learned : Bool) : input.read learned = .ok (ofLiterals literals learned) := by
  obtain ⟨items, rfl, denoted⟩ := h
  have answered := mapM_eq_ok_of_forall₂ (denoted.imp fun _ _ => Item.read_eq_ok)
  simp [read, readWith, answered, Except.map]

end Clause

namespace Formula

/-- The formula's clauses are those of the problem without repeated literals. -/
def Renders (f : Formula) (p : Problem) : Prop :=
  List.Forall₂ (fun c ls => c.literals = ls.eraseDups) f.clauses p

/-- The formula of the problem, clause by clause. -/
def ofProblem (p : Problem) : Formula := ⟨p.map (Clause.ofLiterals · false)⟩

theorem renders_ofProblem (p : Problem) : (ofProblem p).Renders p := by
  rw [Renders, ofProblem, List.forall₂_map_left_iff, List.forall₂_same]
  exact fun _ _ => rfl

theorem exists_read {inputs : List Clause.Input} {p : Problem}
    (h : List.Forall₂ Clause.Input.Denotes inputs p) :
    ∃ f, read inputs = .ok f ∧ f.Renders p := by
  refine ⟨ofProblem p, ?_, renders_ofProblem p⟩
  have answered : inputs.mapM (·.read false) = .ok (p.map (Clause.ofLiterals · false)) := by
    apply mapM_eq_ok_of_forall₂
    rw [List.forall₂_map_right_iff]
    exact h.imp fun _ _ denoted => Clause.Input.read_eq_ok denoted false
  rw [read, readWith, answered]
  rfl

variable {f : Formula} {p : Problem}

theorem Renders.trueIn_iff (h : f.Renders p) (m : Interpretation) :
    f.TrueIn m ↔ p.Models m := by
  obtain ⟨clauses⟩ := f
  change List.Forall₂ _ clauses p at h
  simp only [TrueIn, Problem.Models]
  induction h with
  | nil => simp
  | @cons c literals _ _ head _ ih =>
    have same : c.TrueIn m ↔ ∃ l ∈ literals, l.TrueIn m := by simp [Clause.TrueIn, head]
    simp only [List.forall_mem_cons, same, ih]

theorem Renders.symbols_eq (h : f.Renders p) : f.symbols = p.symbols := by
  obtain ⟨clauses⟩ := f
  change List.Forall₂ _ clauses p at h
  simp only [symbols, Problem.symbols]
  induction h with
  | nil => rfl
  | cons head _ ih =>
    rw [List.flatMap_cons, List.flatMap_cons]
    apply eraseDups_append_congr _ ih
    rw [Clause.symbols, head, eraseDups_map_eraseDups]

theorem Renders.map_literals (h : f.Renders p) :
    f.clauses.map Clause.literals = p.map List.eraseDups := by
  obtain ⟨clauses⟩ := f
  change List.Forall₂ _ clauses p at h
  induction h with
  | nil => rfl
  | cons head _ ih => exact congrArg₂ List.cons head ih

theorem Renders.exists_clause (renders : f.Renders p) {ls : List Literal} (listed : ls ∈ p) :
    ∃ c ∈ f.clauses, c.literals = ls.eraseDups := by
  have member : ls.eraseDups ∈ f.clauses.map Clause.literals := by
    rw [renders.map_literals]
    exact List.mem_map_of_mem listed
  exact List.mem_map.mp member

theorem Renders.exists_literals (renders : f.Renders p) {c : Clause} (member : c ∈ f.clauses) :
    ∃ ls ∈ p, c.literals = ls.eraseDups := by
  have listed : c.literals ∈ p.map List.eraseDups := by
    rw [← renders.map_literals]
    exact List.mem_map_of_mem member
  obtain ⟨ls, listed, same⟩ := List.mem_map.mp listed
  exact ⟨ls, listed, same.symm⟩

end Formula

namespace Solver

/-- A solver that has done nothing yet, for a problem given clause by clause or as a formula. -/
inductive Fresh (setup : Setup) (p : Problem) : Solver → Prop where
  | ofInputs {inputs : List Clause.Input} {s : Solver} :
      List.Forall₂ Clause.Input.Denotes inputs p →
      Solver.ofInputs (.ok setup) inputs = .ok s → Fresh setup p s
  | ofFormula {f : Formula} : f.Renders p → Fresh setup p (start setup f)

variable {setup : Setup} {p : Problem}

theorem Fresh.exists_start {s : Solver} (fresh : Fresh setup p s) :
    ∃ f, f.Renders p ∧ s = start setup f := by
  cases fresh with
  | @ofInputs inputs _ denoted made =>
    obtain ⟨f, answered, renders⟩ := Formula.exists_read denoted
    refine ⟨f, renders, ?_⟩
    simp only [Solver.ofInputs, answered, Except.ok.injEq] at made
    exact made.symm
  | @ofFormula f renders => exact ⟨f, renders, rfl⟩

theorem fresh_ofProblem (setup : Setup) (p : Problem) : Fresh setup p (start setup (.ofProblem p)) :=
  .ofFormula (Formula.renders_ofProblem p)

/-- Clauses of literals and of non-zero integers are never refused. -/
theorem exists_fresh_of_inputs (setup : Setup) {inputs : List Clause.Input}
    (denoted : List.Forall₂ Clause.Input.Denotes inputs p) :
    ∃ s, Solver.ofInputs (.ok setup) inputs = .ok s ∧ Fresh setup p s := by
  obtain ⟨f, answered, _⟩ := Formula.exists_read denoted
  have made : Solver.ofInputs (.ok setup) inputs = .ok (start setup f) := by
    simp only [Solver.ofInputs, answered]
  exact ⟨_, made, .ofInputs denoted made⟩

end Solver

end Backjump
