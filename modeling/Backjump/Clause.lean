import Backjump.Literal

/-! Clauses: disjunctions of literals in input order, each literal once. A
variable may occur with both polarities. Two clauses are the same constraint
when they have the same literals, in whatever order and whether learned or
not. The empty clause is false. -/
namespace Backjump

theorem nodup_eraseDups {α : Type u} [DecidableEq α] (xs : List α) : xs.eraseDups.Nodup := by
  induction h : xs.length using Nat.strongRecOn generalizing xs with
  | ind n ih =>
    cases xs with
    | nil => simp
    | cons x rest =>
      rw [List.eraseDups_cons, List.nodup_cons]
      refine ⟨by simp, ih _ ?_ _ rfl⟩
      have := List.length_filter_le (fun b => !b == x) rest
      simp only [List.length_cons] at h
      omega

theorem eraseDups_of_nodup {α : Type u} [DecidableEq α] {xs : List α} (h : xs.Nodup) :
    xs.eraseDups = xs := by
  induction xs with
  | nil => rfl
  | cons x rest ih =>
    rw [List.nodup_cons] at h
    have kept : rest.filter (fun b => !b == x) = rest :=
      List.filter_eq_self.mpr fun b hb => by simpa using fun e : b = x => h.1 (e ▸ hb)
    rw [List.eraseDups_cons, kept, ih h.2]

/-- `learned` marks clauses that conflict analysis derived. -/
structure Clause where
  literals : List Literal
  learned : Bool
  nodup : literals.Nodup
  deriving DecidableEq

namespace Clause

/-- Repeated literals are dropped, the first of each kept. -/
def ofLiterals (literals : List Literal) (learned : Bool) : Clause :=
  ⟨literals.eraseDups, learned, nodup_eraseDups literals⟩

def markLearned (c : Clause) : Clause := { c with learned := true }

/-- The variables of the literals in clause order; twice, if both polarities occur. -/
def symbols (c : Clause) : List Symbol := c.literals.map Literal.symbol

def size (c : Clause) : Nat := c.literals.length

def contains (c : Clause) (l : Literal) : Bool := c.literals.contains l

def isSatisfied (c : Clause) (v : Valuation) : Bool := c.literals.any (·.holds v)

/-- `none` for a satisfied clause, otherwise the literals still undecided: none
left means that the clause is false, one left means that it is forced. -/
def openLiterals? (c : Clause) (v : Valuation) : Option (List Literal) :=
  if c.isSatisfied v then none else some (c.literals.filter fun l => l.value v == none)

/-- The same literals, order and origin aside. -/
def sameLiterals (a b : Clause) : Bool :=
  a.literals.all b.contains && b.literals.all a.contains

def text (c : Clause) : String :=
  "(" ++ String.intercalate " ∨ " (c.literals.map Literal.text) ++ ")"

def description (c : Clause) : String :=
  "Clause([" ++ String.intercalate ", " (c.literals.map Literal.description) ++ "], learned=" ++
    Literal.truthText c.learned ++ ")"

@[simp] theorem literals_markLearned (c : Clause) : c.markLearned.literals = c.literals := rfl

theorem ofLiterals_of_nodup {literals : List Literal} (h : literals.Nodup) (learned : Bool) :
    (ofLiterals literals learned).literals = literals :=
  eraseDups_of_nodup h

end Clause

end Backjump
