import Backjump.Proofs.Search.Run

/-! Learning is never redundant. The clause of an analysis forces a literal at its
target, which lies below the level of the conflict, where no clause of the formula
is urgent. A clause with some of its literals only would be urgent there as well. So
the formula holds no such clause when the learned one is appended, and along a run
no learned clause is subsumed by an earlier one. -/
namespace Backjump

namespace Solver

/-- Behind the given clauses no clause has all literals of one before it. -/
structure Irredundant (s : Solver) (given : Nat) : Prop where
  inputSize : s.inputSize = given
  unsubsumed : Built (fun before c => given ≤ before.length → ∀ d ∈ before, ¬d.literals ⊆ c.literals)
    s.formula.clauses

end Solver

variable {setup : Setup} {f : Formula} {p : Problem} {s s' s₀ : Solver} {clash : Option Clash}
  {phase : Phase} {a : Analysis} {rest : List Literal} {c d : Clause} {v : Valuation} {l : Literal}
  {given : Nat}

/-- A learned clause leads to a conflict, whose clause is a part of the first. -/
def Problem.narrowing : Problem := ofInts [[-1, -2, 3], [-1, -2, -3], [-1, 2, 3], [-1, 2, -3]]

theorem Clause.sameLiterals_iff :
    c.sameLiterals d = true ↔ c.literals ⊆ d.literals ∧ d.literals ⊆ c.literals := by
  simp [sameLiterals, contains, List.subset_def]

/-- A clause with only some of the literals is falsified or forces the same literal. -/
theorem Clause.Forces.urgent_of_subset (forces : c.Forces v l) (subset : d.literals ⊆ c.literals) :
    d.Urgent v := by
  by_cases member : l ∈ d.literals
  · exact .inr ⟨l, member, forces.undecided, fun k listed => forces.others k (subset listed)⟩
  · refine .inl fun k listed => forces.others k (subset listed) ?_
    rintro rfl
    exact member listed

/-- No clause has only literals of the clause that an analysis answers. -/
theorem Searching.unsubsumed (searching : Searching setup f s clash) (positive : 0 < s.level)
    (explains : a.Explains s.formula s.trail.entries s.level rest) :
    ∀ d ∈ s.formula.clauses, ¬d.literals ⊆ a.clause.literals := by
  intro d member subset
  have distinct := searching.trail.distinct
  -- The search left the target by a decision, so no clause was urgent there.
  have calm := searching.settled a.target (explains.target_nonneg searching.layered.level_nonneg)
    (explains.target_lt distinct positive)
  exact calm d member ((explains.forces distinct positive).urgent_of_subset subset)

namespace Solver

/-- A transition keeps the clauses, or it appends the clause of an analysis. -/
theorem Transits.formula_cases (transits : s.Transits phase s') : s'.inputSize = s.inputSize ∧
    (s'.formula = s.formula ∨ 0 < s.level ∧ ∃ a rest,
      Analysis.Explains a s.formula s.trail.entries s.level rest ∧
      s'.formula.clauses = s.formula.clauses ++ [a.clause]) := by
  cases transits with
  | settled _ rounds | falsified _ rounds =>
    obtain ⟨_, _, _, _, rfl⟩ := rounds.frame
    exact ⟨rfl, .inl rfl⟩
  | returned _ positive _ explains =>
    exact ⟨rfl, .inr ⟨positive, _, _, explains, Searching.clauses_returned explains⟩⟩
  | unfinished | answered | refuted | analysed | decided => exact ⟨rfl, .inl rfl⟩

namespace Irredundant

theorem record (irredundant : s.Irredundant given) : s.record.Irredundant given := by
  unfold Solver.record
  split
  · exact ⟨irredundant.inputSize, irredundant.unsubsumed⟩
  · exact irredundant

theorem start (setup : Setup) (f : Formula) : (Solver.start setup f).Irredundant f.size := by
  refine record ⟨rfl, fun before c after split behind => ?_⟩
  have size := congrArg List.length split
  rw [List.length_append, List.length_cons] at size
  change f.size = _ at size
  omega

theorem step (irredundant : s.Irredundant given) (reached : Reached setup f s) :
    s.step.2.Irredundant given := by
  have steps := reached.step.1
  generalize s.step = outcome at steps ⊢
  cases steps with
  | halted | spent => exact irredundant
  | @moved phase s' _ _ transits =>
    obtain ⟨clash, searching, -⟩ := reached.stage.exists_searching
    obtain ⟨size, kept | ⟨positive, a, rest, explains, clauses⟩⟩ := transits.formula_cases
    · exact record ⟨size.trans irredundant.inputSize, kept ▸ irredundant.unsubsumed⟩
    · refine record ⟨size.trans irredundant.inputSize, ?_⟩
      change Built _ s'.formula.clauses
      rw [clauses]
      exact irredundant.unsubsumed.snoc fun _ => searching.unsubsumed positive explains

theorem after (irredundant : s.Irredundant given) (reached : Reached setup f s) (n : Nat) :
    (s.after n).Irredundant given :=
  reached.keeps_after (·.Irredundant given) irredundant (fun reached irredundant => irredundant.step reached) n

/-- The learned clauses differ pairwise. -/
theorem pairwise_learned (irredundant : s.Irredundant given) :
    s.learnedClauses.Pairwise fun d c => d.sameLiterals c = false := by
  rw [learnedClauses, irredundant.inputSize]
  refine irredundant.unsubsumed.pairwise_drop.imp fun {d c} unsubsumed => ?_
  rw [← Bool.not_eq_true, Clause.sameLiterals_iff]
  exact fun same => unsubsumed same.1

end Irredundant

end Solver

/-- In a conflict above level zero the analysis answers a clause that none of the formula subsumes,
and no clause learned so far is subsumed by one given or learned before it. -/
theorem learning_never_redundant (fresh : Solver.Fresh setup p s₀) {n : Nat} (ran : s₀.after n = s) :
    (s.phase = .conflict → 0 < s.level → ∃ a, analyzeConflict s.graph s.trail s.level = .ok a ∧
      ∀ d ∈ s.formula.clauses, ¬d.literals ⊆ a.clause.literals) ∧
    s.Irredundant p.length ∧ s.learnedClauses.Pairwise fun d c => d.sameLiterals c = false := by
  obtain ⟨f, renders, rfl, reached⟩ := fresh.exists_reached
  have reached := ran ▸ reached n
  have irredundant : s.Irredundant p.length :=
    List.Forall₂.length_eq renders ▸ ran ▸ (Solver.Irredundant.start setup f).after (.start setup f) n
  refine ⟨fun phase positive => ?_, irredundant, irredundant.pairwise_learned⟩
  obtain ⟨k, a, point, cut, ahead, passed, searching, -, answers⟩ :=
    reached.stage.exists_answer phase positive
  exact ⟨a, answers.answered, searching.unsubsumed positive answers.explains⟩

/-- Of the narrowing problem ¬2 ∨ ¬1 is learned first and ¬1 next. -/
theorem learning_never_redundant_of_narrowing :
    ∃ s₀, s₀ = Solver.start ⟨.ordered, none, true, false⟩ (.ofProblem .narrowing) ∧
      (∃ a, analyzeConflict (s₀.after 10).graph (s₀.after 10).trail (s₀.after 10).level = .ok a ∧
        ∀ d ∈ (s₀.after 10).formula.clauses, ¬d.literals ⊆ a.clause.literals) ∧
      (s₀.after 12).learnedClauses.map Clause.literals =
        [[⟨.number 2, false⟩, ⟨.number 1, false⟩], [⟨.number 1, false⟩]] ∧
      (s₀.after 12).Irredundant 4 ∧
      (s₀.after 12).learnedClauses.Pairwise fun d c => d.sameLiterals c = false := by
  have fresh := Solver.fresh_ofProblem ⟨.ordered, none, true, false⟩ .narrowing
  obtain ⟨analysed, -⟩ := learning_never_redundant fresh (rfl : _ = Solver.after 10 _)
  obtain ⟨-, learned⟩ := learning_never_redundant fresh (rfl : _ = Solver.after 12 _)
  exact ⟨_, rfl, analysed (by decide +kernel) (by decide +kernel), by decide +kernel, learned⟩

end Backjump
