import Backjump.Proofs.Search.Novelty

/-! The accounts of a search. A decision ends a round of three transitions, and so
does a backjump, which learns one clause; the two transitions of the last round
find the verdict. A conflict is counted when it is resolved, one transition before
its clause is learned, and at level zero it teaches nothing. Entries come from
decisions and propagations alone, and only backjumps take them away. -/
namespace Backjump

/-- The transitions since the round began. -/
def Phase.sinceRound : Phase → Nat
  | .propagate => 0
  | .fixpoint | .conflict => 1
  | .decide | .backtrack | .satisfied | .unsatisfiable => 2

namespace Solver

/-- The entries that each backjump among the first `n` steps took off the trail: those above the
level where it landed. -/
def backjumps (s : Solver) : Nat → List (List Entry)
  | 0 => []
  | n + 1 =>
    if (s.after n).phase = .backtrack ∧ (s.after (n + 1)).phase = .propagate then
      s.backjumps n ++ [(s.after n).trail.entries.filter ((s.after (n + 1)).level < ·.level)]
    else s.backjumps n

/-- The counters of a search that was given some clauses and made these backjumps. -/
structure Accounts (s : Solver) (given : List Clause) (jumps : List (List Entry)) : Prop where
  inputSize : s.inputSize = given.length
  clauses : s.formula.clauses = given ++ s.learnedClauses
  learned : s.learnedClauses.length = jumps.length
  steps : s.steps = 3 * (s.decisions + s.learnedClauses.length) + s.phase.sinceRound
  conflicts : s.conflicts = s.learnedClauses.length +
    if s.phase = .backtrack ∨ s.phase = .unsatisfiable then 1 else 0
  entries : s.decisions + s.propagations = s.trail.entries.length + jumps.flatten.length

variable {setup : Setup} {f : Formula} {p : Problem} {s s' s₀ : Solver} {phase : Phase}
  {new : List Entry} {given : List Clause} {jumps : List (List Entry)} {clash : Option Clash}

theorem length_upTo_add (n : Int) (es : List Entry) :
    (upTo n es).length + (es.filter (n < ·.level)).length = es.length := by
  have split := List.length_eq_length_filter_add (l := es) (·.level ≤ n)
  simp only [← decide_not, Int.not_le] at split
  exact split.symm

theorem Propagates.propagations_eq (rounds : Propagates s new s') :
    s'.propagations = s.propagations + new.length := by
  induction rounds with
  | refl s => rfl
  | next _ _ ih => rw [ih, List.length_cons]; exact Nat.add_right_comm ..

namespace Accounts

theorem record (accounts : s.Accounts given jumps) : s.record.Accounts given jumps := by
  unfold Solver.record
  split
  · exact ⟨accounts.inputSize, accounts.clauses, accounts.learned, accounts.steps, accounts.conflicts,
      accounts.entries⟩
  · exact accounts

theorem start (setup : Setup) (f : Formula) : (Solver.start setup f).Accounts f.clauses [] := by
  have nothing : (blank setup f).learnedClauses = [] := List.drop_length
  refine record (s := blank setup f) ⟨rfl, ?_, ?_, ?_, ?_, rfl⟩
  · rw [nothing, List.append_nil]
    rfl
  all_goals rw [nothing]
  · rfl
  · rfl
  · rfl

/-- A transition other than going back removes no entry and learns nothing. -/
theorem onward (accounts : s.Accounts given jumps) (transits : s.Transits phase s')
    (other : s.phase ≠ .backtrack) : (s'.enter phase).Accounts given jumps := by
  obtain ⟨inputSize, clauses, learned, steps, conflicts, entries⟩ := accounts
  cases transits with
  | settled isPhase rounds | falsified isPhase rounds =>
    have implied := rounds.propagations_eq
    have grown := congrArg List.length rounds.entries_eq
    obtain ⟨_, _, _, _, rfl⟩ := rounds.frame
    rw [isPhase] at steps conflicts
    rw [List.length_append] at grown
    refine ⟨inputSize, clauses, learned, congrArg (· + 1) steps, conflicts, ?_⟩
    simp only [enter, conflicted, report] at implied grown ⊢
    omega
  | unfinished isPhase | answered isPhase =>
    rw [isPhase] at steps conflicts
    exact ⟨inputSize, clauses, learned, congrArg (· + 1) steps, conflicts, entries⟩
  | refuted isPhase | analysed isPhase =>
    rw [isPhase] at steps conflicts
    exact ⟨inputSize, clauses, learned, congrArg (· + 1) steps, congrArg (· + 1) conflicts, entries⟩
  | returned isPhase => exact absurd isPhase other
  | @decided l graph isPhase =>
    rw [isPhase] at steps conflicts
    refine ⟨inputSize, clauses, learned, ?_, conflicts, ?_⟩
    · change s.steps + 1 = 3 * (s.decisions + 1 + s.learnedClauses.length) + 0
      simp only [Phase.sinceRound] at steps
      omega
    · change s.decisions + 1 + s.propagations =
        (s.trail.entries ++ [s.trail.nextEntry l (s.level + 1) none]).length + _
      rw [List.length_append, List.length_singleton]
      omega

/-- Going back learns one clause and removes the entries above the level where it lands. -/
theorem goBack (accounts : s.Accounts given jumps) (transits : s.Transits phase s')
    (isPhase : s.phase = .backtrack) :
    phase = .propagate ∧ (s'.enter phase).Accounts given
      (jumps ++ [s.trail.entries.filter (s'.level < ·.level)]) := by
  obtain ⟨inputSize, clauses, learned, steps, conflicts, entries⟩ := accounts
  cases transits with
  | @returned a rest trail graph undone _ positive pending explains _ kept =>
    rw [isPhase] at steps conflicts
    have grown : (s.returned a trail graph undone).learnedClauses = s.learnedClauses ++ [a.clause] := by
      rw [learnedClauses, Searching.clauses_returned explains, clauses]
      change List.drop s.inputSize _ = _
      rw [inputSize, List.append_assoc, List.drop_left]
    have count := congrArg List.length grown
    rw [List.length_append, List.length_singleton] at count
    refine ⟨rfl, inputSize, ?_, ?_, ?_, ?_, ?_⟩
    · change (s.returned a trail graph undone).formula.clauses =
        given ++ (s.returned a trail graph undone).learnedClauses
      rw [grown, Searching.clauses_returned explains, clauses, List.append_assoc]
    · change (s.returned a trail graph undone).learnedClauses.length = _
      rw [count, learned, List.length_append, List.length_singleton]
    · change s.steps + 1 = 3 * (s.decisions + (s.returned a trail graph undone).learnedClauses.length) + 0
      simp only [Phase.sinceRound] at steps
      omega
    · change s.conflicts = (s.returned a trail graph undone).learnedClauses.length + 0
      rw [count]
      exact conflicts
    · change s.decisions + s.propagations = trail.entries.length +
        (jumps ++ [s.trail.entries.filter (a.target < ·.level)]).flatten.length
      have whole := length_upTo_add a.target s.trail.entries
      rw [List.flatten_append, List.length_append, List.flatten_singleton, kept]
      omega
  | settled next | falsified next | unfinished next | answered next | refuted next | analysed next
  | decided next =>
    rw [isPhase] at next
    contradiction

theorem step (accounts : s.Accounts given jumps) (reached : Reached setup f s) :
    s.step.2.Accounts given
      (if s.phase = .backtrack ∧ s.step.2.phase = .propagate then
        jumps ++ [s.trail.entries.filter (s.step.2.level < ·.level)]
      else jumps) := by
  have steps := reached.step.1
  generalize s.step = outcome at steps ⊢
  cases steps with
  | halted | spent =>
    rw [if_neg]
    · exact accounts
    · rintro ⟨back, forth⟩
      rw [back] at forth
      contradiction
  | @moved phase s' _ _ transits =>
    by_cases isPhase : s.phase = .backtrack
    · obtain ⟨rfl, accounts⟩ := accounts.goBack transits isPhase
      rw [if_pos ⟨isPhase, phase_record _⟩, (sameTrail_record _).level]
      exact accounts.record
    · rw [if_neg fun jump => isPhase jump.1]
      exact (accounts.onward transits isPhase).record

theorem after (setup : Setup) (f : Formula) (n : Nat) :
    ((Solver.start setup f).after n).Accounts f.clauses ((Solver.start setup f).backjumps n) := by
  induction n with
  | zero => exact start setup f
  | succ n ih => exact ih.step ((Reached.start setup f).after n)

end Accounts

end Solver

/-- After any number of steps formula and counters are what the input, the decisions, the
propagations and the backjumps have made of them; a finished search has counted one conflict more
than it learned clauses exactly if it answers that there is no model. -/
theorem counters_account_for_run (fresh : Solver.Fresh setup p s₀) {n : Nat} (ran : s₀.after n = s) :
    s₀.formula.clauses.map Clause.literals = p.map List.eraseDups ∧
    s.Accounts s₀.formula.clauses (s₀.backjumps n) ∧
    (s.phase.isTerminal = true → ∃ v, s.verdict = some v ∧
      s.conflicts = s.learnedClauses.length + (if v = .unsatisfiable then 1 else 0) ∧
      s.steps = 2 + 3 * (s.decisions + s.learnedClauses.length)) := by
  obtain ⟨f, renders, rfl, reached⟩ := fresh.exists_reached
  have given : (Solver.start setup f).formula = f := (Solver.sameTrail_record _).formula
  have accounts : s.Accounts f.clauses _ := ran ▸ Solver.Accounts.after setup f n
  rw [given]
  refine ⟨renders.map_literals, accounts, fun halted => ?_⟩
  have stage := (ran ▸ reached n : Reached setup f s).stage
  obtain ⟨_, _, _, steps, conflicts, _⟩ := accounts
  cases stage with
  | satisfied phase _ _ _ verdict | unsatisfiable phase _ _ _ verdict =>
    rw [phase] at steps conflicts
    exact ⟨_, verdict, conflicts, steps.trans (Nat.add_comm ..)⟩
  | propagate phase | fixpoint phase | conflict phase | backtrack phase | decide phase =>
    rw [phase] at halted
    contradiction

/-- All clauses over three variables: no model, and three conflicts before that is found. -/
def Problem.allTriples : Problem :=
  ofInts [[1, 2, 3], [1, 2, -3], [1, -2, 3], [1, -2, -3], [-1, 2, 3], [-1, 2, -3], [-1, -2, 3],
    [-1, -2, -3]]

theorem counters_account_for_run_of_allTriples :
    ∃ s₀ s, s₀ = Solver.start ⟨.ordered, none, true, false⟩ (.ofProblem .allTriples) ∧
      s₀.after 20 = s ∧ s.Accounts s₀.formula.clauses (s₀.backjumps 20) ∧
      (s₀.backjumps 20).map List.length = [2, 3, 2] ∧
      s.phase.isTerminal = true ∧ s.conflicts = 3 + 1 ∧ s.steps = 2 + 3 * (3 + 3) ∧
      ∃ v, s.verdict = some v ∧
        s.conflicts = s.learnedClauses.length + (if v = .unsatisfiable then 1 else 0) ∧
        s.steps = 2 + 3 * (s.decisions + s.learnedClauses.length) := by
  have fresh := Solver.fresh_ofProblem ⟨.ordered, none, true, false⟩ .allTriples
  obtain ⟨-, accounts, ended⟩ := counters_account_for_run fresh (rfl : _ = Solver.after 20 _)
  have halted : ((Solver.start ⟨.ordered, none, true, false⟩ (.ofProblem .allTriples)).after
      20).phase.isTerminal = true := by decide +kernel
  exact ⟨_, _, rfl, rfl, accounts, by decide +kernel, halted, by decide +kernel, by decide +kernel,
    ended halted⟩

end Backjump
