import Backjump.Proofs.Search.Pace
import Backjump.Proofs.Solver.Loop

/-! A search without a budget ends. The steps of a search that is not over stay
below a bound in the number of variables, so a run of that many steps arrives at
a terminal phase, where there is a verdict. Inside a transition the scan ends as
a loop over the formula, and the walk of an analysis ends before it has passed
all entries once. -/
namespace Backjump

variable {setup : Setup} {f : Formula} {s s₀ : Solver} {p : Problem}

/-- The walk of an analysis finds its point on the way from the last entry to the first. -/
def Solver.WalkEnds (s : Solver) : Prop :=
  ∃ keys start outcome, s.graph.predecessors none = .ok keys ∧
    Analysis.Cut.visit s.graph s.level keys .start = .ok start ∧
    Analysis.resolve s.graph s.level s.trail.entries.reverse start = .ok outcome

namespace Reached

/-- A run that may go up to the bound ends in a terminal phase or finds the budget spent. -/
theorem runUntil_cases (reached : Reached setup f s) (paced : Paced f.symbols.length s) {limit : Nat}
    (enough : Solver.stepBound f.symbols.length ≤ s.steps + limit) :
    (∃ n ≤ limit, s.runUntil (fun _ => false) limit = (.ok n, s.after n) ∧
        (s.after n).phase.isTerminal = true) ∨
      ∃ k, setup.budget = some k ∧
        (s.runUntil (fun _ => false) limit).1 = .error (.budgetExhausted k) := by
  induction limit generalizing s with
  | zero =>
    left
    refine ⟨0, Nat.le_refl _, rfl, ?_⟩
    by_contra running
    have := paced.steps_lt reached ((Bool.not_eq_true _).mp running)
    omega
  | succ limit ih =>
    rw [Solver.runUntil]
    cases running : s.phase.isTerminal with
    | true => exact .inl ⟨0, Nat.zero_le _, rfl, running⟩
    | false =>
      rw [if_neg (by simp)]
      have next := reached.step
      have pacedNext := paced.step reached
      have later (n : Nat) : s.after (n + 1) = s.step.2.after n := Solver.after_succ n s
      generalize s.step = outcome at next pacedNext later ⊢
      obtain ⟨steps, reachedNext⟩ := next
      cases steps with
      | halted halted =>
        rw [running] at halted
        contradiction
      | @spent k _ budget => exact .inr ⟨k, reached.stage.setup_eq ▸ budget, rfl⟩
      | @moved phase s' _ _ transits =>
        have one : (s'.enter phase).record.steps = s.steps + 1 := by
          rw [Solver.steps_record, ← transits.steps_eq]
          rfl
        obtain ⟨n, few, ran, halted⟩ | ⟨k, budget, stopped⟩ :=
          ih reachedNext pacedNext (by rw [one]; omega)
        · refine .inl ⟨n + 1, Nat.succ_le_succ few, ?_, by rw [later]; exact halted⟩
          rw [later, Attempt.andThen_ok, ran]
          rfl
        · refine .inr ⟨k, budget, ?_⟩
          rw [Attempt.andThen_ok]
          generalize Solver.runUntil _ limit _ = outcome at stopped
          obtain ⟨answer, s''⟩ := outcome
          cases stopped
          rfl

theorem exists_verdict (reached : Reached setup f s) (halted : s.phase.isTerminal = true) :
    ∃ v, s.verdict = some v := by
  obtain ⟨_, -, -, -, verdict, -⟩ | ⟨_, -, -, -, verdict⟩ := reached.stage.halted_cases halted
  · exact ⟨_, verdict⟩
  · exact ⟨_, verdict⟩

/-- A search runs to its end with the bound for its variables. -/
theorem finish_eq (reached : Reached setup f s) :
    s.finish = s.runUntil (fun _ => false) (Solver.stepBound f.symbols.length) := by
  obtain ⟨clash, searching, -⟩ := reached.stage.exists_searching
  rw [Solver.finish, searching.scope_eq]

/-- Solving answers a verdict or finds the budget spent. -/
theorem solve_cases (reached : Reached setup f s) (paced : Paced f.symbols.length s) :
    (∃ n v, n ≤ Solver.stepBound f.symbols.length ∧ s.solve = (.ok (some v), s.after n) ∧
        (s.after n).phase.isTerminal = true ∧ (s.after n).verdict = some v) ∨
      ∃ k, setup.budget = some k ∧ s.solve.1 = .error (.budgetExhausted k) := by
  obtain ⟨n, few, ran, halted⟩ | ⟨k, budget, stopped⟩ :=
    reached.runUntil_cases paced (Nat.le_add_left ..)
  · obtain ⟨v, verdict⟩ := (reached.after n).exists_verdict halted
    refine .inl ⟨n, v, few, ?_, halted, verdict⟩
    rw [Solver.solve, reached.finish_eq, ran, Attempt.andThen_ok, verdict]
  · refine .inr ⟨k, budget, ?_⟩
    rw [Solver.solve, reached.finish_eq]
    generalize Solver.runUntil _ _ s = outcome at stopped
    obtain ⟨answer, s'⟩ := outcome
    cases stopped
    rfl

theorem walkEnds (reached : Reached setup f s) (phase : s.phase = .conflict) (positive : 0 < s.level) :
    s.WalkEnds := by
  obtain ⟨k, a, point, cut, ahead, passed, searching, -, answers⟩ :=
    reached.stage.exists_answer phase positive
  obtain ⟨keys, start, named, visited, -, resolved⟩ := answers.reads
  refine ⟨keys, start, (point, cut), named, visited, ?_⟩
  rw [answers.concludes.reverse_entries]
  exact resolved ahead

end Reached

/-- A search without a budget ends after a bounded number of steps with a verdict, and so do the
loops inside its transitions. -/
theorem search_terminates (fresh : Solver.Fresh setup p s₀) (unlimited : setup.budget = none) :
    (∃ n ≤ Solver.stepBound p.symbols.length,
      (s₀.after n).phase.isTerminal = true ∧ ∃ v, s₀.solve = (.ok (some v), s₀.after n)) ∧
    ∀ n, (s₀.after n).loop (s₀.after n).turnBound 0 = some (s₀.after n).scan ∧
      ((s₀.after n).phase = .conflict → 0 < (s₀.after n).level → (s₀.after n).WalkEnds) := by
  obtain ⟨f, renders, rfl, reached⟩ := fresh.exists_reached
  rw [← renders.symbols_eq]
  refine ⟨?_, fun n => ⟨Solver.loop_turnBound _, (reached n).walkEnds⟩⟩
  obtain ⟨n, v, few, solved, halted, -⟩ | ⟨k, budget, -⟩ :=
    (Reached.start setup f).solve_cases (Paced.start setup f _)
  · exact ⟨n, few, halted, v, solved⟩
  · rw [unlimited] at budget
    contradiction

theorem search_terminates_of_allPairs :
    ∃ s₀, s₀ = Solver.start ⟨.jeroslow, none, true, false⟩ (.ofProblem .allPairs) ∧
      Solver.Fresh ⟨.jeroslow, none, true, false⟩ .allPairs s₀ ∧
      (∃ n ≤ Solver.stepBound 2,
        (s₀.after n).phase.isTerminal = true ∧ ∃ v, s₀.solve = (.ok (some v), s₀.after n)) ∧
      (s₀.after 3).loop (s₀.after 3).turnBound 0 = some (s₀.after 3).scan ∧
      (s₀.after 4).phase = .conflict ∧ 0 < (s₀.after 4).level ∧ (s₀.after 4).WalkEnds := by
  have fresh := Solver.fresh_ofProblem ⟨.jeroslow, none, true, false⟩ .allPairs
  obtain ⟨ended, loops⟩ := search_terminates fresh rfl
  refine ⟨_, rfl, fresh, ended, (loops 3).1, by decide +kernel, by decide +kernel, ?_⟩
  exact (loops 4).2 (by decide +kernel) (by decide +kernel)

end Backjump
