import Backjump.Proofs.Search.Setup

/-! A search meets no fault but a spent budget. Every state that steps lead to is
coherent and passes the check between transitions, so searching with the check
and without it are the same. -/
namespace Backjump

/-- The setup with the check between transitions on or off. -/
def Setup.withChecks (setup : Setup) (checks : Bool) : Setup := { setup with checks := checks }

variable {setup : Setup} {f : Formula} {s s₀ : Solver} {p : Problem} {checks : Bool}

theorem Solver.Fresh.withChecks (fresh : Solver.Fresh setup p s₀) (checks : Bool) :
    Solver.Fresh (setup.withChecks checks) p (s₀.withSetup (setup.withChecks checks)) :=
  fresh.withSetup rfl rfl

namespace Reached

theorem step_withChecks (reached : Reached setup f s) (checks : Bool) :
    (s.withSetup (setup.withChecks checks)).step =
      Solver.relabel (setup.withChecks checks) s.step := by
  have records : (setup.withChecks checks).records = setup.records := rfl
  apply reached.step_withSetup records
  rw [Solver.exhausted, Solver.exhausted, reached.stage.setup_eq]
  rfl

theorem after_withChecks (reached : Reached setup f s) (checks : Bool) (n : Nat) :
    (s.withSetup (setup.withChecks checks)).after n =
      (s.after n).withSetup (setup.withChecks checks) := by
  induction n with
  | zero => rfl
  | succ n ih =>
    change ((s.withSetup (setup.withChecks checks)).after n).step.2 = _
    rw [ih, (reached.after n).step_withChecks]
    rfl

theorem runUntil_withChecks (reached : Reached setup f s) (checks : Bool) (goal : Phase → Bool)
    (limit : Nat) : (s.withSetup (setup.withChecks checks)).runUntil goal limit =
      Solver.relabel (setup.withChecks checks) (s.runUntil goal limit) := by
  induction limit generalizing s with
  | zero => rfl
  | succ limit ih =>
    rw [Solver.runUntil, Solver.runUntil]
    change (if s.phase.isTerminal || goal s.phase then _ else _) = _
    split
    · rfl
    · have next := reached.step.2
      rw [reached.step_withChecks]
      cases stepped : s.step with
      | mk answer s' =>
        rw [stepped] at next
        cases answer with
        | error fault => rfl
        | ok phase =>
          change (Solver.runUntil goal limit (s'.withSetup (setup.withChecks checks))).andThen _ =
            Solver.relabel _ ((Solver.runUntil goal limit s').andThen _)
          rw [ih next]
          exact Solver.andThen_relabel (fun _ _ => rfl) _

theorem solve_withChecks (reached : Reached setup f s) (checks : Bool) :
    (s.withSetup (setup.withChecks checks)).solve =
      Solver.relabel (setup.withChecks checks) s.solve := by
  have finished := reached.runUntil_withChecks checks (fun _ => false)
    (Solver.stepBound s.trail.scope.length)
  change (Solver.runUntil (fun _ => false) (Solver.stepBound s.trail.scope.length)
    (s.withSetup (setup.withChecks checks))).andThen _ = _
  rw [finished]
  exact Solver.andThen_relabel (fun _ _ => rfl) _

end Reached

/-- The same search with the check between transitions on or off. -/
def Solver.withChecks (s : Solver) (checks : Bool) : Solver :=
  s.withSetup (s.setup.withChecks checks)

/-- After any number of steps the next one answers a phase or finds the budget spent, and a search
with the check and one without it go through the same states and answer the same. -/
theorem no_internal_fault (fresh : Solver.Fresh setup p s₀) (n : Nat) (checks : Bool) :
    ((∃ phase, (s₀.after n).step.1 = .ok phase) ∨
      ∃ k, setup.budget = some k ∧ (s₀.after n).step.1 = .error (.budgetExhausted k)) ∧
    Solver.Fresh (setup.withChecks checks) p (s₀.withChecks checks) ∧
    (s₀.withChecks checks).after n = (s₀.after n).withChecks checks ∧
    ((s₀.withChecks checks).after n).step.1 = (s₀.after n).step.1 ∧
    (s₀.withChecks checks).solve.1 = s₀.solve.1 ∧
    (s₀.withChecks checks).solve.2 = s₀.solve.2.withChecks checks := by
  obtain ⟨f, -, rfl, reached⟩ := fresh.exists_reached
  have begun := Reached.start setup f
  have relabelled {s : Solver} (reached : Reached setup f s) :
      s.withChecks checks = s.withSetup (setup.withChecks checks) := by
    rw [Solver.withChecks, reached.stage.setup_eq]
  have same := begun.after_withChecks checks n
  have solved := begun.solve_withChecks checks
  rw [relabelled begun, relabelled (reached n), relabelled begun.solve]
  refine ⟨?_, fresh.withChecks checks, same, ?_, by rw [solved]; rfl, by rw [solved]; rfl⟩
  · have stage := (reached n).stage
    have steps := (reached n).step.1
    generalize (Solver.start setup f).after n = s at stage steps
    generalize s.step = outcome at steps
    cases steps with
    | halted => exact .inl ⟨_, rfl⟩
    | spent _ budget => exact .inr ⟨_, stage.setup_eq ▸ budget, rfl⟩
    | moved => exact .inl ⟨_, rfl⟩
  · rw [same, (reached n).step_withChecks]
    rfl

theorem no_internal_fault_of_allPairs :
    ∃ s₀, s₀ = Solver.start ⟨.jeroslow, some 5, true, true⟩ (.ofProblem .allPairs) ∧
      Solver.Fresh ⟨.jeroslow, some 5, true, true⟩ .allPairs s₀ ∧
      (s₀.after 7).step.1 = .error (.budgetExhausted 5) ∧
      (s₀.withChecks false).after 7 = (s₀.after 7).withChecks false ∧
      ((s₀.withChecks false).after 7).step.1 = (s₀.after 7).step.1 ∧
      (s₀.withChecks false).solve.1 = s₀.solve.1 := by
  have fresh := Solver.fresh_ofProblem ⟨.jeroslow, some 5, true, true⟩ .allPairs
  obtain ⟨-, -, same, answer, solved, -⟩ := no_internal_fault fresh 7 false
  exact ⟨_, rfl, fresh, by decide +kernel, same, answer, solved⟩

end Backjump
