import Backjump.Proofs.Search.Setup
import Backjump.Proofs.Search.Termination
import Mathlib.Data.Nat.Find

/-! A budget only truncates. A search of `k` transitions that may make as many or
more is the search without a budget. With a smaller budget it goes through the
same states until the budget is spent, and there every further call is refused
and changes nothing: whether the search is over is looked at before the budget,
and the budget before anything else. -/
namespace Backjump

def Setup.withBudget (setup : Setup) (budget : Nat) : Setup := { setup with budget := some budget }

/-- The same state under a budget. -/
def Solver.withBudget (s : Solver) (budget : Nat) : Solver :=
  s.withSetup (s.setup.withBudget budget)

variable {setup : Setup} {f : Formula} {p : Problem} {s s₀ : Solver} {k m n : Nat}

namespace Solver

/-- Each of the first `n` steps goes on with the search. -/
def Onward (s : Solver) (n : Nat) : Prop :=
  ∀ i < n, (s.after i).phase.isTerminal = false ∧ ∃ phase, (s.after i).step.1 = .ok phase

theorem Onward.tail (onward : s.Onward (n + 1)) : s.step.2.Onward n := by
  intro i earlier
  rw [← after_succ]
  exact onward (i + 1) (Nat.succ_lt_succ earlier)

/-- A run makes the steps that go on and is then the run of the state they lead to. -/
theorem Onward.runUntil_add (onward : s.Onward n) (limit : Nat) :
    s.runUntil (fun _ => false) (limit + n) =
      ((s.after n).runUntil (fun _ => false) limit).andThen fun made s => (.ok (made + n), s) := by
  induction n generalizing s with
  | zero =>
    change runUntil (fun _ => false) limit s = (runUntil (fun _ => false) limit s).andThen _
    generalize runUntil (fun _ => false) limit s = outcome
    obtain ⟨answer, s'⟩ := outcome
    cases answer <;> rfl
  | succ n ih =>
    obtain ⟨running, phase, answered⟩ := onward 0 (Nat.succ_pos n)
    change s.phase.isTerminal = false at running
    have stepped : s.step = (.ok phase, s.step.2) := Prod.ext answered rfl
    have rest := ih onward.tail
    rw [← after_succ] at rest
    rw [← Nat.add_assoc, runUntil, if_neg (by simpa using running), stepped, Attempt.andThen_ok, rest]
    generalize runUntil (fun _ => false) limit (s.after (n + 1)) = outcome
    obtain ⟨answer, s'⟩ := outcome
    cases answer <;> rfl

theorem stepBound_pos (count : Nat) : 0 < stepBound count := Nat.succ_pos _

/-- Solving makes the steps that go on until the search is over. -/
theorem Onward.solve_of_halted (onward : s.Onward n) (enough : n ≤ stepBound s.trail.scope.length)
    (halted : (s.after n).phase.isTerminal = true) :
    s.solve = (.ok (s.after n).verdict, s.after n) := by
  obtain ⟨spare, bound⟩ := Nat.exists_eq_add_of_le' enough
  have ended : (s.after n).runUntil (fun _ => false) spare = (.ok 0, s.after n) := by
    cases spare with
    | zero => rfl
    | succ spare => rw [runUntil, if_pos (by simp [halted])]
  rw [solve, finish, bound, onward.runUntil_add, ended]
  rfl

/-- Solving makes the steps that go on until one is refused. -/
theorem Onward.solve_of_refused {fault : Fault} (onward : s.Onward n)
    (enough : n < stepBound s.trail.scope.length) (running : (s.after n).phase.isTerminal = false)
    (refused : (s.after n).step = (.error fault, s.after n)) :
    s.solve = (.error fault, s.after n) := by
  obtain ⟨spare, bound⟩ := Nat.exists_eq_add_of_lt enough
  have bound : stepBound s.trail.scope.length = (spare + 1) + n := by omega
  have stopped : (s.after n).runUntil (fun _ => false) (spare + 1) = (.error fault, s.after n) := by
    rw [runUntil, if_neg (by simpa using running), refused]
    rfl
  rw [solve, finish, bound, onward.runUntil_add, stopped]
  rfl

end Solver

namespace Reached

theorem exists_step (reached : Reached setup f s) (running : s.phase.isTerminal = false)
    (affordable : s.exhausted = false) :
    (∃ phase, s.step.1 = .ok phase) ∧ s.step.2.steps = s.steps + 1 := by
  obtain ⟨phase, s', transits, stepped⟩ := reached.exists_transition running affordable
  rw [stepped]
  refine ⟨⟨phase, rfl⟩, ?_⟩
  rw [Solver.steps_record, ← transits.steps_eq]
  rfl

theorem steps_after_le (reached : Reached setup f s) (n : Nat) :
    (s.after n).steps ≤ s.steps + n := by
  induction n with
  | zero => exact Nat.le_refl _
  | succ n ih =>
    have reached := reached.after n
    rw [Solver.after]
    cases running : (s.after n).phase.isTerminal with
    | true => rw [Solver.step_of_halted running]; exact Nat.le_succ_of_le ih
    | false =>
      cases spent : (s.after n).exhausted with
      | true => rw [Solver.step_of_spent running spent]; exact Nat.le_succ_of_le ih
      | false => rw [(reached.exists_step running spent).2]; exact Nat.succ_le_succ ih

/-- Without a budget a search goes on and counts its steps until it is over. -/
theorem onward (reached : Reached setup f s) (unlimited : setup.budget = none)
    (running : ∀ i < n, (s.after i).phase.isTerminal = false) :
    s.Onward n ∧ (s.after n).steps = s.steps + n := by
  have affordable (i : Nat) : (s.after i).exhausted = false := by
    rw [Solver.exhausted, (reached.after i).stage.setup_eq, unlimited]
    rfl
  have each (i : Nat) (earlier : i < n) :=
    (reached.after i).exists_step (running i earlier) (affordable i)
  refine ⟨fun i earlier => ⟨running i earlier, (each i earlier).1⟩, ?_⟩
  induction n with
  | zero => rfl
  | succ n ih =>
    rw [Solver.after, (each n (Nat.lt_succ_self n)).2,
      ih (fun i earlier => running i (Nat.lt_succ_of_lt earlier))
        fun i earlier => each i (Nat.lt_succ_of_lt earlier)]
    rfl

theorem scope_length (reached : Reached setup f s) : s.trail.scope.length = f.symbols.length := by
  obtain ⟨clash, searching, -⟩ := reached.stage.exists_searching
  rw [searching.scope_eq]

/-- Once a search is over it stays as it is. -/
theorem after_of_halted (halted : (s.after k).phase.isTerminal = true) (later : k ≤ n) :
    s.after n = s.after k := by
  induction later with
  | refl => rfl
  | step _ ih => rw [Solver.after, ih, Solver.step_of_halted halted]

theorem running_of_later (running : (s.after n).phase.isTerminal = false) (earlier : m ≤ n) :
    (s.after m).phase.isTerminal = false := by
  cases halted : (s.after m).phase.isTerminal with
  | false => rfl
  | true =>
    rw [after_of_halted halted earlier, halted] at running
    contradiction

/-- The first step after which a search without a budget is over. -/
theorem exists_end (reached : Reached setup f s) (paced : Paced f.symbols.length s)
    (unlimited : setup.budget = none) :
    ∃ k ≤ Solver.stepBound f.symbols.length, (∀ i, (s.after i).phase.isTerminal = true ↔ k ≤ i) ∧
      s.Onward k ∧ (s.after k).steps = s.steps + k ∧
      ∃ v, (s.after k).verdict = some v := by
  have ends : ∃ k, (s.after k).phase.isTerminal = true ∧ k ≤ Solver.stepBound f.symbols.length := by
    obtain ⟨k, v, few, -, halted, -⟩ | ⟨k, budget, -⟩ := reached.solve_cases paced
    · exact ⟨k, halted, few⟩
    · rw [unlimited] at budget
      contradiction
  obtain ⟨halted, few⟩ := Nat.find_spec ends
  have running : ∀ i < Nat.find ends, (s.after i).phase.isTerminal = false := by
    intro i earlier
    by_contra halts
    exact Nat.find_min ends earlier ⟨(Bool.not_eq_false _).mp halts, by omega⟩
  obtain ⟨onward, steps⟩ := reached.onward unlimited running
  refine ⟨Nat.find ends, few, fun i => ⟨fun halts => ?_, fun later => ?_⟩, onward, steps,
    (reached.after _).exists_verdict halted⟩
  · by_contra earlier
    rw [running i (Nat.lt_of_not_le earlier)] at halts
    contradiction
  · rw [after_of_halted halted later]
    exact halted

theorem withBudget_eq (reached : Reached setup f s) (n : Nat) :
    s.withBudget n = s.withSetup (setup.withBudget n) := by
  rw [Solver.withBudget, reached.stage.setup_eq]

/-- A step that the budget allows is the step without a budget. -/
theorem step_withBudget (reached : Reached setup f s) (unlimited : setup.budget = none)
    (unspent : s.steps < n) :
    (s.withBudget n).step = Solver.relabel (setup.withBudget n) s.step := by
  have records : (setup.withBudget n).records = setup.records := rfl
  rw [reached.withBudget_eq]
  apply reached.step_withSetup records
  rw [Solver.exhausted, Solver.exhausted, reached.stage.setup_eq, unlimited]
  exact decide_eq_false (Nat.not_le.mpr unspent)

/-- Up to the budget a search goes through the states of the search without a budget. -/
theorem after_withBudget (reached : Reached setup f s) (unlimited : setup.budget = none)
    (within : s.steps + m ≤ n) : (s.withBudget n).after m = (s.after m).withBudget n := by
  induction m with
  | zero => rfl
  | succ m ih =>
    have unspent : (s.after m).steps < n := by
      have := reached.steps_after_le m
      omega
    rw [Solver.after, ih (by omega), (reached.after m).step_withBudget unlimited unspent,
      (reached.after (m + 1)).withBudget_eq]
    rfl

theorem onward_withBudget (reached : Reached setup f s) (unlimited : setup.budget = none)
    (within : s.steps + m ≤ n) (onward : s.Onward m) : (s.withBudget n).Onward m := by
  intro i earlier
  obtain ⟨running, phase, answered⟩ := onward i earlier
  have unspent : (s.after i).steps < n := by
    have := reached.steps_after_le i
    omega
  rw [reached.after_withBudget unlimited (by omega),
    (reached.after i).step_withBudget unlimited unspent]
  exact ⟨running, phase, answered⟩

/-- At a spent budget a step is refused and changes nothing. -/
theorem step_of_budget_spent (running : s.phase.isTerminal = false) (spent : s.steps = n) :
    (s.withBudget n).step = (.error (.budgetExhausted n), s.withBudget n) := by
  have exhausted : (s.withBudget n).exhausted = true :=
    Solver.exhausted_eq_true.mpr ⟨n, rfl, Nat.le_of_eq spent.symm⟩
  have refused := Solver.step_of_spent (s := s.withBudget n) running exhausted
  rw [refused]
  exact congrArg (fun made => (Except.error (Fault.budgetExhausted made), s.withBudget n)) spent

/-- Behind the budget a search stays where it is. -/
theorem after_withBudget_min (reached : Reached setup f s) (unlimited : setup.budget = none)
    (unused : s.steps = 0) (i n : Nat) :
    (s.withBudget n).after i = (s.after (min i n)).withBudget n := by
  rcases Nat.le_total i n with within | beyond
  · rw [Nat.min_eq_left within, reached.after_withBudget unlimited (by omega)]
  have last : (s.withBudget n).after n = (s.after n).withBudget n :=
    reached.after_withBudget unlimited (by omega)
  have stays : ((s.after n).withBudget n).step.2 = (s.after n).withBudget n := by
    cases running : (s.after n).phase.isTerminal with
    | true => exact congrArg Prod.snd (Solver.step_of_halted (s := (s.after n).withBudget n) running)
    | false =>
      have made := (reached.onward unlimited fun i earlier =>
        running_of_later running (Nat.le_of_lt earlier)).2
      rw [step_of_budget_spent running (by omega)]
  rw [Nat.min_eq_right beyond]
  induction beyond with
  | refl => exact last
  | step _ ih => rw [Solver.after, ih, stays]

end Reached

theorem Solver.Fresh.withBudget (fresh : Solver.Fresh setup p s₀) (n : Nat) :
    Solver.Fresh (setup.withBudget n) p (s₀.withSetup (setup.withBudget n)) :=
  fresh.withSetup rfl rfl

/-- Let a search without a budget be over after `k` transitions. Under a budget of at least `k`
solving answers the same and leaves the same state; under a smaller one it stops with the budget
spent in the state after as many transitions, and so does every call after that. -/
theorem budget_only_truncates (fresh : Solver.Fresh setup p s₀) (unlimited : setup.budget = none)
    (n : Nat) :
    ∃ k v, (∀ i, (s₀.after i).phase.isTerminal = true ↔ k ≤ i) ∧ (s₀.after k).steps = k ∧
      s₀.solve = (.ok (some v), s₀.after k) ∧
      Solver.Fresh (setup.withBudget n) p (s₀.withBudget n) ∧
      (∀ i, (s₀.withBudget n).after i = (s₀.after (min i n)).withBudget n) ∧
      (k ≤ n → (s₀.withBudget n).solve = (.ok (some v), (s₀.after k).withBudget n)) ∧
      (n < k →
        (s₀.withBudget n).solve = (.error (.budgetExhausted n), (s₀.after n).withBudget n) ∧
        ((s₀.after n).withBudget n).step =
          (.error (.budgetExhausted n), (s₀.after n).withBudget n) ∧
        ((s₀.after n).withBudget n).solve =
          (.error (.budgetExhausted n), (s₀.after n).withBudget n)) := by
  obtain ⟨f, -, rfl, reached⟩ := fresh.exists_reached
  have begun := Reached.start setup f
  have unused : (Solver.start setup f).steps = 0 := Solver.steps_record _
  obtain ⟨k, enough, ends, onward, steps, v, verdict⟩ :=
    begun.exists_end (.start setup f _) unlimited
  have halted := (ends k).mpr (Nat.le_refl k)
  rw [← begun.scope_length] at enough
  refine ⟨k, v, ends, steps.trans (by omega), ?_, begun.withBudget_eq n ▸ fresh.withBudget n,
    fun i => begun.after_withBudget_min unlimited unused i n, fun few => ?_, fun short => ?_⟩
  · rw [onward.solve_of_halted enough halted, verdict]
  · have within : (Solver.start setup f).steps + k ≤ n := by omega
    have limited := begun.onward_withBudget unlimited within onward
    have same := begun.after_withBudget unlimited within
    rw [limited.solve_of_halted enough (same ▸ halted), same, ← verdict]
    rfl
  · have running : ((Solver.start setup f).after n).phase.isTerminal = false := by
      rw [← Bool.not_eq_true, ends]
      exact Nat.not_le.mpr short
    have onward : (Solver.start setup f).Onward n := fun i earlier =>
      onward i (Nat.lt_trans earlier short)
    have made := (begun.onward unlimited fun i earlier => (onward i earlier).1).2
    rw [unused, Nat.zero_add] at made
    have within : (Solver.start setup f).steps + n ≤ n := by omega
    have limited := begun.onward_withBudget unlimited within onward
    have same := begun.after_withBudget unlimited within
    have refused := Reached.step_of_budget_spent running made
    refine ⟨?_, refused, ?_⟩
    · rw [limited.solve_of_refused (Nat.lt_of_lt_of_le short enough) (same ▸ running)
        (same ▸ refused), same]
    · have nothing : (((Solver.start setup f).after n).withBudget n).Onward 0 := fun _ none =>
        absurd none (Nat.not_lt_zero _)
      exact nothing.solve_of_refused (Solver.stepBound_pos _) running refused

/-- The search over all pairs is over after eight transitions, and a budget of five is too small. -/
theorem budget_only_truncates_of_allPairs :
    ∃ s₀, s₀ = Solver.start ⟨.jeroslow, none, true, true⟩ (.ofProblem .allPairs) ∧
      Solver.Fresh ⟨.jeroslow, none, true, true⟩ .allPairs s₀ ∧
      s₀.solve = (.ok (some .unsatisfiable), s₀.after 8) ∧
      (s₀.withBudget 8).solve = (.ok (some .unsatisfiable), (s₀.after 8).withBudget 8) ∧
      (s₀.withBudget 5).solve = (.error (.budgetExhausted 5), (s₀.after 5).withBudget 5) ∧
      ((s₀.after 5).withBudget 5).step =
        (.error (.budgetExhausted 5), (s₀.after 5).withBudget 5) := by
  have fresh := Solver.fresh_ofProblem ⟨.jeroslow, none, true, true⟩ .allPairs
  have answer : (Solver.start ⟨.jeroslow, none, true, true⟩ (.ofProblem .allPairs)).solve.1 =
      .ok (some .unsatisfiable) := by decide +kernel
  have halts : ((Solver.start ⟨.jeroslow, none, true, true⟩ (.ofProblem .allPairs)).after
      8).phase.isTerminal = true := by decide +kernel
  have running : ((Solver.start ⟨.jeroslow, none, true, true⟩ (.ofProblem .allPairs)).after
      7).phase.isTerminal = false := by decide +kernel
  have first (k : Nat) (ends : ∀ i, ((Solver.start ⟨.jeroslow, none, true, true⟩
      (.ofProblem .allPairs)).after i).phase.isTerminal = true ↔ k ≤ i) : k = 8 := by
    have upto := (ends 8).mp halts
    have behind := mt (ends 7).mpr (by simp [running])
    omega
  obtain ⟨k, v, ends, -, solved, -, -, enough, -⟩ := budget_only_truncates fresh rfl 8
  obtain ⟨k', _, ends', -, -, -, -, -, short⟩ := budget_only_truncates fresh rfl 5
  obtain rfl := first k ends
  obtain rfl := first k' ends'
  rw [solved] at answer
  cases answer
  obtain ⟨stopped, refused, -⟩ := short (by decide)
  exact ⟨_, rfl, fresh, solved, enough (Nat.le_refl 8), stopped, refused⟩

end Backjump
