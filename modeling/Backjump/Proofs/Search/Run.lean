import Backjump.Proofs.Search.Transition
import Backjump.Proofs.Solver.Consistency
import Backjump.Solver.Run

/-! Runs of a search. A reached state is at the stage of its phase, within its
budget and silent until the search is over. A step from there stands still at the
end, stops at a spent budget, or makes the transition of its phase, whatever is
checked and recorded; it reaches a further state. -/
namespace Backjump

namespace Solver

/-- The state after so many calls of `step`, those that failed included. -/
def after : Nat → Solver → Solver
  | 0, s => s
  | n + 1, s => (after n s).step.2

theorem after_add (s : Solver) (i n : Nat) : s.after (i + n) = (s.after i).after n := by
  induction n with
  | zero => rfl
  | succ n ih =>
    change (s.after (i + n)).step.2 = _
    rw [ih]
    rfl

theorem after_succ (n : Nat) (s : Solver) : s.after (n + 1) = s.step.2.after n := by
  rw [Nat.add_comm, after_add]
  rfl

/-- A run ends in a state that so many calls of `step` lead to. -/
theorem exists_after_runUntil (goal : Phase → Bool) (limit : Nat) (s : Solver) :
    ∃ k ≤ limit, (s.runUntil goal limit).2 = s.after k := by
  induction limit generalizing s with
  | zero => exact ⟨0, Nat.le_refl _, rfl⟩
  | succ limit ih =>
    rw [runUntil]
    split
    · exact ⟨0, Nat.zero_le _, rfl⟩
    · cases stepped : s.step with
      | mk answer s' =>
        cases answer with
        | error fault => exact ⟨1, Nat.succ_le_succ (Nat.zero_le _), by rw [after, after, stepped]; rfl⟩
        | ok phase =>
          obtain ⟨k, few, ended⟩ := ih s'
          refine ⟨k + 1, Nat.succ_le_succ few, ?_⟩
          rw [after_succ, stepped, Attempt.andThen_ok, ← ended]
          generalize s'.runUntil goal limit = outcome
          obtain ⟨answer, s''⟩ := outcome
          cases answer <;> rfl

theorem exists_after_solve (s : Solver) : ∃ k, s.solve.2 = s.after k := by
  obtain ⟨k, -, ended⟩ := exists_after_runUntil (fun _ => false) (stepBound s.trail.scope.length) s
  refine ⟨k, ?_⟩
  rw [← ended, solve, finish]
  generalize s.runUntil _ _ = outcome
  obtain ⟨answer, s'⟩ := outcome
  cases answer <;> rfl

/-- What a step does: it stands still, finds the budget spent, or makes a transition. -/
inductive Steps (s : Solver) : Attempt Solver Phase → Prop where
  | halted : s.phase.isTerminal = true → Steps s (.ok s.phase, s)
  | spent {n : Nat} : s.phase.isTerminal = false → s.setup.budget = some n → s.steps = n →
      Steps s (.error (.budgetExhausted n), s)
  | moved {phase : Phase} {s' : Solver} : s.phase.isTerminal = false → s.exhausted = false →
      s.Transits phase s' → Steps s (.ok phase, (s'.enter phase).record)

end Solver

/-- What going back with a pending analysis leads to. -/
structure Solver.Lands (s : Solver) (a : Analysis) (s' : Solver) : Prop where
  pending : s.pending = some a
  positive : 0 < s.level
  explains : ∃ rest, a.Explains s.formula s.trail.entries s.level rest
  phase : s'.phase = .propagate
  level : s'.level = a.target
  clauses : s'.formula.clauses = s.formula.clauses ++ [a.clause]
  entries : s'.trail.entries = upTo a.target s.trail.entries
  urgent : s'.urgent? = some (s.formula.size, a.clause, some a.point.negate)

/-- A state that calls of `step` lead to. -/
structure Reached (setup : Setup) (f : Formula) (s : Solver) : Prop where
  stage : Stage setup f s
  affordable : ∀ n, setup.budget = some n → s.steps ≤ n
  silent : s.phase.isTerminal = false → s.verdict = none

variable {setup : Setup} {f : Formula} {s s' : Solver} {clash : Option Clash} {phase : Phase}
  {p : Problem} {s₀ : Solver}

namespace Solver

theorem Transits.steps_eq (transits : s.Transits phase s') : s'.steps = s.steps := by
  cases transits with
  | settled _ rounds =>
    obtain ⟨_, _, _, _, rfl⟩ := rounds.frame
    rfl
  | falsified _ rounds =>
    obtain ⟨_, _, _, _, rfl⟩ := rounds.frame
    rfl
  | _ => rfl

theorem Transits.verdict_eq (transits : s.Transits phase s') (running : phase.isTerminal = false) :
    s'.verdict = s.verdict := by
  cases transits with
  | settled _ rounds =>
    obtain ⟨_, _, _, _, rfl⟩ := rounds.frame
    rfl
  | falsified _ rounds =>
    obtain ⟨_, _, _, _, rfl⟩ := rounds.frame
    rfl
  | answered => contradiction
  | refuted => contradiction
  | _ => rfl

end Solver

namespace Stage

theorem record (stage : Stage setup f s) : Stage setup f s.record := by
  unfold Solver.record
  split
  · cases stage with
    | propagate phase searching =>
      exact .propagate phase (searching.congr ⟨rfl, rfl, rfl, rfl, rfl⟩ rfl)
    | fixpoint phase searching settled =>
      exact .fixpoint phase (searching.congr ⟨rfl, rfl, rfl, rfl, rfl⟩ rfl) settled
    | decide phase searching settled unfinished =>
      exact .decide phase (searching.congr ⟨rfl, rfl, rfl, rfl, rfl⟩ rfl) settled unfinished
    | conflict phase searching behind =>
      exact .conflict phase (searching.congr ⟨rfl, rfl, rfl, rfl, rfl⟩ rfl) behind
    | backtrack phase searching behind positive pending explains =>
      exact .backtrack phase (searching.congr ⟨rfl, rfl, rfl, rfl, rfl⟩ rfl) behind positive pending
        explains
    | satisfied phase searching settled total verdict keys values =>
      exact .satisfied phase (searching.congr ⟨rfl, rfl, rfl, rfl, rfl⟩ rfl) settled total verdict
        keys values
    | unsatisfiable phase searching behind ground verdict =>
      exact .unsatisfiable phase (searching.congr ⟨rfl, rfl, rfl, rfl, rfl⟩ rfl) behind ground verdict
  · exact stage

/-- A conflict is drawn exactly in the phases that expect one. -/
theorem exists_searching (stage : Stage setup f s) :
    ∃ clash, Searching setup f s clash ∧ clash.isSome = s.phase.expectsConflict := by
  cases stage with
  | propagate phase searching => exact ⟨_, searching, by rw [phase]; rfl⟩
  | fixpoint phase searching => exact ⟨_, searching, by rw [phase]; rfl⟩
  | decide phase searching => exact ⟨_, searching, by rw [phase]; rfl⟩
  | conflict phase searching => exact ⟨_, searching, by rw [phase]; rfl⟩
  | backtrack phase searching => exact ⟨_, searching, by rw [phase]; rfl⟩
  | satisfied phase searching => exact ⟨_, searching, by rw [phase]; rfl⟩
  | unsatisfiable phase searching => exact ⟨_, searching, by rw [phase]; rfl⟩

/-- In the other phases trail and graph show no conflict. -/
theorem searching_of_free (stage : Stage setup f s) (free : s.phase.expectsConflict = false) :
    Searching setup f s none := by
  obtain ⟨clash, searching, fits⟩ := stage.exists_searching
  rw [free, Option.isSome_eq_false_iff, Option.isNone_iff_eq_none] at fits
  exact fits ▸ searching

theorem checkInvariants_eq_ok (stage : Stage setup f s) : s.checkInvariants = .ok () := by
  obtain ⟨clash, searching, fits⟩ := stage.exists_searching
  exact searching.toCoherent.checkInvariants_eq_ok fits

/-- In the phases that expect a conflict the clash was found after all entries. -/
theorem exists_clash (stage : Stage setup f s) (expects : s.phase.expectsConflict = true) :
    ∃ k, Searching setup f s (some k) ∧ k.position = s.trail.entries.length := by
  cases stage with
  | conflict _ searching behind => exact ⟨_, searching, behind⟩
  | backtrack _ searching behind => exact ⟨_, searching, behind⟩
  | unsatisfiable _ searching behind => exact ⟨_, searching, behind⟩
  | propagate other | fixpoint other | decide other | satisfied other =>
    rw [other] at expects
    contradiction

/-- A refuted search stands at a clash without decisions. -/
theorem exists_refutation (stage : Stage setup f s) (phase : s.phase = .unsatisfiable) :
    ∃ k, Searching setup f s (some k) ∧ k.position = s.trail.entries.length ∧ s.level = 0 := by
  cases stage with
  | unsatisfiable _ searching behind ground => exact ⟨_, searching, behind, ground⟩
  | propagate other | fixpoint other | decide other | conflict other | backtrack other
  | satisfied other =>
    rw [phase] at other
    contradiction

/-- Above level zero the analysis of a conflict answers. -/
theorem exists_answer (stage : Stage setup f s) (phase : s.phase = .conflict) (positive : 0 < s.level) :
    ∃ k a point cut ahead passed, Searching setup f s (some k) ∧
      k.position = s.trail.entries.length ∧
      Analysis.Answers a s k point cut ahead passed := by
  obtain ⟨k, searching, behind⟩ := stage.exists_clash (by rw [phase]; rfl)
  obtain ⟨a, point, cut, ahead, passed, answers⟩ :=
    Analysis.exists_answer searching.toCoherent behind positive (searching.involved positive)
  exact ⟨k, a, point, cut, ahead, passed, searching, behind, answers⟩

/-- A search that is over has found a total settled trail, or a clash at level zero. -/
theorem halted_cases (stage : Stage setup f s) (halted : s.phase.isTerminal = true) :
    (∃ a, Searching setup f s none ∧ Settled s.formula s.trail.entries ∧ s.trail.unassigned = [] ∧
      s.verdict = some (.satisfiable a) ∧ a.keys = f.symbols ∧ a.get? = valuationOf s.trail.entries) ∨
    ∃ k, Searching setup f s (some k) ∧ k.position = s.trail.entries.length ∧ s.level = 0 ∧
      s.verdict = some .unsatisfiable := by
  cases stage with
  | satisfied _ searching settled total verdict keys values =>
    exact .inl ⟨_, searching, settled, total, verdict, keys, values⟩
  | unsatisfiable _ searching behind ground verdict =>
    exact .inr ⟨_, searching, behind, ground, verdict⟩
  | propagate phase => simp [phase, Phase.isTerminal] at halted
  | fixpoint phase => simp [phase, Phase.isTerminal] at halted
  | decide phase => simp [phase, Phase.isTerminal] at halted
  | conflict phase => simp [phase, Phase.isTerminal] at halted
  | backtrack phase => simp [phase, Phase.isTerminal] at halted

theorem setup_eq (stage : Stage setup f s) : s.setup = setup := by
  obtain ⟨clash, searching, -⟩ := stage.exists_searching
  exact searching.setup_eq

end Stage

namespace Solver

theorem phase_record (s : Solver) : s.record.phase = s.phase := by
  unfold record
  split <;> rfl

theorem steps_record (s : Solver) : s.record.steps = s.steps := by
  unfold record
  split <;> rfl

theorem verdict_record (s : Solver) : s.record.verdict = s.verdict := by
  unfold record
  split <;> rfl

theorem log_record (s : Solver) : s.record.log = s.log := by
  unfold record
  split <;> rfl

theorem exhausted_eq_true : s.exhausted = true ↔ ∃ n, s.setup.budget = some n ∧ n ≤ s.steps := by
  cases budget : s.setup.budget <;> simp [exhausted, budget]

theorem step_of_halted (halted : s.phase.isTerminal = true) : s.step = (.ok s.phase, s) := by
  rw [step, if_pos halted]

theorem step_of_spent (running : s.phase.isTerminal = false) (spent : s.exhausted = true) :
    s.step = (.error (.budgetExhausted s.steps), s) := by
  rw [step, if_neg (by simp [running]), if_pos spent]

theorem step_of_transition (running : s.phase.isTerminal = false) (affordable : s.exhausted = false)
    (moved : s.transition = (.ok phase, s')) (passes : (s'.enter phase).checkInvariants = .ok ()) :
    s.step = (.ok phase, (s'.enter phase).record) := by
  rw [step, if_neg (by simp [running]), if_neg (by simp [affordable]), moved]
  simp only [Attempt.andThen, enter] at passes ⊢
  simp only [passes, ite_self]

end Solver

namespace Reached

theorem start (setup : Setup) (f : Formula) : Reached setup f (Solver.start setup f) where
  stage := .propagate (Solver.phase_record _) (Searching.start setup f)
  affordable := by
    intro n _
    rw [Solver.start, Solver.steps_record]
    exact Nat.zero_le n
  silent := fun _ => Solver.verdict_record _

/-- A step from a reached state does one of three things and reaches a state again. -/
theorem step (reached : Reached setup f s) : s.Steps s.step ∧ Reached setup f s.step.2 := by
  cases running : s.phase.isTerminal with
  | true =>
    rw [Solver.step_of_halted running]
    exact ⟨.halted running, reached⟩
  | false =>
    cases spent : s.exhausted with
    | true =>
      obtain ⟨n, budget, low⟩ := Solver.exhausted_eq_true.mp spent
      have all : s.steps = n :=
        Nat.le_antisymm (reached.affordable n (reached.stage.setup_eq ▸ budget)) low
      rw [Solver.step_of_spent running spent, all]
      exact ⟨.spent running budget all, reached⟩
    | false =>
      obtain ⟨phase, s', moved, transits, stage⟩ := reached.stage.proceeds running
      rw [Solver.step_of_transition running spent moved stage.checkInvariants_eq_ok]
      refine ⟨.moved running spent transits, stage.record, ?_, ?_⟩
      · intro n budget
        rw [Solver.steps_record]
        change s'.steps + 1 ≤ n
        rw [transits.steps_eq]
        by_contra halted
        have spentNow : s.exhausted = true :=
          Solver.exhausted_eq_true.mpr ⟨n, reached.stage.setup_eq.symm ▸ budget, by omega⟩
        rw [spent] at spentNow
        contradiction
      · intro onward
        rw [Solver.phase_record] at onward
        rw [Solver.verdict_record]
        exact (transits.verdict_eq onward).trans (reached.silent running)

/-- Within the budget a step makes the transition of its phase. -/
theorem exists_transition (reached : Reached setup f s) (running : s.phase.isTerminal = false)
    (affordable : s.exhausted = false) :
    ∃ phase s', s.Transits phase s' ∧ s.step = (.ok phase, (s'.enter phase).record) := by
  have steps := reached.step.1
  generalize s.step = outcome at steps ⊢
  cases steps with
  | halted ended =>
    rw [running] at ended
    contradiction
  | spent _ budget all =>
    have spent : s.exhausted = true := Solver.exhausted_eq_true.mpr ⟨_, budget, Nat.le_of_eq all.symm⟩
    rw [affordable] at spent
    contradiction
  | moved _ _ transits => exact ⟨_, _, transits, rfl⟩

theorem exists_landing (reached : Reached setup f s) (phase : s.phase = .backtrack)
    (affordable : s.exhausted = false) :
    s.step.1 = .ok .propagate ∧ ∃ a, s.Lands a s.step.2 := by
  obtain ⟨next, s', transits, stepped⟩ := reached.exists_transition (by rw [phase]; rfl) affordable
  rw [stepped]
  cases transits with
  | @returned a rest trail graph undone _ positive pending explains _ entries urgent =>
    have same := Solver.sameTrail_record ((s.returned a trail graph undone).enter .propagate)
    have clauses : (s.returned a trail graph undone).formula.clauses = s.formula.clauses ++ [a.clause] :=
      Searching.clauses_returned explains
    exact ⟨rfl, a,
      { pending, positive
        explains := ⟨rest, explains⟩
        phase := Solver.phase_record _
        level := same.level
        clauses := by rw [same.formula]; exact clauses
        entries := by rw [same.trail]; exact entries
        urgent := by rw [Solver.urgent?, same.trail, same.formula]; exact urgent }⟩
  | settled other | falsified other | unfinished other | answered other | refuted other
  | analysed other | decided other =>
    rw [phase] at other
    contradiction

theorem after (reached : Reached setup f s) (n : Nat) : Reached setup f (s.after n) := by
  induction n with
  | zero => exact reached
  | succ n ih => exact ih.step.2

/-- What every step from a reached state keeps is kept along a run. -/
theorem keeps_after (holds : Solver → Prop) (reached : Reached setup f s) (initial : holds s)
    (keeps : ∀ {s : Solver}, Reached setup f s → holds s → holds s.step.2) (n : Nat) :
    holds (s.after n) := by
  induction n with
  | zero => exact initial
  | succ n ih => exact keeps (reached.after n) ih

theorem solve (reached : Reached setup f s) : Reached setup f s.solve.2 := by
  obtain ⟨k, ended⟩ := s.exists_after_solve
  rw [ended]
  exact reached.after k

end Reached

theorem Solver.Fresh.exists_reached (fresh : Solver.Fresh setup p s₀) :
    ∃ f, f.Renders p ∧ s₀ = Solver.start setup f ∧ ∀ n, Reached setup f (s₀.after n) := by
  obtain ⟨f, renders, rfl⟩ := fresh.exists_start
  exact ⟨f, renders, rfl, fun n => (Reached.start setup f).after n⟩

end Backjump
