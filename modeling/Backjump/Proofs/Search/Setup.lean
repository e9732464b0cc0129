import Backjump.Proofs.Search.Run

/-! No transition reads the setup: on the same state under another setup it gives
the same answer and the same changes. Only a step looks at budget and checks, and
a snapshot is kept or not. The checks pass on every reached state, so under
setups that keep the same records a step that both budgets allow or both forbid
is the same. -/
namespace Backjump

namespace Solver

variable {α β : Type} {setup setup' : Setup} {s s₀ : Solver} {l : Literal} {place : Nat} {c : Clause}
  {f : Formula} {p : Problem}

/-- The same state under another setup. -/
def withSetup (s : Solver) (setup : Setup) : Solver := { s with setup := setup }

/-- The same answer, with the state under another setup. -/
def relabel (setup : Setup) (r : Attempt Solver α) : Attempt Solver α := (r.1, r.2.withSetup setup)

@[simp] theorem trail_withSetup : (s.withSetup setup).trail = s.trail := rfl

@[simp] theorem graph_withSetup : (s.withSetup setup).graph = s.graph := rfl

@[simp] theorem decider_withSetup : (s.withSetup setup).decider = s.decider := rfl

@[simp] theorem level_withSetup : (s.withSetup setup).level = s.level := rfl

@[simp] theorem phase_withSetup : (s.withSetup setup).phase = s.phase := rfl

@[simp] theorem pending_withSetup : (s.withSetup setup).pending = s.pending := rfl

@[simp] theorem model_withSetup : (s.withSetup setup).model = s.model := rfl

theorem andThen_relabel {next : α → Solver → Attempt Solver β}
    (uniform : ∀ a s, next a (s.withSetup setup) = relabel setup (next a s)) (r : Attempt Solver α) :
    (relabel setup r).andThen next = relabel setup (r.andThen next) := by
  obtain ⟨answer, s⟩ := r
  cases answer with
  | error f => rfl
  | ok a => exact uniform a s

theorem imply_withSetup (s : Solver) (setup : Setup) (l : Literal) (place : Nat) (c : Clause) :
    (s.withSetup setup).imply l place c = relabel setup (s.imply l place c) := by
  simp only [imply, trail_withSetup, graph_withSetup, level_withSetup]
  cases s.trail.assign l s.level (some place) with
  | error f => rfl
  | ok trail =>
    dsimp only
    cases s.graph.addVertex l s.level false (some place) with
    | error f => rfl
    | ok graph =>
      dsimp only
      obtain ⟨answer, graph⟩ := graph.addEdgesInto (some l.symbol) (reasons c l)
      cases answer <;> rfl

theorem raiseConflict_withSetup (s : Solver) (setup : Setup) (place : Nat) (c : Clause) :
    (s.withSetup setup).raiseConflict place c = relabel setup (s.raiseConflict place c) := by
  simp only [raiseConflict, graph_withSetup, level_withSetup]
  obtain ⟨answer, graph⟩ := s.graph.addConflict s.level (some place) (c.symbols.map some)
  cases answer <;> rfl

theorem scan_withSetup (s : Solver) (setup : Setup) :
    (s.withSetup setup).scan = relabel setup s.scan := by
  -- Each round closes an open variable.
  induction open_ : s.trail.unassigned.length using Nat.strongRecOn generalizing s with
  | ind n ih =>
    rw [scan_eq_pursue, scan_eq_pursue s]
    change (s.withSetup setup).pursue (firstUrgent s.trail.valuation 0 s.formula.clauses) = _
    cases firstUrgent s.trail.valuation 0 s.formula.clauses with
    | none => rfl
    | some urgent =>
      obtain ⟨place, c, forced⟩ := urgent
      cases forced with
      | none =>
        rw [pursue, pursue, raiseConflict_withSetup]
        exact andThen_relabel (fun _ _ => rfl) _
      | some l =>
        rw [pursue, pursue, imply_withSetup]
        cases made : s.imply l place c with
        | mk answer s' =>
          cases answer with
          | error f => rfl
          | ok _ =>
            have fewer := Trail.length_unassigned_assign_lt (trail_of_imply made)
            exact ih s'.trail.unassigned.length (open_ ▸ fewer) s' rfl

theorem propagate_withSetup (s : Solver) (setup : Setup) :
    (s.withSetup setup).propagate = relabel setup s.propagate := by
  rw [propagate, propagate]
  change (if s.graph.conflict?.isSome then _ else _) = _
  split
  · rfl
  · exact scan_withSetup s setup

theorem decide_withSetup (s : Solver) (setup : Setup) :
    (s.withSetup setup).decide = relabel setup s.decide := by
  simp only [decide, decider_withSetup, trail_withSetup, graph_withSetup, level_withSetup]
  cases s.decider.pick s.trail with
  | none => rfl
  | some l =>
    dsimp only
    cases s.trail.assign l (s.level + 1) none with
    | error f => rfl
    | ok trail =>
      dsimp only
      cases s.graph.addVertex l (s.level + 1) true none <;> rfl

theorem settle_withSetup (s : Solver) (setup : Setup) :
    (s.withSetup setup).settle = relabel setup s.settle := by
  rw [settle, settle]
  change (if s.trail.unassigned ≠ [] then _ else _) = _
  split
  · rfl
  · rw [model_withSetup]
    cases s.model with
    | error f => rfl
    | ok m =>
      change (if !s.formula.isSatisfied m.get? then _ else _) =
        relabel setup (if !s.formula.isSatisfied m.get? then _ else _)
      split <;> rfl

theorem resolveConflict_withSetup (s : Solver) (setup : Setup) :
    (s.withSetup setup).resolveConflict = relabel setup s.resolveConflict := by
  rw [resolveConflict, resolveConflict]
  change (if s.level = 0 then _ else _) = relabel setup (if s.level = 0 then _ else _)
  split
  · rfl
  · simp only [analyze, graph_withSetup, trail_withSetup, level_withSetup]
    cases analyzeConflict s.graph s.trail s.level <;> rfl

theorem backjump_withSetup (s : Solver) (setup : Setup) :
    (s.withSetup setup).backjump = relabel setup s.backjump := by
  rw [backjump, backjump, pending_withSetup]
  cases s.pending with
  | none => rfl
  | some a =>
    simp only [backtrack, trail_withSetup]
    change Attempt.andThen (if a.target < 0 ∨ s.level < a.target then _ else _) _ = _
    split
    · rfl
    · obtain ⟨answer, trail⟩ := s.trail.truncate a.target
      cases answer <;> rfl

theorem transition_withSetup (s : Solver) (setup : Setup) :
    (s.withSetup setup).transition = relabel setup s.transition := by
  rw [transition, transition, phase_withSetup]
  cases s.phase with
  | propagate =>
    simp only [propagate_withSetup]
    exact andThen_relabel (fun _ _ => rfl) _
  | fixpoint => exact settle_withSetup s setup
  | conflict => exact resolveConflict_withSetup s setup
  | backtrack => exact backjump_withSetup s setup
  | decide =>
    simp only [decide_withSetup]
    exact andThen_relabel (fun _ _ => rfl) _
  | satisfied => rfl
  | unsatisfiable => rfl

theorem record_withSetup (records : setup.records = s.setup.records) :
    (s.withSetup setup).record = s.record.withSetup setup := by
  rw [record, record]
  change (if setup.records then _ else _) = _
  rw [records]
  split <;> rfl

theorem start_withSetup (strategy : setup'.strategy = setup.strategy)
    (records : setup'.records = setup.records) (f : Formula) :
    (start setup f).withSetup setup' = start setup' f := by
  have same : (blank setup f).withSetup setup' = blank setup' f := by
    rw [blank, blank, strategy]
    rfl
  have recorded := record_withSetup (s := blank setup f) records
  rw [same] at recorded
  exact recorded.symm

theorem Fresh.withSetup (fresh : Fresh setup p s₀) (strategy : setup'.strategy = setup.strategy)
    (records : setup'.records = setup.records) : Fresh setup' p (s₀.withSetup setup') := by
  cases fresh with
  | @ofInputs inputs _ denoted made =>
    refine .ofInputs denoted ?_
    obtain ⟨f, answered, -⟩ := Formula.exists_read denoted
    simp only [Solver.ofInputs, answered, Except.ok.injEq] at made ⊢
    rw [← made, start_withSetup strategy records]
  | @ofFormula f same =>
    rw [start_withSetup strategy records]
    exact .ofFormula same

end Solver

variable {setup setup' : Setup} {f : Formula} {s : Solver}

theorem Reached.step_withSetup (reached : Reached setup f s) (records : setup'.records = setup.records)
    (budget : (s.withSetup setup').exhausted = s.exhausted) :
    (s.withSetup setup').step = Solver.relabel setup' s.step := by
  cases running : s.phase.isTerminal with
  | true =>
    rw [Solver.step_of_halted running]
    exact Solver.step_of_halted running
  | false =>
    cases spent : s.exhausted with
    | true =>
      rw [Solver.step_of_spent running spent]
      exact Solver.step_of_spent running (budget.trans spent)
    | false =>
      obtain ⟨phase, s', moved, -, stage⟩ := reached.stage.proceeds running
      have passes := stage.checkInvariants_eq_ok
      have movedToo : (s.withSetup setup').transition = (.ok phase, s'.withSetup setup') := by
        rw [Solver.transition_withSetup, moved]
        rfl
      have recorded : ((s'.enter phase).withSetup setup').record =
          (s'.enter phase).record.withSetup setup' :=
        Solver.record_withSetup (records.trans (congrArg Setup.records stage.setup_eq).symm)
      have steppedToo : (s.withSetup setup').step =
          (.ok phase, ((s'.enter phase).withSetup setup').record) :=
        Solver.step_of_transition (s := s.withSetup setup') running (budget.trans spent) movedToo passes
      rw [Solver.step_of_transition running spent moved passes, steppedToo, recorded]
      rfl

end Backjump
