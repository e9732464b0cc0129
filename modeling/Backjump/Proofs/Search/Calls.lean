import Backjump.Proofs.Search.Invariant
import Backjump.Proofs.Solver.Picture

/-! Calls in any order. A caller may step, propagate, decide and go back to any
level with any clause, whatever the phase, and go on after a call that failed. A
call that fails changes nothing that trail and graph tell, or stops between two
moves; so after all calls the graph still shows the trail. -/
namespace Backjump

/-- What holds of the state after the first part and is kept by the second holds in the end. -/
theorem Attempt.andThen_keeps {σ α β : Type} {P : σ → Prop} {r : Attempt σ α}
    {next : α → σ → Attempt σ β} (holds : P r.2) (keeps : ∀ a s, P s → P (next a s).2) :
    P (r.andThen next).2 := by
  obtain ⟨answer, s⟩ := r
  cases answer with
  | error fault => exact holds
  | ok a => exact keeps a s holds

namespace Solver

/-- A call that changes a solver. -/
inductive Call where
  | step
  | propagate
  | decide
  | backtrack (target : Int) (learned : Option Clause)
  deriving DecidableEq

/-- The state after a call, whether it answers or fails. -/
def perform (s : Solver) : Call → Solver
  | .step => s.step.2
  | .propagate => s.propagate.2
  | .decide => s.decide.2
  | .backtrack target learned => (s.backtrack target learned).2

def afterCalls (s : Solver) (calls : List Call) : Solver := calls.foldl perform s

/-- Trail and graph describe one list of entries, with a conflict or without. -/
def Intact (s : Solver) : Prop := ∃ clash, s.Coherent clash

variable {s s' : Solver} {clash : Option Clash}

namespace Intact

theorem congr (intact : s.Intact) (trail : s'.trail = s.trail) (formula : s'.formula = s.formula)
    (level : s'.level = s.level) (graph : s'.graph = s.graph) : s'.Intact := by
  obtain ⟨clash, coherent⟩ := intact
  exact ⟨clash, coherent.congr trail formula level graph⟩

theorem propagate (intact : s.Intact) : s.propagate.2.Intact := by
  rw [Solver.propagate]
  split
  · exact intact
  · rename_i free
    obtain ⟨clash, coherent⟩ := intact
    rw [coherent.isSome_conflict?, Bool.not_eq_true, Option.isSome_eq_false_iff,
      Option.isNone_iff_eq_none] at free
    subst free
    obtain ⟨new, s₁, -, coherent₁, ⟨-, scanned⟩ | ⟨place, c, graph, -, scanned, drawn⟩ |
      ⟨place, c, l, fault, -, -, scanned⟩⟩ := coherent.scan_outcomes <;> rw [scanned]
    · exact ⟨_, coherent₁⟩
    · exact ⟨_, drawn⟩
    · exact ⟨_, coherent₁⟩

theorem decide (intact : s.Intact) : s.decide.2.Intact := by
  cases picked : s.decider.pick s.trail with
  | none =>
    rw [Solver.decide, picked]
    exact intact
  | some l =>
    obtain ⟨clash, coherent⟩ := intact
    obtain ⟨_, _, _, _, fresh, _⟩ := s.decider.pick_eq_some picked
    obtain ⟨graph, decided, drawn⟩ := coherent.decide_eq_ok picked fresh
    rw [decided]
    exact ⟨_, drawn⟩

theorem backtrack (intact : s.Intact) (target : Int) (learned : Option Clause) :
    (s.backtrack target learned).2.Intact := by
  by_cases outside : target < 0 ∨ s.level < target
  · rw [Solver.backtrack, if_pos outside]
    exact intact
  · obtain ⟨clash, coherent⟩ := intact
    have nonneg : 0 ≤ target := by omega
    have reached : target ≤ s.level := by omega
    obtain ⟨_, _, _, wentBack, -, -, cut⟩ := coherent.backtrack_eq_ok nonneg reached learned
    rw [wentBack]
    exact ⟨_, cut⟩

theorem settle (intact : s.Intact) : s.settle.2.Intact := by
  rw [Solver.settle]
  split
  · exact intact
  · split
    · exact intact
    · split
      · exact intact
      · exact intact.congr rfl rfl rfl rfl

theorem resolveConflict (intact : s.Intact) : s.resolveConflict.2.Intact := by
  rw [Solver.resolveConflict]
  split
  · exact intact.congr rfl rfl rfl rfl
  · apply Attempt.andThen_keeps (P := Intact)
    · rw [analyze]
      split <;> exact intact.congr rfl rfl rfl rfl
    · exact fun _ _ analysed => analysed.congr rfl rfl rfl rfl

theorem backjump (intact : s.Intact) : s.backjump.2.Intact := by
  rw [Solver.backjump]
  split
  · exact intact
  · have unpended : Intact { s with pending := none } := intact.congr rfl rfl rfl rfl
    exact Attempt.andThen_keeps (unpended.backtrack _ _) fun _ _ wentBack => wentBack

theorem transition (intact : s.Intact) : s.transition.2.Intact := by
  rw [Solver.transition]
  split
  · exact Attempt.andThen_keeps intact.propagate fun _ _ propagated => propagated
  · exact intact.settle
  · exact intact.resolveConflict
  · exact intact.backjump
  · exact Attempt.andThen_keeps intact.decide fun _ _ decided => decided
  · exact intact

/-- A step keeps trail and graph in one, also when its transition or the check after it fails. -/
theorem step (intact : s.Intact) : s.step.2.Intact := by
  rw [Solver.step]
  split
  · exact intact
  · split
    · exact intact
    · refine Attempt.andThen_keeps intact.transition fun phase s moved => ?_
      have entered : (s.enter phase).Intact := moved.congr rfl rfl rfl rfl
      have recorded : (s.enter phase).record.Intact :=
        have same := sameTrail_record (s.enter phase)
        entered.congr same.trail same.formula same.level (graph_record _)
      dsimp only
      split
      · exact entered
      · exact recorded

theorem perform (intact : s.Intact) (call : Call) : (s.perform call).Intact := by
  cases call with
  | step => exact intact.step
  | propagate => exact intact.propagate
  | decide => exact intact.decide
  | backtrack target learned => exact intact.backtrack target learned

theorem afterCalls (intact : s.Intact) (calls : List Call) : (s.afterCalls calls).Intact := by
  induction calls generalizing s with
  | nil => exact intact
  | cons call rest ih => exact ih (intact.perform call)

end Intact

theorem Fresh.intact {setup : Setup} {p : Problem} (fresh : Fresh setup p s) : s.Intact := by
  obtain ⟨f, -, rfl⟩ := fresh.exists_start
  exact ⟨none, (Searching.start setup f).toCoherent⟩

/-- A state that calls lead to, from a solver of any problem. -/
inductive InUse : Solver → Prop where
  | afterCalls {setup : Setup} {p : Problem} {s₀ : Solver} (fresh : Fresh setup p s₀)
      (calls : List Call) : InUse (s₀.afterCalls calls)

theorem InUse.intact (used : s.InUse) : s.Intact := by
  cases used with
  | afterCalls fresh calls => exact fresh.intact.afterCalls calls

/-- Whatever was called in whatever order, the graph shows the trail and what the formula says of
it. States with the same formula have the same graph if they have the same vertices, or the same
trail and no conflict. -/
theorem graph_shows_trail_and_formula (used : s.InUse) : s.Pictured ∧ ∀ s' : Solver, s'.InUse →
    s'.formula = s.formula →
      (s'.graph.vertices = s.graph.vertices → s'.graph = s.graph) ∧
      (s'.trail.entries = s.trail.entries → s'.graph.conflict? = none → s.graph.conflict? = none →
        s'.graph = s.graph) := by
  obtain ⟨clash, coherent⟩ := used.intact
  refine ⟨coherent.pictured, fun s' used' formula => ?_⟩
  obtain ⟨clash', coherent'⟩ := used'.intact
  have unique := coherent.graph_unique coherent' formula
  refine ⟨unique, fun entries free' free => unique ?_⟩
  rw [coherent'.vertices_eq_of_free free', coherent.vertices_eq_of_free free, entries]

/-- Both clauses of 1 and 2 cannot hold once 1 is decided; 3 is then decided beside the conflict. -/
theorem graph_shows_trail_and_formula_of_conflict :
    ∃ s₀ s, s₀ = start ⟨.ordered, none, true, false⟩ (.ofProblem (.ofInts [[-1, 2], [-1, -2], [3, 4]])) ∧
      s = s₀.afterCalls [.decide, .propagate, .decide] ∧
      s.step.1 = .error (.violation .conflictPending) ∧
      (s.backtrack 9 none).1 = .error (.violation (.targetAbove 9 2)) ∧ s.Pictured ∧
      (s₀.afterCalls [.decide, .propagate, .decide, .step, .backtrack 9 none]).graph = s.graph := by
  have fresh := fresh_ofProblem ⟨.ordered, none, true, false⟩ (.ofInts [[-1, 2], [-1, -2], [3, 4]])
  obtain ⟨pictured, same⟩ :=
    graph_shows_trail_and_formula (.afterCalls fresh [.decide, .propagate, .decide])
  have further := InUse.afterCalls fresh [.decide, .propagate, .decide, .step, .backtrack 9 none]
  exact ⟨_, _, rfl, rfl, by decide +kernel, by decide +kernel, pictured,
    (same _ further (by decide +kernel)).1 (by decide +kernel)⟩

end Solver

end Backjump
