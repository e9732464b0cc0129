import Backjump.Proofs.Search.Answer
import Backjump.Proofs.Search.Levels

/-! What the trail says follows from the problem and the decisions. An assignment
that makes the clauses of the problem true and the decisions up to a level makes
true every entry up to that level, and while a conflict stands it cannot make all
decisions true. It need not give every variable a value: a literal that it leaves
open is false in one of the interpretations it fits. -/
namespace Backjump

variable {setup : Setup} {f : Formula} {p : Problem} {s s₀ : Solver} {clash : Option Clash}
  {v : Valuation} {m : Interpretation} {l : Literal} {e : Entry}

/-- The values make a literal of every clause true, whatever the variables without a value are. -/
def Problem.TrueUnder (p : Problem) (v : Valuation) : Prop := ∀ c ∈ p, ∃ l ∈ c, l.value v = some true

/-- The values, with one for all other variables. -/
def Valuation.completed (v : Valuation) (b : Bool) : Interpretation := fun x => (v x).getD b

theorem Valuation.fits_completed (v : Valuation) (b : Bool) : v.Fits (v.completed b) := by
  intro x b' known
  rw [completed, known, Option.getD_some]

theorem Problem.TrueUnder.models (satisfied : p.TrueUnder v) (fits : v.Fits m) : p.Models m := by
  intro c member
  obtain ⟨l, listed, made⟩ := satisfied c member
  exact ⟨l, listed, Literal.trueIn_of_value fits made⟩

/-- A literal that is true in all interpretations which the values fit is true under them. -/
theorem Literal.value_eq_true_of_fits (always : ∀ m, v.Fits m → l.TrueIn m) :
    l.value v = some true := by
  have made := always _ (v.fits_completed !l.positive)
  rw [TrueIn, Valuation.completed] at made
  rw [value_eq_true]
  cases known : v l.symbol with
  | none => simp [known] at made
  | some b => simpa [known] using made

/-- Values that only fit models of the formula make an entry true if they make the decisions up to its
level true. -/
theorem Searching.value_of_decisions (searching : Searching setup f s clash)
    (model : ∀ m, v.Fits m → f.TrueIn m) (member : e ∈ s.trail.entries)
    (decided : ∀ d ∈ s.trail.entries, d.isDecision = true → 1 ≤ d.level → d.level ≤ e.level →
      d.literal.value v = some true) : e.literal.value v = some true := by
  refine Literal.value_eq_true_of_fits fun m fits => ?_
  refine searching.trueIn_of_decisions (model m fits) ?_ e member (Int.le_refl _)
  intro d held decision low
  have opened := searching.layered.level_pos_of_decision held decision
  exact Literal.trueIn_of_value fits (decided d held decision opened low)

/-- After any number of steps, an assignment that makes the problem true makes a trail literal true
if it does so with the decisions up to the level of that literal, and every literal of level zero.
In a conflict or before going back it leaves a decision on the trail false or open. -/
theorem trail_entailed_by_decisions (fresh : Solver.Fresh setup p s₀) {n : Nat} (ran : s₀.after n = s)
    (satisfied : p.TrueUnder v) :
    (∀ e ∈ s.trail.entries, (∀ d ∈ s.trail.entries, d.isDecision = true → 1 ≤ d.level →
        d.level ≤ e.level → d.literal.value v = some true) → e.literal.value v = some true) ∧
    (∀ e ∈ s.trail.entries, e.level = 0 → e.literal.value v = some true) ∧
    (s.phase = .conflict ∨ s.phase = .backtrack →
      ∃ d ∈ s.trail.entries, d.isDecision = true ∧ d.literal.value v ≠ some true) := by
  obtain ⟨f, renders, rfl, reached⟩ := fresh.exists_reached
  have stage := (ran ▸ reached n).stage
  have model : ∀ m, v.Fits m → f.TrueIn m := fun m fits =>
    (renders.trueIn_iff m).mpr (satisfied.models fits)
  obtain ⟨clash, searching, -⟩ := stage.exists_searching
  refine ⟨fun e member decided => searching.value_of_decisions model member decided, ?_, ?_⟩
  · intro e member ground
    exact searching.value_of_decisions model member fun d _ _ positive low => by omega
  · intro phase
    have expects : s.phase.expectsConflict = true := by
      rcases phase with phase | phase <;> rw [phase] <;> rfl
    obtain ⟨k, clashing, behind⟩ := stage.exists_clash expects
    have fits := v.fits_completed true
    obtain ⟨d, held, decision, unmade⟩ := clashing.exists_false_decision behind (model _ fits)
    exact ⟨d, held, decision, fun made => unmade (Literal.trueIn_of_value fits made)⟩

/-- With 1 alone the clauses of the funnel are true, whatever 5 is. In the conflict 2 is decided too;
after going back 1 entails the learned literal. -/
theorem trail_entailed_by_decisions_of_funnel :
    ∃ v : Valuation, v (.number 5) = none ∧ Problem.funnel.TrueUnder v ∧
      (∃ d ∈ Solver.funnelled.trail.entries, d.isDecision = true ∧ d.literal.value v ≠ some true) ∧
      ∃ s, s = (Solver.start ⟨.ordered, none, true, false⟩ (.ofProblem .funnel)).after 10 ∧
        s.trail.entries.map Entry.literal = [⟨.number 1, true⟩, ⟨.number 3, false⟩, ⟨.number 2, false⟩] ∧
        ∀ e ∈ s.trail.entries, e.literal.value v = some true := by
  let v : Valuation := (OrderedMap.ofList [(.number 1, true), (.number 2, false), (.number 3, false),
    (.number 4, false)]).get?
  have fresh := Solver.fresh_ofProblem ⟨.ordered, none, true, false⟩ .funnel
  have satisfied : Problem.funnel.TrueUnder v := by
    unfold Problem.TrueUnder
    decide +kernel
  have refused := (trail_entailed_by_decisions fresh rfl satisfied).2.2 (.inl Solver.phase_funnelled)
  have entailed := (trail_entailed_by_decisions fresh (n := 10) rfl satisfied).1
  have decided : ∀ d ∈ ((Solver.start ⟨.ordered, none, true, false⟩
      (.ofProblem .funnel)).after 10).trail.entries,
      d.isDecision = true → d.literal.value v = some true := by
    decide +kernel
  refine ⟨v, by decide, satisfied, refused, _, rfl, by decide +kernel, fun e member => ?_⟩
  exact entailed e member fun d held decision _ _ => decided d held decision

end Backjump
