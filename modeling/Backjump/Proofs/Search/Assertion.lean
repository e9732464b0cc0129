import Backjump.Proofs.Search.Levels

/-! A learned clause asserts at once. Where going back lands, every older clause has
two open literals or a true one, and the learned clause, the last of the formula,
has its first literal open and no other. So the propagation that follows begins
with this literal, whatever it does then. -/
namespace Backjump

namespace Solver

/-- Of the old clauses none is falsified or unit, and the clause forces the literal. -/
structure Asserts (s : Solver) (old : Formula) (c : Clause) (l : Literal) : Prop where
  clauses : s.formula.clauses = old.clauses ++ [c]
  calm : ∀ d ∈ old.clauses, d.openLiterals? s.trail.valuation ≠ some [] ∧
    ∀ k, d.openLiterals? s.trail.valuation ≠ some [k]
  unit : c.openLiterals? s.trail.valuation = some [l]

/-- The first thing done since the earlier state is that the clause of a place forced a literal. -/
structure BeginsWith (s' s : Solver) (place : Nat) (l : Literal) : Prop where
  formula : s'.formula = s.formula
  entries : ∃ new, s'.trail.entries = s.trail.entries ++ s.trail.nextEntry l s.level (some place) :: new
  reported : (s.log.push (.implied place l s.level)).toList <+: s'.log.toList

end Solver

variable {setup : Setup} {f : Formula} {p : Problem} {s s₀ s₁ s₂ : Solver} {a : Analysis} {c : Clause}
  {l : Literal} {place : Nat} {v : Valuation}

/-- The target lies below the level of the conflict, where no old clause was urgent. -/
theorem Solver.Lands.asserts {clash clash' : Option Clash} (lands : s.Lands a s₁)
    (searching : Searching setup f s clash) (coherent : s₁.Coherent clash') :
    s₁.Asserts s.formula a.clause a.point.negate := by
  obtain ⟨rest, explains⟩ := lands.explains
  have distinct := searching.trail.distinct
  have values : s₁.trail.valuation = valuationOf (upTo a.target s.trail.entries) := by
    rw [coherent.trail.valuation_eq, lands.entries]
  refine ⟨lands.clauses, fun d member => ?_, ?_⟩
  · rw [values]
    apply Clause.openLiterals?_of_calm
    exact searching.settled a.target (explains.target_nonneg searching.layered.level_nonneg)
      (explains.target_lt distinct lands.positive) d member
  · rw [values, Clause.openLiterals?_eq_singleton]
    exact explains.forces distinct lands.positive

/-- Propagation begins with what is forced at its start. -/
theorem Reached.step_beginsWith (reached : Reached setup f s) (phase : s.phase = .propagate)
    (affordable : s.exhausted = false) (urgent : s.urgent? = some (place, c, some l)) :
    (s.step.1 = .ok .fixpoint ∨ s.step.1 = .ok .conflict) ∧ s.step.2.BeginsWith s place l := by
  obtain ⟨next, s', transits, stepped⟩ := reached.exists_transition (by rw [phase]; rfl) affordable
  obtain ⟨new, ended, rounds, same, reported, outcome⟩ := transits.exists_rounds phase
  obtain ⟨unforced, answer⟩ : (∀ place c l, ended.urgent? ≠ some (place, c, some l)) ∧
      (next = .fixpoint ∨ next = .conflict) := by
    rcases outcome with ⟨answer, calm⟩ | ⟨answer, place, c, falsified⟩
    · exact ⟨by simp [calm], .inl answer⟩
    · exact ⟨by simp [falsified], .inr answer⟩
  obtain ⟨later, graph, rfl, onward⟩ := rounds.exists_first urgent unforced
  have entered := Solver.sameTrail_record (s'.enter next)
  rw [stepped]
  refine ⟨answer.imp (congrArg _) (congrArg _), ?_, ⟨later, ?_⟩, ?_⟩
  · rw [entered.formula]
    exact same.formula.trans rounds.formula_eq
  · rw [entered.trail]
    change s'.trail.entries = _
    rw [same.trail, rounds.entries_eq]
  · rw [Solver.log_record]
    exact onward.log_prefix.trans reported

/-- Going back lands on the target level with the learned clause as the last one and the only one
that is unit, none being falsified, and the next step first makes its first literal true. -/
theorem learned_clause_asserts_at_once (fresh : Solver.Fresh setup p s₀) {n : Nat}
    (ran : s₀.after n = s) (phase : s.phase = .backtrack) (affordable : s.exhausted = false)
    (landed : s.step.2 = s₁) (affordable₁ : s₁.exhausted = false) (propagated : s₁.step.2 = s₂) :
    s.step.1 = .ok .propagate ∧ ∃ a l rest, s.pending = some a ∧ a.clause.literals = l :: rest ∧
      s₁.level = a.target ∧ s₁.Asserts s.formula a.clause l ∧
      (s₁.step.1 = .ok .fixpoint ∨ s₁.step.1 = .ok .conflict) ∧ s₂.BeginsWith s₁ s.formula.size l := by
  obtain ⟨f, -, rfl, reached⟩ := fresh.exists_reached
  have reached := ran ▸ reached n
  obtain ⟨clash, searching, -⟩ := reached.stage.exists_searching
  obtain ⟨answer, a, lands⟩ := reached.exists_landing phase affordable
  have reached₁ := reached.step.2
  rw [landed] at lands reached₁
  obtain ⟨clash₁, searching₁, -⟩ := reached₁.stage.exists_searching
  obtain ⟨rest, explains⟩ := lands.explains
  have begins := reached₁.step_beginsWith lands.phase affordable₁ lands.urgent
  rw [propagated] at begins
  exact ⟨answer, a, a.point.negate, rest, lands.pending, explains.literals, lands.level,
    lands.asserts searching searching₁.toCoherent, begins⟩

/-- In the funnel the clause of ¬3 and ¬1 is learned as the sixth, on the way back to the first level. -/
theorem learned_clause_asserts_at_once_of_funnel :
    ∃ s c, s = Solver.funnelled.step.2 ∧ s.step.2.level = 1 ∧
      c.literals = [⟨.number 3, false⟩, ⟨.number 1, false⟩] ∧
      s.step.2.Asserts s.formula c ⟨.number 3, false⟩ ∧
      s.step.2.step.1 = .ok .fixpoint ∧ s.step.2.step.2.BeginsWith s.step.2 5 ⟨.number 3, false⟩ := by
  have fresh := Solver.fresh_ofProblem ⟨.ordered, none, true, false⟩ .funnel
  have ran : (Solver.start ⟨.ordered, none, true, false⟩ (.ofProblem .funnel)).after 8 =
      Solver.funnelled.step.2 := rfl
  obtain ⟨-, a, l, rest, pending, literals, -, asserts, -, begins⟩ :=
    learned_clause_asserts_at_once fresh ran (by decide +kernel) (by decide +kernel) rfl
      (by decide +kernel) rfl
  have learned : Solver.funnelled.step.2.pending.map (fun a => a.clause.literals) =
      some [⟨.number 3, false⟩, ⟨.number 1, false⟩] := by decide +kernel
  rw [pending, Option.map_some, Option.some.injEq, literals, List.cons.injEq] at learned
  obtain ⟨rfl, rfl⟩ := learned
  have place : Solver.funnelled.step.2.formula.size = 5 := by decide +kernel
  rw [place] at begins
  exact ⟨_, a.clause, rfl, by decide +kernel, literals, asserts, by decide +kernel, begins⟩

end Backjump
