import Backjump.Proofs.Decider.Sequence
import Backjump.Proofs.Search.Answer

/-! Which model a search answers. Variables are decided in a fixed order with fixed
polarities, so every entry that is no decision follows from decisions on variables
earlier in the order, however the search went back and whatever it learned. The
answer is therefore the best model: where another model differs first, the answer
has the preferred polarity. The order of first appearance with true preferred
makes it the lexicographically greatest model. -/
namespace Backjump

variable {setup : Setup} {f : Formula} {s s₀ : Solver} {p q : Problem} {strategy : Strategy}
  {a : OrderedMap Symbol Bool} {b m : Interpretation} {clash : Option Clash} {e : Entry} {v : Symbol}

/-- The weights of a variable's literals in the clauses of the problem. -/
def Problem.weights (p : Problem) (v : Symbol) : Weights :=
  ((Formula.ofProblem p).weights.get? v).getD .none

/-- The variables as a heuristic orders them: by first appearance, or stably by descending score. -/
def Strategy.order (strategy : Strategy) (p : Problem) : List Symbol :=
  match strategy with
  | .ordered => p.symbols
  | .jeroslow => p.symbols.mergeSort fun x y => (p.weights y).score ≤ (p.weights x).score

/-- The polarity that a heuristic prefers: true, or the one that scores better. -/
def Strategy.polarity (strategy : Strategy) (p : Problem) (v : Symbol) : Bool :=
  match strategy with
  | .ordered => true
  | .jeroslow => (p.weights v).polarity

/-- A model that has the preferred polarity wherever another model differs from it first. -/
structure Problem.BestModel (p : Problem) (order : List Symbol) (polarity : Symbol → Bool)
    (b : Interpretation) : Prop where
  models : p.Models b
  preferred : ∀ m, p.Models m → ∀ before v after, order = before ++ v :: after →
    (∀ x ∈ before, b x = m x) → b v ≠ m v → b v = polarity v

variable {order : List Symbol} {polarity : Symbol → Bool}

theorem exists_first_difference (differ : ∃ v ∈ order, b v ≠ m v) :
    ∃ before v after, order = before ++ v :: after ∧ (∀ x ∈ before, b x = m x) ∧ b v ≠ m v := by
  induction order with
  | nil => simp at differ
  | cons x rest ih =>
    by_cases same : b x = m x
    · obtain ⟨v, member, different⟩ := differ
      have later : v ∈ rest := by
        rcases List.mem_cons.mp member with rfl | later
        · exact absurd same different
        · exact later
      obtain ⟨before, v, after, rfl, agree, first⟩ := ih ⟨v, later, different⟩
      exact ⟨x :: before, v, after, rfl, by simpa using ⟨same, agree⟩, first⟩
    · exact ⟨[], x, rest, rfl, by simp, same⟩

/-- Problems with the same models have the same best model. -/
theorem Problem.BestModel.unique (best : p.BestModel order polarity b)
    (best' : q.BestModel order polarity m) (same : ∀ m, p.Models m ↔ q.Models m) :
    ∀ v ∈ order, b v = m v := by
  by_contra differ
  push Not at differ
  obtain ⟨before, v, after, split, agree, first⟩ := exists_first_difference differ
  have mine := best.preferred m ((same m).mpr best'.models) before v after split agree first
  have yours := best'.preferred b ((same b).mp best.models) before v after split
    (fun x earlier => (agree x earlier).symm) first.symm
  exact first (mine.trans yours.symm)

/-- An element behind another one has it among the elements before. -/
theorem mem_before_of_split {before after before' after' : List Symbol} {x : Symbol}
    (split : order = before ++ v :: after) (split' : order = before' ++ x :: after')
    (notBefore : v ∉ before') (different : x ≠ v) : x ∈ before := by
  rw [split] at split'
  rcases List.append_eq_append_iff.mp split' with ⟨gap, rfl, rest⟩ | ⟨gap, rfl, rest⟩
  · cases gap with
    | nil => exact absurd (List.cons.inj rest).1.symm different
    | cons y gap =>
      obtain ⟨rfl, -⟩ := List.cons.inj rest
      simp at notBefore
  · cases gap with
    | nil => exact absurd (List.cons.inj rest).1 different
    | cons y gap =>
      obtain ⟨rfl, -⟩ := List.cons.inj rest
      simp

namespace Searching

/-- A decision no later than an implied entry is on a variable of higher priority. -/
theorem decided_before (searching : Searching setup f s clash) {d : Entry}
    (member : e ∈ s.trail.entries) (implied : e.isDecision = false) (held : d ∈ s.trail.entries)
    (decision : d.isDecision = true) (low : d.level ≤ e.level) {before after : List Symbol}
    (split : s.decider.priority = before ++ e.symbol :: after) : d.symbol ∈ before := by
  obtain ⟨front, back, cut, chosen⟩ := searching.chosen.exists_split held
  obtain ⟨-, before', after', split', assigned⟩ := chosen decision
  apply mem_before_of_split split split'
  · intro earlier
    obtain ⟨e', inFront, same⟩ := assigned e.symbol earlier
    have layered := searching.layered
    rw [cut] at layered
    have lower := layered.level_lt_of_decision decision e' inFront
    rw [searching.eq_of_symbol (by simp [cut, inFront]) member same] at lower
    omega
  · intro same
    change d.symbol = e.symbol at same
    rw [searching.eq_of_symbol held member same, implied] at decision
    contradiction

/-- Where a model of the formula differs first from the trail, the trail made a decision. -/
theorem isDecision_of_difference (searching : Searching setup f s clash) (model : f.TrueIn m)
    (member : e ∈ s.trail.entries) {before after : List Symbol}
    (split : s.decider.priority = before ++ e.symbol :: after)
    (agree : ∀ e' ∈ s.trail.entries, e'.symbol ∈ before → e'.literal.TrueIn m)
    (differ : ¬e.literal.TrueIn m) : e.isDecision = true := by
  by_contra implied
  rw [Bool.not_eq_true] at implied
  apply differ
  apply searching.trueIn_of_decisions model (n := e.level) ?_ e member (Int.le_refl _)
  intro d held decision low
  exact agree d held (searching.decided_before member implied held decision low split)

theorem positive_of_decision (searching : Searching setup f s clash) (member : e ∈ s.trail.entries)
    (decision : e.isDecision = true) : e.literal.positive = s.decider.prefers e.symbol := by
  obtain ⟨_, _, -, chosen⟩ := searching.chosen.exists_split member
  exact (chosen decision).1

end Searching

namespace Formula

theorem weights_congr {g : Formula} (same : f.clauses.map Clause.literals = g.clauses.map Clause.literals) :
    f.weights = g.weights := by
  have symbols : f.symbols = g.symbols := by
    have flat (f : Formula) : f.clauses.flatMap Clause.symbols =
        (f.clauses.map Clause.literals).flatMap (·.map Literal.symbol) := by
      rw [List.flatMap_map]
      rfl
    rw [Formula.symbols, Formula.symbols, flat, flat, same]
  have byLiterals (clauses : List Clause) (start : OrderedMap Symbol Weights) :
      clauses.foldl (fun weights c => c.literals.foldl (fun weights l =>
          weights.adjust l.symbol fun w => w.add l.positive (Score.weight c.size)) weights) start =
        (clauses.map Clause.literals).foldl (fun weights ls => ls.foldl (fun weights l =>
          weights.adjust l.symbol fun w => w.add l.positive (Score.weight ls.length)) weights) start := by
    rw [List.foldl_map]
    rfl
  rw [weights, weights, symbols, byLiterals, byLiterals, same]

theorem Renders.weights_eq (renders : f.Renders p) : f.weights = (ofProblem p).weights :=
  weights_congr (renders.map_literals.trans (renders_ofProblem p).map_literals.symm)

theorem Renders.weightsOf_eq (renders : f.Renders p) : f.weightsOf = p.weights := by
  funext v
  rw [weightsOf, renders.weights_eq, Problem.weights]

end Formula

namespace Decider

theorem priority_make (renders : f.Renders p) : (make strategy f).priority = strategy.order p := by
  rw [ranking_make]
  cases strategy with
  | ordered => exact renders.symbols_eq
  | jeroslow =>
    rw [Strategy.ranking, Strategy.order, renders.symbols_eq]
    unfold Formula.score
    rw [renders.weightsOf_eq]

theorem prefers_make (renders : f.Renders p) :
    (make strategy f).prefers v = strategy.polarity p v := by
  cases strategy with
  | ordered => rfl
  | jeroslow =>
    rw [make, prefers, Strategy.polarity, Problem.weights, ← renders.weights_eq]
    cases f.weights.get? v <;> rfl

end Decider

theorem Strategy.order_perm (strategy : Strategy) (p : Problem) :
    (strategy.order p).Perm p.symbols := by
  have renders := Formula.renders_ofProblem p
  rw [← Decider.priority_make renders, ← renders.symbols_eq]
  exact Decider.priority_perm strategy _

/-- The trail of a satisfied search is the best model. -/
theorem Searching.bestModel (searching : Searching setup f s none) (renders : f.Renders p)
    (settled : Settled s.formula s.trail.entries) (total : s.trail.unassigned = [])
    (values : a.get? = valuationOf s.trail.entries) :
    p.BestModel (setup.strategy.order p) (setup.strategy.polarity p) (.ofMap a) := by
  have distinct := searching.trail.distinct
  have value {e : Entry} (member : e ∈ s.trail.entries) :
      Interpretation.ofMap a e.symbol = e.literal.positive :=
    Interpretation.ofMap_of_get? (values ▸ valuationOf_of_mem distinct member)
  have fits : (valuationOf s.trail.entries).Fits (.ofMap a) := fun x b known =>
    Interpretation.ofMap_of_get? (values ▸ known)
  refine ⟨(renders.trueIn_iff _).mp (searching.trueIn_of_total settled total fits), ?_⟩
  intro m models before v after split agree differ
  rw [← Decider.priority_make renders, ← searching.decider_eq] at split
  have inScope : v ∈ s.trail.scope := by
    rw [← searching.mem_priority, split]
    simp
  obtain ⟨e, member, rfl⟩ : ∃ e ∈ s.trail.entries, e.symbol = v := by
    by_contra unheld
    have open_ := (searching.trail.unassigned v).mpr
      ⟨inScope, fun e member same => unheld ⟨e, member, same⟩⟩
    simp [total] at open_
  have decision : e.isDecision = true := by
    refine searching.isDecision_of_difference ((renders.trueIn_iff m).mpr models) member split ?_ ?_
    · intro e' held earlier
      exact (agree e'.symbol earlier).symm.trans (value held)
    · intro made
      exact differ ((value member).trans made.symm)
  rw [value member, searching.positive_of_decision member decision, searching.decider_eq,
    Decider.prefers_make renders]

theorem Reached.bestModel (reached : Reached setup f s) (renders : f.Renders p)
    (halted : s.phase.isTerminal = true) (verdict : s.verdict = some (.satisfiable a)) :
    p.BestModel (setup.strategy.order p) (setup.strategy.polarity p) (.ofMap a) ∧
      a.keys = p.symbols := by
  obtain ⟨a', searching, settled, total, answer, keys, values⟩ | ⟨_, -, -, -, answer⟩ :=
    reached.stage.halted_cases halted
  · obtain ⟨⟩ : Verdict.satisfiable a' = .satisfiable a := Option.some.inj (answer.symm.trans verdict)
    exact ⟨searching.bestModel renders settled total values, keys.trans renders.symbols_eq⟩
  · rw [answer] at verdict
    cases verdict

theorem entries_eq_map (a : OrderedMap Symbol Bool) :
    a.entries = a.keys.map fun x => (x, Interpretation.ofMap a x) := by
  rw [OrderedMap.keys, List.map_map]
  conv_lhs => rw [← List.map_id a.entries]
  apply List.map_congr_left
  intro pair member
  have found : a.get? pair.1 = some pair.2 := OrderedMap.get?_eq_some_iff.mpr member
  simp [Interpretation.ofMap_of_get? found]

theorem eq_of_agree {a' : OrderedMap Symbol Bool} (keys : a'.keys = a.keys)
    (agree : ∀ x ∈ a.keys, Interpretation.ofMap a' x = Interpretation.ofMap a x) : a' = a := by
  apply OrderedMap.ext
  rw [entries_eq_map, entries_eq_map a, keys]
  exact List.map_congr_left fun x member => congrArg (x, ·) (agree x member)

/-- A satisfying answer is the best model in the order and the polarities of the heuristic. With
the order of first appearance, problems with the same variables and the same models get the same
answer. -/
theorem answer_is_best_model (fresh : Solver.Fresh setup p s₀) (n : Nat)
    (returned : (s₀.after n).solve.1 = .ok (some (.satisfiable a))) :
    (setup.strategy.order p).Perm p.symbols ∧ p.SolvedBy a ∧
    p.BestModel (setup.strategy.order p) (setup.strategy.polarity p) (.ofMap a) ∧
    ∀ {other q s₁ k answer}, setup.strategy = .ordered → other.strategy = .ordered →
      Solver.Fresh other q s₁ → q.symbols = p.symbols → (∀ m, q.Models m ↔ p.Models m) →
      (s₁.after k).solve.1 = .ok answer → answer = some (.satisfiable a) := by
  obtain ⟨f, s, v, renders, reached, halted, verdict, same⟩ := fresh.exists_halted n returned
  obtain rfl : Verdict.satisfiable a = v := Option.some.inj same
  obtain ⟨best, keys⟩ := reached.bestModel renders halted verdict
  refine ⟨setup.strategy.order_perm p, reached.correctFor renders halted verdict, best, ?_⟩
  intro other q s₁ k answer ordered ordered' fresh' symbols models returned'
  obtain ⟨g, s', v', renders', reached', halted', verdict', rfl⟩ := fresh'.exists_halted k returned'
  cases v' with
  | unsatisfiable =>
    have refuted := reached'.correctFor renders' halted' verdict'
    exact absurd ((models _).mpr best.models) (refuted _)
  | satisfiable a' =>
    obtain ⟨best', keys'⟩ := reached'.bestModel renders' halted' verdict'
    rw [ordered] at best
    rw [ordered'] at best'
    change q.BestModel q.symbols (fun _ => true) _ at best'
    rw [symbols] at best' keys'
    have agree := best'.unique best models
    rw [eq_of_agree (keys'.trans keys.symm) (keys ▸ agree)]

/-- The first variable cannot be true, and then the others can. -/
def Problem.chained : Problem := ofInts [[-1, 2], [-1, -2, 3], [-1, -3], [1, 4, -5]]

def Problem.chainedModel : OrderedMap Symbol Bool :=
  .ofList [(.number 1, false), (.number 2, true), (.number 3, true), (.number 4, true), (.number 5, true)]

theorem answer_is_best_model_of_chained :
    ∃ s₀, s₀ = Solver.start ⟨.ordered, none, true, true⟩ (.ofProblem .chained) ∧
      Solver.Fresh ⟨.ordered, none, true, true⟩ .chained s₀ ∧
      s₀.solve.1 = .ok (some (.satisfiable Problem.chainedModel)) ∧
      Problem.chained.BestModel Problem.chained.symbols (fun _ => true) (.ofMap Problem.chainedModel) ∧
      ∀ k answer, ((Solver.start ⟨.ordered, none, true, true⟩
          (.ofProblem (.chained ++ .chained))).after k).solve.1 = .ok answer →
        answer = some (.satisfiable Problem.chainedModel) := by
  have fresh := Solver.fresh_ofProblem ⟨.ordered, none, true, true⟩ .chained
  have returned : (Solver.start ⟨.ordered, none, true, true⟩ (.ofProblem .chained)).solve.1 =
      .ok (some (.satisfiable Problem.chainedModel)) := by decide +kernel
  obtain ⟨-, -, best, same⟩ := answer_is_best_model fresh 0 returned
  refine ⟨_, rfl, fresh, returned, best, ?_⟩
  intro k answer
  have models (m : Interpretation) : Problem.Models (.chained ++ .chained) m ↔ Problem.chained.Models m := by
    simp [Problem.Models]
  exact same rfl rfl (Solver.fresh_ofProblem _ _) (by decide +kernel) models

end Backjump
