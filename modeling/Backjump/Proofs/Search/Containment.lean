import Backjump.Proofs.Search.Calls

/-! Calls over the variables of the input. A caller who goes back with a clause may
bring variables in that the trail does not know. Where no call does, the formula
never has others than the trail, and neither has an analysis whose backjump is
due: it only puts together literals of entries and of vertices. -/
namespace Backjump

/-- All variables of the clause are among the given ones. -/
def Clause.Over (c : Clause) (xs : List Symbol) : Prop := ∀ l ∈ c.literals, l.symbol ∈ xs

instance (c : Clause) (xs : List Symbol) : Decidable (c.Over xs) :=
  inferInstanceAs (Decidable (∀ l ∈ c.literals, l.symbol ∈ xs))

namespace Analysis

variable {g : ImplicationGraph} {t : Trail} {level : Int} {keys : List Key} {cut cut' : Cut}
  {es : List Entry} {e : Entry} {xs : List Symbol} {a : Analysis}

/-- The vertices of the graph are over the given variables. -/
def Drawn (g : ImplicationGraph) (xs : List Symbol) : Prop :=
  ∀ key v, g.vertex key = .ok v → ∀ l, v.literal = some l → l.symbol ∈ xs

theorem visit_within (drawn : Drawn g xs) (visited : Cut.visit g level keys cut = .ok cut')
    (within : ∀ l ∈ cut.learned, l.symbol ∈ xs) : ∀ l ∈ cut'.learned, l.symbol ∈ xs := by
  induction keys generalizing cut with
  | nil =>
    rw [Cut.visit, Except.ok.injEq] at visited
    exact visited ▸ within
  | cons key rest ih =>
    rw [Cut.visit] at visited
    by_cases seen : key ∈ cut.seen
    · rw [if_pos seen] at visited
      exact ih visited within
    · rw [if_neg seen] at visited
      cases found : g.vertex key with
      | error f =>
        rw [found] at visited
        contradiction
      | ok v =>
        simp only [found] at visited
        by_cases here : v.level = level
        · rw [if_pos here] at visited
          exact ih visited within
        · rw [if_neg here] at visited
          by_cases below : v.level < level
          · rw [if_pos below] at visited
            cases literal : v.literal with
            | none => simp [literal] at visited
            | some l =>
              simp only [literal] at visited
              apply ih visited
              intro k learned
              rcases List.mem_append.mp learned with old | new
              · exact within k old
              · rw [List.mem_singleton.mp new, Literal.symbol_negate]
                exact drawn key v found l literal
          · rw [if_neg below] at visited
            contradiction

/-- The walk ends at one of the entries. -/
theorem resolve_within (drawn : Drawn g xs) (resolved : resolve g level es cut = .ok (e, cut'))
    (within : ∀ l ∈ cut.learned, l.symbol ∈ xs) :
    e ∈ es ∧ ∀ l ∈ cut'.learned, l.symbol ∈ xs := by
  induction es generalizing cut with
  | nil => simp [resolve] at resolved
  | cons e' earlier ih =>
    have onward {cut : Cut} (resolved : resolve g level earlier cut = .ok (e, cut'))
        (within : ∀ l ∈ cut.learned, l.symbol ∈ xs) :
        e ∈ e' :: earlier ∧ ∀ l ∈ cut'.learned, l.symbol ∈ xs :=
      ⟨List.mem_cons_of_mem _ (ih resolved within).1, (ih resolved within).2⟩
    rw [resolve] at resolved
    split at resolved
    · exact onward resolved within
    · split at resolved
      · contradiction
      · split at resolved
        · cases resolved
          exact ⟨List.mem_cons_self, within⟩
        · cases sources : g.predecessors (some e'.symbol) with
          | error f => simp [sources] at resolved
          | ok keys =>
            simp only [sources] at resolved
            cases visited : Cut.visit g level keys { cut with pending := cut.pending - 1 } with
            | error f => simp [visited] at resolved
            | ok cut'' =>
              simp only [visited] at resolved
              exact onward resolved (visit_within drawn visited within)

/-- A learned clause is over the variables of trail and graph. -/
theorem clause_over (drawn : Drawn g xs) (held : ∀ e ∈ t.entries, e.symbol ∈ xs)
    (analysed : analyzeConflict g t level = .ok a) : a.clause.Over xs := by
  rw [analyzeConflict] at analysed
  split at analysed
  · contradiction
  · split at analysed
    · contradiction
    · obtain ⟨keys, -, analysed⟩ := exists_of_bind analysed
      obtain ⟨start, visited, analysed⟩ := exists_of_bind analysed
      dsimp only at analysed
      split at analysed
      · contradiction
      obtain ⟨⟨point, cut⟩, resolved, analysed⟩ := exists_of_bind analysed
      obtain ⟨target, -, analysed⟩ := exists_of_bind analysed
      dsimp only at analysed
      split at analysed
      · contradiction
      cases analysed
      have started := visit_within drawn visited (by simp [Cut.start])
      obtain ⟨walked, learned⟩ := resolve_within drawn resolved started
      have member : point ∈ t.entries := by simpa using walked
      intro l listed
      rcases List.mem_cons.mp (List.mem_eraseDups.mp listed) with rfl | other
      · exact held point member
      · exact learned l other

end Analysis

namespace Solver

/-- Trail, formula and the analysis whose backjump is due are over the given variables. -/
structure Contained (xs : List Symbol) (s : Solver) : Prop where
  scope : s.trail.scope = xs
  formula : ∀ c ∈ s.formula.clauses, c.Over xs
  pending : ∀ a, s.pending = some a → a.clause.Over xs

/-- The call brings in no variable but the given ones. -/
def Call.Within (xs : List Symbol) : Call → Prop
  | .backtrack _ (some c) => c.Over xs
  | _ => True

instance (xs : List Symbol) : DecidablePred (Call.Within xs)
  | .backtrack _ (some c) => inferInstanceAs (Decidable (c.Over xs))
  | .backtrack _ none => inferInstanceAs (Decidable True)
  | .step => inferInstanceAs (Decidable True)
  | .propagate => inferInstanceAs (Decidable True)
  | .decide => inferInstanceAs (Decidable True)

variable {s s' : Solver} {xs : List Symbol} {learned : Option Clause} {clash : Option Clash}

/-- The vertices of a graph that shows a trail are over the variables of the trail. -/
theorem Coherent.drawn (coherent : s.Coherent clash) : Analysis.Drawn s.graph s.trail.scope := by
  intro key v found l literal
  by_cases live : key ∈ (arrivals s.formula s.trail.entries clash).map Arrival.key
  · obtain ⟨a, arrived, rfl⟩ := List.mem_map.mp live
    rw [coherent.graph.vertex_eq_ok arrived, Except.ok.injEq] at found
    subst found
    rcases mem_arrivals.mp arrived with ⟨e, member, rfl⟩ | ⟨k, -, rfl⟩
    · cases literal
      exact coherent.trail.known e member
    · contradiction
  · rw [ImplicationGraph.vertex, ImplicationGraph.node, coherent.graph.get?_of_not_mem live] at found
    contradiction

namespace Contained

theorem congr (contained : s.Contained xs) (scope : s'.trail.scope = s.trail.scope)
    (formula : s'.formula = s.formula) (pending : s'.pending = s.pending) : s'.Contained xs where
  scope := scope.trans contained.scope
  formula := formula ▸ contained.formula
  pending := pending ▸ contained.pending

theorem known (contained : s.Contained xs) : s.Known := by
  intro c listed l member
  rw [contained.scope]
  exact contained.formula c listed l member

theorem propagate (contained : s.Contained xs) (intact : s.Intact) :
    s.propagate.2.Contained xs := by
  rw [Solver.propagate]
  split
  · exact contained
  · rename_i free
    obtain ⟨clash, coherent⟩ := intact
    rw [coherent.isSome_conflict?, Bool.not_eq_true, Option.isSome_eq_false_iff,
      Option.isNone_iff_eq_none] at free
    subst free
    obtain ⟨new, s₁, rounds, -, outcome⟩ := coherent.scan_outcomes
    have kept : s₁.Contained xs := by
      have scope := rounds.scope_eq
      obtain ⟨_, _, _, _, rfl⟩ := rounds.frame
      exact contained.congr scope rfl rfl
    rcases outcome with ⟨-, scanned⟩ | ⟨place, c, graph, -, scanned, -⟩ |
      ⟨place, c, l, fault, -, -, scanned⟩ <;> rw [scanned]
    · exact kept
    · exact kept.congr rfl rfl rfl
    · exact kept

theorem decide (contained : s.Contained xs) (intact : s.Intact) : s.decide.2.Contained xs := by
  cases picked : s.decider.pick s.trail with
  | none =>
    rw [Solver.decide, picked]
    exact contained
  | some l =>
    obtain ⟨clash, coherent⟩ := intact
    obtain ⟨_, _, _, _, fresh, _⟩ := s.decider.pick_eq_some picked
    obtain ⟨graph, decided, -⟩ := coherent.decide_eq_ok picked fresh
    rw [decided]
    exact contained.congr rfl rfl rfl

theorem backtrack (contained : s.Contained xs) (intact : s.Intact) (target : Int)
    (within : ∀ c, learned = some c → c.Over xs) : (s.backtrack target learned).2.Contained xs := by
  by_cases outside : target < 0 ∨ s.level < target
  · rw [Solver.backtrack, if_pos outside]
    exact contained
  · obtain ⟨clash, coherent⟩ := intact
    have nonneg : 0 ≤ target := by omega
    have reached : target ≤ s.level := by omega
    obtain ⟨trail, _, _, wentBack, scope, -, -⟩ := coherent.backtrack_eq_ok nonneg reached learned
    rw [wentBack]
    constructor
    case scope => exact scope.trans contained.scope
    case pending => exact contained.pending
    case formula =>
      cases learned with
      | none => exact contained.formula
      | some c =>
        intro d listed
        rcases List.mem_append.mp listed with old | new
        · exact contained.formula d old
        · rw [List.mem_singleton.mp new]
          exact within c rfl

theorem settle (contained : s.Contained xs) : s.settle.2.Contained xs := by
  rw [Solver.settle]
  split
  · exact contained
  · split
    · exact contained
    · split
      · exact contained
      · exact contained.congr rfl rfl rfl

theorem resolveConflict (contained : s.Contained xs) (intact : s.Intact) :
    s.resolveConflict.2.Contained xs := by
  rw [Solver.resolveConflict]
  split
  · exact contained.congr rfl rfl rfl
  · rw [analyze]
    cases analysed : analyzeConflict s.graph s.trail s.level with
    | error fault =>
      exact contained.congr rfl rfl rfl
    | ok a =>
      obtain ⟨clash, coherent⟩ := intact
      have fits : a.clause.Over s.trail.scope :=
        Analysis.clause_over coherent.drawn coherent.trail.known analysed
      rw [contained.scope] at fits
      constructor
      · exact contained.scope
      · exact contained.formula
      · rintro _ ⟨⟩
        exact fits

theorem backjump (contained : s.Contained xs) (intact : s.Intact) : s.backjump.2.Contained xs := by
  rw [Solver.backjump]
  cases due : s.pending with
  | none => exact contained
  | some a =>
    have unpended : Contained xs { s with pending := none } :=
      ⟨contained.scope, contained.formula, by simp⟩
    have fits : ∀ c, some a.clause = some c → c.Over xs := by
      rintro _ ⟨⟩
      exact contained.pending a due
    have kept := unpended.backtrack (intact.congr rfl rfl rfl rfl) a.target fits
    exact Attempt.andThen_keeps kept fun _ _ => id

theorem transition (contained : s.Contained xs) (intact : s.Intact) :
    s.transition.2.Contained xs := by
  rw [Solver.transition]
  split
  · exact Attempt.andThen_keeps (contained.propagate intact) fun _ _ => id
  · exact contained.settle
  · exact contained.resolveConflict intact
  · exact contained.backjump intact
  · exact Attempt.andThen_keeps (contained.decide intact) fun _ _ => id
  · exact contained

theorem step (contained : s.Contained xs) (intact : s.Intact) : s.step.2.Contained xs := by
  rw [Solver.step]
  split
  · exact contained
  · split
    · exact contained
    · refine Attempt.andThen_keeps (contained.transition intact)
        fun phase s moved => ?_
      have entered : (s.enter phase).Contained xs := moved.congr rfl rfl rfl
      have recorded : (s.enter phase).record.Contained xs :=
        have same := sameTrail_record (s.enter phase)
        entered.congr (congrArg Trail.scope same.trail) same.formula (pending_record _)
      dsimp only
      split
      · exact entered
      · exact recorded

theorem perform (contained : s.Contained xs) (intact : s.Intact) {call : Call}
    (within : call.Within xs) : (s.perform call).Contained xs := by
  cases call with
  | step => exact contained.step intact
  | propagate => exact contained.propagate intact
  | decide => exact contained.decide intact
  | backtrack target learned =>
    apply contained.backtrack intact
    rintro c rfl
    exact within

/-- After calls that bring in no further variable the formula has none but the trail's. -/
theorem afterCalls {calls : List Call} (contained : s.Contained xs) (intact : s.Intact)
    (within : ∀ call ∈ calls, call.Within xs) : (s.afterCalls calls).Contained xs := by
  induction calls generalizing s with
  | nil => exact contained
  | cons call rest ih =>
    rw [List.forall_mem_cons] at within
    exact ih (contained.perform intact within.1) (intact.perform call) within.2

end Contained

/-- A solver that has done nothing yet has the variables of its problem. -/
theorem Fresh.contained {setup : Setup} {p : Problem} (fresh : Fresh setup p s) :
    s.Contained p.symbols := by
  obtain ⟨f, renders, rfl⟩ := fresh.exists_start
  have searching := Searching.start setup f
  have unpended : (start setup f).pending = none := pending_record (blank setup f)
  constructor
  case scope => exact searching.scope_eq.trans renders.symbols_eq
  case formula =>
    intro c listed l member
    rw [← renders.symbols_eq, ← searching.scope_eq]
    exact searching.known c listed l member
  case pending => simp [unpended]

end Solver

end Backjump
