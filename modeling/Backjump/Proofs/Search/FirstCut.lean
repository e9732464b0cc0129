import Backjump.Proofs.Search.ImplicationPoint

/-! The learned clause is the cut of the graph at the first unique implication point.
Beside the point it negates the lower vertices with an edge into the conflict or
into a vertex between the point and the conflict. The target is the highest of
their levels. All of this is found between the last entry and the decision of the
level: whatever the trail holds before the decision, the walk does not read it. -/
namespace Backjump

open ImplicationGraph Analysis

/-- The analysis answers the cut at an entry of the current level: its literals are the negation of
the entry's and others of lower levels. -/
structure Analysis.CutsAt (a : Analysis) (s : Solver) (point : Entry) (rest : List Literal) : Prop where
  literals : a.clause.literals = point.literal.negate :: rest
  distinct : a.clause.symbols.Nodup
  falsified : ∀ l ∈ a.clause.literals, l.value s.trail.valuation = some false
  member : point ∈ s.trail.entries
  level : point.level = s.level
  first : s.graph.firstImplicationPoint s.trail s.level = .ok point.vertex
  below : ∀ l ∈ rest, ∃ e ∈ s.trail.entries, e.literal = l.negate ∧ e.level < s.level
  crossing : ∀ l, l ∈ rest ↔ ∃ v ∈ s.graph.vertices, v.literal = some l.negate ∧
    v.level < s.level ∧ s.graph.Crosses s.level point.vertex.key v.key
  target : Highest s.trail.entries rest a.target
  range : 0 ≤ a.target ∧ a.target < s.level

/-- From the conflict the walk comes to the point without what stands before the decision of the
current level. -/
def Solver.WalksTo (s : Solver) (point : Entry) : Prop :=
  ∃ before d after keys start cut, s.trail.entries = before ++ d :: after ∧ d.isDecision = true ∧
    d.level = s.level ∧ s.graph.predecessors none = .ok keys ∧
    Cut.visit s.graph s.level keys .start = .ok start ∧
    ∀ others, resolve s.graph s.level ((d :: after).reverse ++ others) start = .ok (point, cut)

variable {setup : Setup} {f : Formula} {p : Problem} {s s₀ : Solver} {k : Clash} {d point : Entry}
  {es ahead passed : List Entry} {cut : Cut} {a : Analysis} {rest : List Literal} {level : Int}

theorem Analysis.Explains.falsified (explains : a.Explains f es level rest)
    (distinct : (es.map Entry.symbol).Nodup) : a.clause.Falsified (valuationOf es) := by
  intro l listed
  rw [explains.literals, List.mem_cons] at listed
  rcases listed with rfl | listed
  · obtain ⟨e, member, -, point⟩ := explains.point
    exact value_false_of_mem distinct member (point.trans a.point.negate_negate.symm)
  · obtain ⟨e, member, -, rfl⟩ := explains.others l listed
    exact value_false_of_mem distinct member e.literal.negate_negate.symm

namespace Analysis.Answers

theorem cutsAt (answers : a.Answers s k point cut ahead passed)
    (searching : Searching setup f s (some k)) (opened : s.OpenedBy d) (positive : 0 < s.level) :
    a.CutsAt s point cut.learned.eraseDups := by
  have explains := answers.explains
  have concludes := answers.concludes
  have falsified := explains.falsified searching.trail.distinct
  exact
    { literals := answers.literals
      distinct := falsified.symbols_nodup
      falsified := by
        rw [searching.trail.valuation_eq]
        exact falsified
      member := concludes.member
      level := concludes.level
      first := searching.firstImplicationPoint_eq_ok concludes opened positive
      below := by
        intro l listed
        obtain ⟨e, member, low, rfl⟩ := explains.others l listed
        exact ⟨e, member, e.literal.negate_negate.symm, low⟩
      crossing := fun l => List.mem_eraseDups.trans (concludes.learned_iff_crosses searching.toCoherent)
      target := explains.target
      range := ⟨explains.target_nonneg searching.layered.level_nonneg,
        explains.target_lt searching.trail.distinct positive⟩ }

/-- The decision stands at the point or before it, so the walk has not passed it. -/
theorem walksTo (answers : a.Answers s k point cut ahead passed) (coherent : s.Coherent (some k))
    (opened : s.OpenedBy d) : s.WalksTo point := by
  have split := answers.concludes.walk.split
  have unpassed : d ∈ point :: ahead := by
    have member := opened.member
    rw [split, List.mem_append, List.mem_reverse] at member
    exact member.resolve_right (answers.concludes.opening_not_passed coherent opened)
  obtain ⟨between, before, cutAhead⟩ := List.append_of_mem unpassed
  obtain ⟨keys, start, named, visited, -, resolved⟩ := answers.reads
  refine ⟨before.reverse, d, between.reverse ++ passed, keys, start, cut, ?_, opened.decision,
    opened.level, named, visited, fun others => ?_⟩
  · rw [split, cutAhead]
    simp
  · have walk : (d :: (between.reverse ++ passed)).reverse ++ others =
        passed.reverse ++ (between ++ d :: others) := by simp
    rw [walk]
    cases between with
    | nil =>
      obtain rfl : point = d := (List.cons.inj cutAhead).1
      exact resolved others
    | cons e between =>
      obtain rfl : point = e := (List.cons.inj cutAhead).1
      exact resolved (between ++ d :: others)

end Analysis.Answers

/-- At a conflict above level zero the analysis answers the cut at the first unique implication point,
a clause over the problem's variables, and its walk stays behind the decision of the level. -/
theorem analysis_answers_first_cut (fresh : Solver.Fresh setup p s₀) {n : Nat} (ran : s₀.after n = s)
    (phase : s.phase = .conflict) (positive : 0 < s.level) :
    ∃ a point rest, analyzeConflict s.graph s.trail s.level = .ok a ∧ a.CutsAt s point rest ∧
      (∀ x ∈ a.clause.symbols, x ∈ p.symbols) ∧ s.WalksTo point := by
  obtain ⟨f, renders, rfl, reached⟩ := fresh.exists_reached
  obtain ⟨k, a, point, cut, ahead, passed, searching, -, answers⟩ :=
    (ran ▸ reached n).stage.exists_answer phase positive
  obtain ⟨d, opened⟩ := searching.exists_opening positive
  refine ⟨a, point, _, answers.answered, answers.cutsAt searching opened positive, ?_,
    answers.walksTo searching.toCoherent opened⟩
  intro x listed
  obtain ⟨l, member, rfl⟩ := List.mem_map.mp listed
  obtain ⟨e, held, same⟩ := answers.explains.exists_entry member
  rw [← renders.symbols_eq, ← searching.scope_eq, ← same]
  exact searching.trail.known e held

/-- Across the cut of the funnel edges lead from 3, the point, and from 1 on the lower level. -/
theorem analysis_answers_first_cut_of_funnel :
    ∃ a point, analyzeConflict Solver.funnelled.graph Solver.funnelled.trail Solver.funnelled.level =
        .ok a ∧ a.target = 1 ∧ a.CutsAt Solver.funnelled point [⟨.number 1, false⟩] ∧
      Solver.funnelled.WalksTo point := by
  obtain ⟨a, point, rest, analysed, cuts, -, walks⟩ :=
    analysis_answers_first_cut (s := Solver.funnelled)
      (Solver.fresh_ofProblem ⟨.ordered, none, true, false⟩ .funnel) rfl Solver.phase_funnelled
      (by rw [Solver.level_funnelled]; decide)
  have found : (analyzeConflict Solver.funnelled.graph Solver.funnelled.trail
      Solver.funnelled.level).toOption.map (fun a => (a.target, a.clause.literals.tail)) =
        some (1, [⟨.number 1, false⟩]) := by decide +kernel
  rw [analysed] at found
  simp only [Except.toOption, Option.map_some, cuts.literals, List.tail_cons, Option.some.injEq,
    Prod.mk.injEq] at found
  obtain ⟨target, rfl⟩ := found
  exact ⟨a, point, analysed, target, cuts, walks⟩

end Backjump
