import Backjump.Proofs.Search.Invariant

/-! What a transition does, and that none fails. From the stage of its phase each
transition answers the next phase, and the state that it leaves is at the stage of
that phase. Propagation ends settled or in a clash; a settled state without open
variables is a model; a clash above level zero is explained by its analysis; going
back makes the learned clause the first urgent one. -/
namespace Backjump

namespace Solver

/-- The state after a fixpoint without open variables. -/
def answered (s : Solver) (m : OrderedMap Symbol Bool) : Solver :=
  report { s with verdict := some (.satisfiable m) } (.satisfied s.decisions s.conflicts)

/-- The state after a conflict at level zero. -/
def refuted (s : Solver) : Solver :=
  report { s with conflicts := s.conflicts + 1, verdict := some .unsatisfiable } .refuted

/-- The state after a conflict was analysed. -/
def analysed (s : Solver) (a : Analysis) : Solver :=
  { report { s with conflicts := s.conflicts + 1 } (.analysed a s.level) with
    pending := some a, lastLearned := some a.clause }

/-- The state after the backjump of an analysis. -/
def returned (s : Solver) (a : Analysis) (trail : Trail) (graph : ImplicationGraph) (undone : Nat) :
    Solver :=
  retreated { s with pending := none } a.target (some a.clause) trail graph undone

theorem transition_of_fixpoint {s : Solver} (phase : s.phase = .fixpoint) :
    s.transition = s.settle := by
  rw [transition, phase]

theorem transition_of_conflict {s : Solver} (phase : s.phase = .conflict) :
    s.transition = s.resolveConflict := by
  rw [transition, phase]

theorem transition_of_backtrack {s : Solver} (phase : s.phase = .backtrack) :
    s.transition = s.backjump := by
  rw [transition, phase]

theorem transition_of_decide {s : Solver} (phase : s.phase = .decide) :
    s.transition = s.decide.andThen fun _ s => (.ok .propagate, s) := by
  rw [transition, phase]

/-- The next phase and state of a search. -/
inductive Transits (s : Solver) : Phase → Solver → Prop where
  | settled {new : List Entry} {s' : Solver} : s.phase = .propagate → Propagates s new s' →
      s'.urgent? = none → Transits s .fixpoint s'
  | falsified {new : List Entry} {s' : Solver} {place : Nat} {c : Clause} {graph : ImplicationGraph} :
      s.phase = .propagate → Propagates s new s' → s'.urgent? = some (place, c, none) →
      Transits s .conflict (s'.conflicted place c graph)
  | unfinished : s.phase = .fixpoint → s.trail.unassigned ≠ [] → Transits s .decide s
  | answered {m : OrderedMap Symbol Bool} : s.phase = .fixpoint → s.trail.unassigned = [] →
      s.model = .ok m → Transits s .satisfied (s.answered m)
  | refuted : s.phase = .conflict → s.level = 0 → Transits s .unsatisfiable s.refuted
  | analysed {a : Analysis} {rest : List Literal} : s.phase = .conflict → 0 < s.level →
      a.Explains s.formula s.trail.entries s.level rest → Transits s .backtrack (s.analysed a)
  | returned {a : Analysis} {rest : List Literal} {trail : Trail} {graph : ImplicationGraph}
      {undone : Nat} : s.phase = .backtrack → 0 < s.level → s.pending = some a →
      a.Explains s.formula s.trail.entries s.level rest → trail.scope = s.trail.scope →
      trail.entries = upTo a.target s.trail.entries →
      (s.returned a trail graph undone).urgent? =
        some (s.formula.size, a.clause, some a.point.negate) →
      Transits s .propagate (s.returned a trail graph undone)
  | decided {l : Literal} {graph : ImplicationGraph} : s.phase = .decide →
      s.decider.pick s.trail = some l → Transits s .propagate (s.decided l graph)

/-- Propagation ends its rounds settled or in a clash, which it then draws. -/
theorem Transits.exists_rounds {s s' : Solver} {phase : Phase} (transits : s.Transits phase s')
    (isPhase : s.phase = .propagate) : ∃ new s₁, Propagates s new s₁ ∧ s'.SameTrail s₁ ∧
      s₁.log.toList <+: s'.log.toList ∧ (phase = .fixpoint ∧ s₁.urgent? = none ∨
        phase = .conflict ∧ ∃ place c, s₁.urgent? = some (place, c, none)) := by
  cases transits with
  | settled _ rounds calm =>
    exact ⟨_, _, rounds, ⟨rfl, rfl, rfl, rfl, rfl⟩, List.prefix_refl _, .inl ⟨rfl, calm⟩⟩
  | falsified _ rounds urgent =>
    refine ⟨_, _, rounds, ⟨rfl, rfl, rfl, rfl, rfl⟩, ?_, .inr ⟨rfl, _, _, urgent⟩⟩
    rw [conflicted, report, Array.toList_push]
    exact List.prefix_append ..
  | unfinished other | answered other | refuted other | analysed other | returned other
  | decided other =>
    rw [isPhase] at other
    contradiction

end Solver

variable {setup : Setup} {f : Formula} {s s' : Solver} {clash : Option Clash} {k : Clash}
  {c : Clause} {l : Literal} {place : Nat} {graph : ImplicationGraph} {new : List Entry}
  {a : Analysis} {rest : List Literal}

/-- The transition answers a phase, and the state it leaves is at the stage of that phase. -/
def Proceeds (setup : Setup) (f : Formula) (s : Solver) : Prop :=
  ∃ phase s', s.transition = (.ok phase, s') ∧ s.Transits phase s' ∧ Stage setup f (s'.enter phase)

theorem upTo_append_of_above {n : Int} {es : List Entry} (above : ∀ e ∈ new, n < e.level) :
    upTo n (es ++ new) = upTo n es := by
  rw [upTo_append, upTo_eq_nil above, List.append_nil]

namespace Searching

theorem propagates (searching : Searching setup f s none) (rounds : Solver.Propagates s new s')
    (coherent : s'.Coherent none) : Searching setup f s' none := by
  have entries := rounds.entries_eq
  have formula := rounds.formula_eq
  have level := rounds.level_eq
  have scope := rounds.scope_eq
  have implied := rounds.implied
  obtain ⟨_, _, _, _, same⟩ := rounds.frame
  have setup_same : s'.setup = s.setup := by rw [same]
  have decider_same : s'.decider = s.decider := by rw [same]
  exact
    { coherent with
      setup_eq := setup_same.trans searching.setup_eq
      scope_eq := scope.trans searching.scope_eq
      decider_eq := decider_same.trans searching.decider_eq
      input := by rw [formula]; exact searching.input
      known := by rw [Solver.Known, formula, scope]; exact searching.known
      entailed := by rw [formula]; exact searching.entailed
      chosen := by
        rw [decider_same, entries]
        apply searching.chosen.append
        intro before e member decision
        rw [(implied e member).2] at decision
        contradiction
      settled := by
        intro n nonneg below
        rw [level] at below
        rw [formula, entries, upTo_append_of_above]
        · exact searching.settled n nonneg below
        · intro e member
          rw [(implied e member).1]
          exact below }

theorem propagate_proceeds (searching : Searching setup f s none) (phase : s.phase = .propagate) :
    Proceeds setup f s := by
  have free : s.graph.conflict?.isSome = false := searching.isSome_conflict?
  obtain ⟨new, s', rounds, coherent, outcome⟩ := searching.scan_cases searching.known
  have searching' := searching.propagates rounds coherent
  obtain ⟨calm, scanned⟩ | ⟨place, c, graph, urgent, scanned, drawn⟩ := outcome
  · refine ⟨.fixpoint, s', ?_, .settled phase rounds calm, ?_⟩
    · simp [Solver.transition, phase, Solver.propagate, free, scanned]
    · exact .fixpoint rfl (searching'.enter _) (Solver.urgent?_eq_none.mp calm)
  · refine ⟨.conflict, s'.conflicted place c graph, ?_, .falsified phase rounds urgent, ?_⟩
    · simp [Solver.transition, phase, Solver.propagate, free, scanned]
    · exact .conflict rfl ((searching'.redraw drawn ⟨rfl, rfl, rfl, rfl, rfl⟩).enter _) rfl

theorem exists_value (searching : Searching setup f s clash) (total : s.trail.unassigned = [])
    {x : Symbol} (inScope : x ∈ s.trail.scope) : ∃ b, s.trail.valuation x = some b := by
  rw [← Option.isSome_iff_exists, ← Option.ne_none_iff_isSome, searching.trail.valuation_eq]
  intro undecided
  have open_ := (searching.trail.unassigned x).mpr ⟨inScope, valuationOf_eq_none.mp undecided⟩
  simp [total] at open_

/-- A total trail answers a model over the scope that gives the values of the trail. -/
theorem model_eq_ok (searching : Searching setup f s clash) (total : s.trail.unassigned = []) :
    ∃ m, s.model = .ok m ∧ m.keys = f.symbols ∧ m.get? = valuationOf s.trail.entries := by
  let pair (x : Symbol) : Symbol × Bool := (x, (s.trail.valuation x).getD true)
  have bound : ∀ x ∈ s.trail.scope, s.binding x = .ok (pair x) := by
    intro x inScope
    obtain ⟨b, known⟩ := searching.exists_value total inScope
    have found : s.trail.assignment.get? x = some b := known
    simp only [Solver.binding, found, pair, known, Option.getD_some]
  have paired : (s.trail.scope.map pair).map Prod.fst = s.trail.scope := by
    simp [pair, List.map_map, Function.comp_def]
  have entries := OrderedMap.entries_ofList (paired.symm ▸ searching.nodup_scope)
  have keys : (OrderedMap.ofList (s.trail.scope.map pair)).keys = s.trail.scope := by
    rw [OrderedMap.keys, entries, paired]
  refine ⟨.ofList (s.trail.scope.map pair), ?_, keys.trans searching.scope_eq, ?_⟩
  · rw [Solver.model, mapM_eq_ok bound]
    rfl
  · funext x
    rw [← searching.trail.valuation_eq]
    by_cases inScope : x ∈ s.trail.scope
    · obtain ⟨b, known⟩ := searching.exists_value total inScope
      rw [known, OrderedMap.get?_eq_some_iff, entries]
      exact List.mem_map.mpr ⟨x, inScope, by simp [pair, known]⟩
    · rw [OrderedMap.get?_eq_none_iff.mpr (keys.symm ▸ inScope), searching.trail.valuation_eq]
      symm
      rw [valuationOf_eq_none]
      rintro e member rfl
      exact inScope (searching.trail.known e member)

theorem isSatisfied_of_settled (searching : Searching setup f s clash)
    (settled : Settled s.formula s.trail.entries) (total : s.trail.unassigned = []) :
    s.formula.isSatisfied (valuationOf s.trail.entries) = true := by
  rw [Formula.isSatisfied, List.all_eq_true]
  intro c member
  rw [Clause.isSatisfied_iff]
  apply Clause.satisfied_of_total (settled c member)
  intro l listed undecided
  obtain ⟨b, known⟩ := searching.exists_value total (searching.known c member l listed)
  rw [searching.trail.valuation_eq, Literal.value_eq_none.mp undecided] at known
  contradiction

theorem fixpoint_proceeds (searching : Searching setup f s none)
    (settled : Settled s.formula s.trail.entries) (phase : s.phase = .fixpoint) :
    Proceeds setup f s := by
  by_cases total : s.trail.unassigned = []
  · obtain ⟨m, answered, keys, values⟩ := searching.model_eq_ok total
    have satisfied := searching.isSatisfied_of_settled settled total
    refine ⟨.satisfied, s.answered m, ?_, .answered phase total answered, ?_⟩
    · have holds : ¬(!s.formula.isSatisfied m.get?) = true := by rw [values, satisfied]; decide
      rw [Solver.transition_of_fixpoint phase, Solver.settle, if_neg (not_not.mpr total), answered]
      exact if_neg holds
    · exact .satisfied rfl (searching.congr ⟨rfl, rfl, rfl, rfl, rfl⟩ rfl) settled total rfl keys values
  · refine ⟨.decide, s, ?_, .unfinished phase total, ?_⟩
    · rw [Solver.transition_of_fixpoint phase, Solver.settle, if_pos total]
    · exact .decide rfl (searching.enter _) settled total

/-- A clash above level zero involves the current level: below it nothing was urgent. -/
theorem involved (searching : Searching setup f s (some k)) (positive : 0 < s.level) :
    ¬k.clause.Falsified (valuationOf (upTo (s.level - 1) s.trail.entries)) := by
  intro falsified
  have member := List.mem_of_getElem? (searching.clash k rfl).clause
  exact searching.settled (s.level - 1) (by omega) (by omega) k.clause member (.inl falsified)

theorem conflict_proceeds (searching : Searching setup f s (some k))
    (behind : k.position = s.trail.entries.length) (phase : s.phase = .conflict) :
    Proceeds setup f s := by
  have nonneg := searching.level_nonneg
  by_cases ground : s.level = 0
  · refine ⟨.unsatisfiable, s.refuted, ?_, .refuted phase ground, ?_⟩
    · rw [Solver.transition_of_conflict phase, Solver.resolveConflict]
      exact if_pos ground
    · exact .unsatisfiable rfl (searching.congr ⟨rfl, rfl, rfl, rfl, rfl⟩ rfl) behind ground rfl
  · have positive : 0 < s.level := by omega
    obtain ⟨a, _, _, _, _, answers⟩ :=
      Analysis.exists_answer searching.toCoherent behind positive (searching.involved positive)
    refine ⟨.backtrack, s.analysed a, ?_, .analysed phase positive answers.explains, ?_⟩
    · rw [Solver.transition_of_conflict phase, Solver.resolveConflict, if_neg ground, Solver.analyze]
      simp only [answers.answered]
      rfl
    · exact .backtrack rfl (searching.congr ⟨rfl, rfl, rfl, rfl, rfl⟩ rfl) behind positive rfl
        answers.explains

section Backjump

variable {trail : Trail} {undone : Nat}

theorem clauses_returned (explains : a.Explains s.formula s.trail.entries s.level rest) :
    (s.returned a trail graph undone).formula.clauses = s.formula.clauses ++ [a.clause] := by
  have marked : a.clause.markLearned = a.clause := by
    rw [Clause.markLearned, ← explains.learned]
  change s.formula.clauses ++ [a.clause.markLearned] = _
  rw [marked]

theorem forall_clauses_returned {P : Clause → Prop}
    (explains : a.Explains s.formula s.trail.entries s.level rest)
    (old : ∀ c ∈ s.formula.clauses, P c) (new : P a.clause) :
    ∀ c ∈ (s.returned a trail graph undone).formula.clauses, P c := by
  rw [clauses_returned explains, List.forall_mem_append]
  exact ⟨old, List.forall_mem_singleton.mpr new⟩

/-- After going back the learned clause is the first urgent one and forces its first literal. -/
theorem urgent?_returned (searching : Searching setup f s clash) (positive : 0 < s.level)
    (explains : a.Explains s.formula s.trail.entries s.level rest)
    (entries : trail.entries = upTo a.target s.trail.entries) :
    (s.returned a trail graph undone).urgent? =
      some (s.formula.size, a.clause, some a.point.negate) := by
  have distinct := searching.trail.distinct
  have calm := searching.settled a.target (explains.target_nonneg searching.layered.level_nonneg)
    (explains.target_lt distinct positive)
  rw [Solver.urgent?, clauses_returned explains]
  change firstUrgent (valuationOf trail.entries) 0 (s.formula.clauses ++ [a.clause]) = _
  rw [entries, firstUrgent_append calm, Nat.zero_add]
  exact firstUrgent_of_forces (explains.forces distinct positive)

theorem returned (searching : Searching setup f s clash) (positive : 0 < s.level)
    (explains : a.Explains s.formula s.trail.entries s.level rest)
    (scope : trail.scope = s.trail.scope) (entries : trail.entries = upTo a.target s.trail.entries)
    (coherent : (s.returned a trail graph undone).Coherent none) :
    Searching setup f (s.returned a trail graph undone) none := by
  have distinct := searching.trail.distinct
  have below := explains.target_lt distinct positive
  exact
    { coherent with
      setup_eq := searching.setup_eq
      scope_eq := scope.trans searching.scope_eq
      decider_eq := searching.decider_eq
      input := by
        rw [clauses_returned explains]
        exact searching.input.trans (List.prefix_append ..)
      known := by
        change ∀ c ∈ (s.returned a trail graph undone).formula.clauses,
          ∀ l ∈ c.literals, l.symbol ∈ trail.scope
        rw [scope]
        refine forall_clauses_returned explains searching.known fun l listed => ?_
        obtain ⟨e, held, same⟩ := explains.exists_entry listed
        exact same ▸ searching.trail.known e held
      entailed := fun m model =>
        have old := searching.entailed m model
        forall_clauses_returned explains old (explains.entailed m old)
      chosen := by
        change Built _ trail.entries
        rw [entries]
        exact searching.chosen.upTo searching.layered.sorted a.target
      settled := by
        intro n nonneg low
        change n < a.target at low
        change ∀ c ∈ (s.returned a trail graph undone).formula.clauses,
          ¬c.Urgent (valuationOf (upTo n trail.entries))
        rw [entries, upTo_upTo (Int.le_of_lt low)]
        exact forall_clauses_returned explains
          (searching.settled n nonneg (Int.lt_trans low below))
          (explains.not_urgent distinct positive nonneg low) }

theorem backtrack_proceeds (searching : Searching setup f s (some k)) (positive : 0 < s.level)
    (pending : s.pending = some a) (explains : a.Explains s.formula s.trail.entries s.level rest)
    (phase : s.phase = .backtrack) : Proceeds setup f s := by
  have distinct := searching.trail.distinct
  have nonneg := explains.target_nonneg searching.layered.level_nonneg
  have below := explains.target_lt distinct positive
  have unpended : Solver.Coherent { s with pending := none } (some k) :=
    searching.toCoherent.congr rfl rfl rfl rfl
  obtain ⟨trail, graph, undone, wentBack, scope, entries, coherent⟩ :=
    unpended.backtrack_eq_ok nonneg (Int.le_of_lt below) (some a.clause)
  refine ⟨.propagate, s.returned a trail graph undone, ?_, ?_, ?_⟩
  · rw [Solver.transition_of_backtrack phase, Solver.backjump, pending]
    simp only [wentBack]
    rfl
  · exact .returned phase positive pending explains scope entries
      (searching.urgent?_returned positive explains entries)
  · exact .propagate rfl ((searching.returned positive explains scope entries coherent).enter _)

end Backjump

theorem decided (searching : Searching setup f s none) (settled : Settled s.formula s.trail.entries)
    (picked : s.decider.pick s.trail = some l) (coherent : (s.decided l graph).Coherent none) :
    Searching setup f (s.decided l graph) none := by
  have entries : (s.decided l graph).trail.entries =
      s.trail.entries ++ [s.trail.nextEntry l (s.level + 1) none] := rfl
  exact
    { coherent with
      setup_eq := searching.setup_eq
      scope_eq := searching.scope_eq
      decider_eq := searching.decider_eq
      input := searching.input
      known := searching.known
      entailed := searching.entailed
      chosen := by
        rw [entries]
        apply searching.chosen.snoc
        intro _
        obtain ⟨before, after, split, closed, -, polarity⟩ := s.decider.pick_eq_some picked
        refine ⟨polarity, before, after, split, ?_⟩
        intro x earlier
        have inScope : x ∈ s.trail.scope := by
          rw [← searching.mem_priority, split]
          exact List.mem_append_left _ earlier
        by_contra unheld
        apply closed x earlier
        rw [searching.trail.unassigned]
        exact ⟨inScope, fun e member same => unheld ⟨e, member, same⟩⟩
      settled := by
        intro n nonneg below
        change n < s.level + 1 at below
        rw [entries, upTo_append_of_above (by simpa [Trail.nextEntry] using below)]
        change Settled s.formula _
        by_cases top : n = s.level
        · rw [upTo_eq_self (top ▸ searching.level_le)]
          exact settled
        · exact searching.settled n nonneg (by omega) }

theorem decide_proceeds (searching : Searching setup f s none)
    (settled : Settled s.formula s.trail.entries) (unfinished : s.trail.unassigned ≠ [])
    (phase : s.phase = .decide) : Proceeds setup f s := by
  obtain ⟨x, open_⟩ := List.exists_mem_of_ne_nil _ unfinished
  have inScope := ((searching.trail.unassigned x).mp open_).1
  obtain ⟨l, picked⟩ := s.decider.exists_pick (searching.mem_priority.mpr inScope) open_
  obtain ⟨_, _, _, _, fresh, _⟩ := s.decider.pick_eq_some picked
  obtain ⟨graph, decided, coherent⟩ := searching.toCoherent.decide_eq_ok picked fresh
  refine ⟨.propagate, s.decided l graph, ?_, .decided phase picked, ?_⟩
  · rw [Solver.transition_of_decide phase, decided]
    rfl
  · exact .propagate rfl ((searching.decided settled picked coherent).enter _)

end Searching

/-- No transition of a search fails, and each leads to the stage of the phase it answers. -/
theorem Stage.proceeds (stage : Stage setup f s) (running : s.phase.isTerminal = false) :
    Proceeds setup f s := by
  cases stage with
  | propagate phase searching => exact searching.propagate_proceeds phase
  | fixpoint phase searching settled => exact searching.fixpoint_proceeds settled phase
  | decide phase searching settled unfinished =>
    exact searching.decide_proceeds settled unfinished phase
  | conflict phase searching behind => exact searching.conflict_proceeds behind phase
  | backtrack phase searching behind positive pending explains =>
    exact searching.backtrack_proceeds positive pending explains phase
  | satisfied phase => simp [phase, Phase.isTerminal] at running
  | unsatisfiable phase => simp [phase, Phase.isTerminal] at running

end Backjump
