import Backjump.Proofs.Figure
import Backjump.Proofs.Search.Accounting
import Backjump.Walkthrough

/-! What the snapshots of conflicts tell. A snapshot is taken when a conflict arises, with
the graph from which it is resolved two transitions later. So the snapshots stand in
the order of the learned clauses, one for each: the literals of the clause deny vertices of
the picture. A snapshot beyond them is of the conflict under way, or of the one that
refutes. -/
namespace Backjump

/-- The vertex shows the literal as true. -/
def VertexView.Shows (v : VertexView) (l : Literal) : Prop :=
  v.symbol = some l.symbol ∧ v.sign = some l.positive

/-- The literals of the clause deny vertices of the picture, the first one a vertex of the level at
which the snapshot was taken. -/
structure Snapshot.Teaches (p : Snapshot) (c : Clause) : Prop where
  first : ∃ l rest, c.literals = l :: rest ∧
    ∃ v ∈ p.graph.vertices, v.Shows l.negate ∧ v.level = p.level
  denies : ∀ l ∈ c.literals, ∃ v ∈ p.graph.vertices, v.Shows l.negate

namespace Walkthrough

/-- The snapshots of the conflict that a solver is at, by its phase. -/
inductive Shown (s : Solver) : List Snapshot → Prop where
  | nothing : s.phase.expectsConflict = false → Shown s []
  | arisen {p : Snapshot} : s.phase = .conflict → p.graph = s.graph.view → p.level = s.level →
      Shown s [p]
  | analysed {p : Snapshot} {a : Analysis} : s.phase = .backtrack → s.pending = some a →
      p.Teaches a.clause → Shown s [p]
  | refuting {p : Snapshot} : s.phase = .unsatisfiable → Shown s [p]

/-- The snapshots of conflicts so far: those of the learned clauses, one for each, and then that of
the conflict that the solver is at. -/
structure Chronicle (s : Solver) (told current : List Snapshot) : Prop where
  conflicts : conflictSnapshots s = told ++ current
  ordered : (told ++ current).Pairwise (·.step < ·.step)
  past : ∀ p ∈ told ++ current, p.step ≤ s.steps
  proper : ∀ p ∈ told ++ current, p.graph.Proper
  given : s.inputSize ≤ s.formula.clauses.length
  taught : List.Forall₂ Snapshot.Teaches told s.learnedClauses

/-- The same history and formula after as many steps. -/
structure SameHistory (s' s : Solver) : Prop where
  history : s'.history = s.history
  steps : s'.steps = s.steps
  formula : s'.formula = s.formula
  inputSize : s'.inputSize = s.inputSize

end Walkthrough

namespace Solver.Coherent

variable {s : Solver} {clash : Option Clash} {k : Clash} {e : Entry} {a : Analysis}
  {rest : List Literal} {p : Snapshot}

theorem view_mem (coherent : s.Coherent clash) (member : e ∈ s.trail.entries) :
    e.vertex.view ∈ s.graph.view.vertices := by
  rw [coherent.graph.vertices_view]
  exact List.mem_map.mpr ⟨e.arrival s.formula, mem_arrivals.mpr (.inl ⟨e, member, rfl⟩), rfl⟩

theorem isConflict_snapshot (coherent : s.Coherent (some k)) : s.snapshot.isConflict = true := by
  rw [Snapshot.isConflict, List.any_eq_true]
  refine ⟨k.arrival.vertex.view, ?_, rfl⟩
  change _ ∈ s.graph.view.vertices
  rw [coherent.graph.vertices_view]
  exact List.mem_map.mpr ⟨k.arrival, mem_arrivals.mpr (.inr ⟨k, rfl, rfl⟩), rfl⟩

/-- What an analysis explains denies vertices of the graph. -/
theorem teaches (coherent : s.Coherent clash)
    (explains : a.Explains s.formula s.trail.entries s.level rest) (graph : p.graph = s.graph.view)
    (level : p.level = s.level) : p.Teaches a.clause := by
  have shows (e : Entry) : e.vertex.view.Shows e.literal := ⟨rfl, rfl⟩
  obtain ⟨e, member, atLevel, point⟩ := explains.point
  have first : ∃ v ∈ p.graph.vertices, v.Shows a.point.negate.negate ∧ v.level = p.level := by
    rw [Literal.negate_negate, ← point, graph, level]
    exact ⟨_, coherent.view_mem member, shows e, atLevel⟩
  refine ⟨⟨_, _, explains.literals, first⟩, ?_⟩
  rw [explains.literals, List.forall_mem_cons]
  obtain ⟨v, drawn, shown, -⟩ := first
  refine ⟨⟨v, drawn, shown⟩, fun l listed => ?_⟩
  obtain ⟨e, member, -, rfl⟩ := explains.others l listed
  rw [Literal.negate_negate, graph]
  exact ⟨_, coherent.view_mem member, shows e⟩

end Solver.Coherent

namespace Walkthrough

variable {setup : Setup} {f : Formula} {s s' : Solver} {phase : Phase} {told current : List Snapshot}
  {p : Snapshot} {k : Clash} {a : Analysis} {rest : List Literal}

theorem Shown.congr (shown : Shown s current) (phase : s'.phase = s.phase)
    (graph : s'.graph = s.graph) (level : s'.level = s.level) (pending : s'.pending = s.pending) :
    Shown s' current := by
  cases shown with
  | nothing free => exact .nothing (phase ▸ free)
  | arisen isPhase same atLevel =>
    exact .arisen (phase.trans isPhase) (graph ▸ same) (level ▸ atLevel)
  | analysed isPhase due teaches => exact .analysed (phase.trans isPhase) (pending.trans due) teaches
  | refuting isPhase => exact .refuting (phase.trans isPhase)

theorem Shown.eq_nil (shown : Shown s current) (free : s.phase.expectsConflict = false) :
    current = [] := by
  cases shown with
  | nothing => rfl
  | arisen isPhase | analysed isPhase | refuting isPhase =>
    rw [isPhase] at free
    contradiction

theorem Shown.exists_arisen (shown : Shown s current) (phase : s.phase = .conflict) :
    ∃ p, current = [p] ∧ p.graph = s.graph.view ∧ p.level = s.level := by
  cases shown with
  | arisen _ graph level => exact ⟨_, rfl, graph, level⟩
  | nothing free =>
    rw [phase] at free
    contradiction
  | analysed other | refuting other =>
    rw [phase] at other
    contradiction

theorem Shown.exists_analysed (shown : Shown s current) (phase : s.phase = .backtrack)
    (pending : s.pending = some a) : ∃ p, current = [p] ∧ p.Teaches a.clause := by
  cases shown with
  | analysed _ due teaches =>
    obtain rfl := Option.some.inj (pending.symm.trans due)
    exact ⟨_, rfl, teaches⟩
  | nothing free =>
    rw [phase] at free
    contradiction
  | arisen other | refuting other =>
    rw [phase] at other
    contradiction

/-- When the search is over, it is at no conflict but one that refutes. -/
theorem Shown.length_of_halted (shown : Shown s current) (halted : s.phase.isTerminal = true) :
    current.length = if s.phase = .unsatisfiable then 1 else 0 := by
  cases shown with
  | nothing free =>
    rw [if_neg]
    · rfl
    · intro isPhase
      rw [isPhase] at free
      contradiction
  | refuting isPhase =>
    rw [if_pos isPhase]
    rfl
  | arisen isPhase | analysed isPhase =>
    rw [isPhase] at halted
    contradiction

theorem conflictSnapshots_record (records : s.setup.records = true) :
    conflictSnapshots s.record = conflictSnapshots s ++
      if s.phase == .conflict && s.snapshot.isConflict then [s.snapshot] else [] := by
  rw [Solver.record, if_pos records]
  simp only [conflictSnapshots, Array.toList_push, List.filter_append]
  rw [List.filter_cons, List.filter_nil]
  rfl

namespace Chronicle

/-- Recording a state that is at no new conflict adds none. -/
theorem record (chronicle : Chronicle s told current) (records : s.setup.records = true)
    (other : s.phase ≠ .conflict) : Chronicle s.record told current := by
  have same : conflictSnapshots s.record = conflictSnapshots s := by
    rw [conflictSnapshots_record records, if_neg (by simp [other]), List.append_nil]
  obtain ⟨conflicts, ordered, past, proper, given, taught⟩ := chronicle
  rw [Solver.record, if_pos records] at same ⊢
  exact ⟨same.trans conflicts, ordered, past, proper, given, taught⟩

/-- A conflict that has just arisen is recorded behind those before it. -/
theorem record_conflict (chronicle : Chronicle s told []) (records : s.setup.records = true)
    (phase : s.phase = .conflict) (coherent : s.Coherent (some k))
    (earlier : ∀ p ∈ told, p.step < s.steps) : Chronicle s.record told [s.snapshot] := by
  have added : conflictSnapshots s.record = conflictSnapshots s ++ [s.snapshot] := by
    rw [conflictSnapshots_record records, if_pos (by simp [phase, coherent.isConflict_snapshot])]
  obtain ⟨conflicts, ordered, past, proper, given, taught⟩ := chronicle
  rw [List.append_nil] at conflicts ordered past proper
  rw [Solver.record, if_pos records] at added ⊢
  refine ⟨by rw [added, conflicts], ?_, ?_, ?_, given, taught⟩
  · rw [List.pairwise_append]
    exact ⟨ordered, List.pairwise_singleton .., fun p member _ new =>
      List.mem_singleton.mp new ▸ earlier p member⟩
  · rw [List.forall_mem_append, List.forall_mem_singleton]
    exact ⟨past, Nat.le_refl _⟩
  · rw [List.forall_mem_append, List.forall_mem_singleton]
    exact ⟨proper, coherent.graph.proper_view⟩

/-- A transition that neither finds a conflict nor goes back tells nothing new. -/
theorem onward (chronicle : Chronicle s told current) (same : SameHistory s' s) (phase : Phase) :
    Chronicle (s'.enter phase) told current where
  conflicts := by
    rw [← chronicle.conflicts, conflictSnapshots, conflictSnapshots, Solver.enter, same.history]
  ordered := chronicle.ordered
  past p member := by
    have earlier := chronicle.past p member
    change p.step ≤ s'.steps + 1
    rw [same.steps]
    exact Nat.le_succ_of_le earlier
  proper := chronicle.proper
  given := by
    change s'.inputSize ≤ s'.formula.clauses.length
    rw [same.inputSize, same.formula]
    exact chronicle.given
  taught := by
    change List.Forall₂ _ told (s'.formula.clauses.drop s'.inputSize)
    rw [same.inputSize, same.formula]
    exact chronicle.taught

/-- Going back learns the clause of the conflict that the solver is at. -/
theorem returned (chronicle : Chronicle s told [p]) (teaches : p.Teaches a.clause)
    (explains : a.Explains s.formula s.trail.entries s.level rest) {trail : Trail}
    {graph : ImplicationGraph} {undone : Nat} :
    Chronicle ((s.returned a trail graph undone).enter .propagate) (told ++ [p]) [] := by
  have clauses : (s.returned a trail graph undone).formula.clauses = s.formula.clauses ++ [a.clause] :=
    Searching.clauses_returned explains
  obtain ⟨conflicts, ordered, past, proper, given, taught⟩ := chronicle
  refine ⟨?_, ?_, ?_, ?_, ?_, ?_⟩
  · rw [List.append_nil]
    exact conflicts
  · rwa [List.append_nil]
  · rw [List.append_nil]
    exact fun p member => Nat.le_succ_of_le (past p member)
  · rwa [List.append_nil]
  · change s.inputSize ≤ (s.returned a trail graph undone).formula.clauses.length
    rw [clauses, List.length_append]
    omega
  · change List.Forall₂ _ _ ((s.returned a trail graph undone).formula.clauses.drop s.inputSize)
    rw [clauses, List.drop_append_of_le_length given]
    exact List.rel_append taught (.cons teaches .nil)

/-- What a step from a reached state makes of the chronicle. -/
theorem step (chronicle : Chronicle s told current) (shown : Shown s current)
    (reached : Reached setup f s) (records : setup.records = true) :
    ∃ told current, Chronicle s.step.2 told current ∧ Shown s.step.2 current := by
  have steps := reached.step.1
  have next := reached.step.2
  generalize s.step = outcome at steps next ⊢
  cases steps with
  | halted | spent => exact ⟨_, _, chronicle, shown⟩
  | @moved phase s' _ _ transits =>
    have isNext : (s'.enter phase).record.phase = phase := Solver.phase_record _
    have unrecorded := Solver.sameTrail_record (s'.enter phase)
    have recording : (s'.enter phase).setup.records = true := by
      rw [← unrecorded.setup, next.stage.setup_eq, records]
    have shows {current : List Snapshot} (shown : Shown (s'.enter phase) current) :
        Shown (s'.enter phase).record current :=
      shown.congr isNext (Solver.graph_record _) unrecorded.level (Solver.pending_record _)
    have entered (same : SameHistory s' s) : Chronicle (s'.enter phase) told current :=
      chronicle.onward same phase
    have quiet (same : SameHistory s' s) (other : phase ≠ .conflict) :
        Chronicle (s'.enter phase).record told current := (entered same).record recording other
    cases transits with
    | settled isPhase rounds =>
      obtain rfl := shown.eq_nil (isPhase ▸ rfl)
      obtain ⟨_, _, _, _, rfl⟩ := rounds.frame
      exact ⟨_, _, quiet ⟨rfl, rfl, rfl, rfl⟩ (by decide), shows (.nothing rfl)⟩
    | falsified isPhase rounds =>
      -- The one transition whose record is a new snapshot; it is later than all that were told.
      obtain rfl := shown.eq_nil (isPhase ▸ rfl)
      obtain ⟨_, _, _, _, rfl⟩ := rounds.frame
      obtain ⟨k, searching, -⟩ := next.stage.exists_clash (congrArg Phase.expectsConflict isNext)
      have coherent := searching.toCoherent.congr unrecorded.trail.symm unrecorded.formula.symm
        unrecorded.level.symm (Solver.graph_record _).symm
      refine ⟨_, _, (entered ⟨rfl, rfl, rfl, rfl⟩).record_conflict recording rfl coherent
        fun p member => ?_, shows (.arisen rfl rfl rfl)⟩
      exact Nat.lt_succ_of_le (chronicle.past p (List.mem_append_left _ member))
    | unfinished isPhase | answered isPhase | decided isPhase =>
      obtain rfl := shown.eq_nil (isPhase ▸ rfl)
      exact ⟨_, _, quiet ⟨rfl, rfl, rfl, rfl⟩ (by decide), shows (.nothing rfl)⟩
    | refuted isPhase =>
      obtain ⟨p, rfl, -⟩ := shown.exists_arisen isPhase
      exact ⟨_, _, quiet ⟨rfl, rfl, rfl, rfl⟩ (by decide), shows (.refuting rfl)⟩
    | analysed isPhase _ explains =>
      -- The graph that is analysed is still the one in the snapshot.
      obtain ⟨p, rfl, graph, level⟩ := shown.exists_arisen isPhase
      obtain ⟨k, searching, -⟩ := reached.stage.exists_clash (isPhase ▸ rfl)
      exact ⟨_, _, quiet ⟨rfl, rfl, rfl, rfl⟩ (by decide),
        shows (.analysed rfl rfl (searching.toCoherent.teaches explains graph level))⟩
    | returned isPhase _ pending explains =>
      obtain ⟨p, rfl, teaches⟩ := shown.exists_analysed isPhase pending
      exact ⟨_, _, (chronicle.returned teaches explains).record recording Phase.noConfusion,
        shows (.nothing rfl)⟩

end Chronicle

end Walkthrough

end Backjump
