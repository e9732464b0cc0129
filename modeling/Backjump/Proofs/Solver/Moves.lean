import Backjump.Proofs.Solver.Coherence

/-! The four moves of a solver on coherent states: making a forced literal true,
drawing a falsified clause, deciding and going back. Each succeeds and leaves a
coherent state; what it changes is written out, everything else stays. -/
namespace Backjump.Solver

variable {s : Solver} {clash : Option Clash} {c : Clause} {l : Literal} {place : Nat} {e : Entry}

namespace Coherent

/-- A further entry, drawn with its sources, keeps a state coherent. -/
theorem push {s' : Solver} (coherent : s.Coherent clash) (fresh : e.symbol ∈ s.trail.unassigned)
    (placed : e.index = s.trail.entries.length)
    (level : e.level = decisionCount (s.trail.entries ++ [e]))
    (justified : Justified s.formula s.trail.entries e)
    (graph : s'.graph.Draws (arrivals s.formula s.trail.entries clash ++ [e.arrival s.formula]))
    (trail_eq : s'.trail = s.trail.push e) (formula_eq : s'.formula = s.formula)
    (level_eq : s'.level = e.level) : s'.Coherent clash := by
  have entries : s'.trail.entries = s.trail.entries ++ [e] := by rw [trail_eq]; rfl
  have inside : ∀ k, clash = some k → k.position ≤ s.trail.entries.length :=
    fun k found => (coherent.clash k found).position
  constructor
  · rw [trail_eq]
    apply coherent.trail.push fresh placed
    intro e' member
    have low := coherent.layered.level_le e' member
    rw [decisionCount_append] at level
    omega
  · rw [entries]
    exact coherent.layered.snoc level
  · rw [entries, level_eq, level]
  · rw [entries, formula_eq]
    exact coherent.justified.snoc justified
  · rw [entries, formula_eq, arrivals_snoc inside]
    exact graph
  · intro k found
    obtain ⟨clause, position, level, falsified⟩ := coherent.clash k found
    rw [entries, formula_eq]
    have kept : (s.trail.entries ++ [e]).take k.position = s.trail.entries.take k.position :=
      List.take_append_of_le_length position
    exact ⟨clause, by simp; omega, kept.symm ▸ level, kept.symm ▸ falsified⟩

theorem not_mem_keys (coherent : s.Coherent clash) {x : Symbol} (fresh : x ∈ s.trail.unassigned) :
    some x ∉ (arrivals s.formula s.trail.entries clash).map Arrival.key := by
  rw [mem_keys_arrivals]
  rintro ⟨e, member, rfl⟩
  exact ((coherent.trail.unassigned _).mp fresh).2 e member rfl

end Coherent

/-- The state after a clause forced a literal, with the graph drawn on. -/
def implied (s : Solver) (l : Literal) (place : Nat) (graph : ImplicationGraph) : Solver :=
  report
    { s with
      trail := s.trail.push (s.trail.nextEntry l s.level (some place))
      graph := graph
      propagations := s.propagations + 1 }
    (.implied place l s.level)

theorem Coherent.imply_eq_ok (coherent : s.Coherent clash) (found : s.formula.clauses[place]? = some c)
    (forces : c.Forces (valuationOf s.trail.entries) l) (fresh : l.symbol ∈ s.trail.unassigned) :
    ∃ graph, s.imply l place c = (.ok (), s.implied l place graph) ∧
      (s.implied l place graph).Coherent clash := by
  let e := s.trail.nextEntry l s.level (some place)
  have assigned : s.trail.assign l s.level (some (place : Int)) = .ok (s.trail.push e) :=
    (coherent.trail.assign_eq_ok fresh coherent.level_le).1
  have unseen := coherent.not_mem_keys fresh
  have live : ∀ k ∈ reasons c l, k ∈ (arrivals s.formula s.trail.entries clash).map Arrival.key := by
    intro k reason
    obtain ⟨e', member, rfl⟩ := exists_entry_of_reason forces reason
    exact mem_keys_arrivals.mpr ⟨e', member, rfl⟩
  have sources : e.sources s.formula = reasons c l := Justified.sources_eq rfl found
  obtain ⟨graph, drawn, draws⟩ :=
    coherent.graph.arrive (v := e.vertex) unseen live (reasons_nodup forces.symbols_nodup)
  refine ⟨graph, ?_, ?_⟩
  · rw [imply, assigned]
    simp only [coherent.graph.addVertex_eq_ok unseen]
    have drawn : (s.graph.insert ⟨some l, s.level, false, some place⟩).addEdgesInto (some l.symbol)
        (reasons c l) = (.ok (), graph) := drawn
    simp only [drawn]
    rfl
  · apply coherent.push (e := e) fresh rfl
    · change s.level = _
      rw [decisionCount_append, coherent.level]
      rfl
    · intro i antecedent
      cases antecedent
      exact ⟨place, c, rfl, found, forces⟩
    · rw [Entry.arrival, sources]
      exact draws
    all_goals rfl

/-- A literal whose variable may not be assigned is refused, and nothing changes. -/
theorem Coherent.imply_eq_error (coherent : s.Coherent clash) (foreign : l.symbol ∉ s.trail.scope)
    (place : Nat) (c : Clause) : ∃ fault, s.imply l place c = (.error fault, s) := by
  have closed : l.symbol ∉ s.trail.unassigned := fun open_ =>
    foreign ((coherent.trail.unassigned _).mp open_).1
  obtain ⟨fault, refused⟩ := Trail.assign_eq_error closed s.level (some place)
  exact ⟨fault, by rw [imply, refused]⟩

/-- The conflict of a falsified clause found now. -/
def clashAt (s : Solver) (place : Nat) (c : Clause) : Clash :=
  ⟨s.trail.entries.length, s.level, place, c⟩

/-- The state after a falsified clause was drawn. -/
def conflicted (s : Solver) (place : Nat) (c : Clause) (graph : ImplicationGraph) : Solver :=
  report { s with graph := graph } (.falsified place c s.level)

theorem Coherent.raiseConflict_eq_ok (coherent : s.Coherent none)
    (found : s.formula.clauses[place]? = some c)
    (falsified : c.Falsified (valuationOf s.trail.entries)) :
    ∃ graph, s.raiseConflict place c = (.ok place, s.conflicted place c graph) ∧
      (s.conflicted place c graph).Coherent (some (s.clashAt place c)) := by
  have unseen : none ∉ (arrivals s.formula s.trail.entries none).map Arrival.key := by
    simp [none_mem_keys_arrivals]
  have live : ∀ k ∈ c.symbols.map some,
      k ∈ (arrivals s.formula s.trail.entries none).map Arrival.key := by
    intro k member
    obtain ⟨e, held, rfl⟩ := exists_entry_of_falsified falsified member
    exact mem_keys_arrivals.mpr ⟨e, held, rfl⟩
  have distinct : (c.symbols.map some).Nodup :=
    falsified.symbols_nodup.map fun _ _ same => Option.some.inj same
  obtain ⟨graph, drawn, draws⟩ := coherent.graph.arrive
    (v := ImplicationGraph.conflictVertex s.level (some place)) unseen live distinct
  have free : none ∉ s.graph.nodes := by
    rw [OrderedMap.mem_iff, coherent.graph.keys_eq]
    exact unseen
  refine ⟨graph, ?_, ?_⟩
  · rw [raiseConflict, ImplicationGraph.addConflict, if_neg free]
    have drawn : (s.graph.insert (ImplicationGraph.conflictVertex s.level (some place))).addEdgesInto
        none (c.symbols.map some) = (.ok (), graph) := drawn
    simp only [drawn]
    rfl
  · refine ⟨coherent.trail, coherent.layered, coherent.level, coherent.justified, ?_, ?_⟩
    · change graph.Draws (arrivals s.formula s.trail.entries (some (s.clashAt place c)))
      rw [arrivals_clash rfl]
      exact draws
    · rintro k isClash
      cases isClash
      have all : s.trail.entries.take s.trail.entries.length = s.trail.entries := List.take_length
      exact ⟨found, Nat.le_refl _, all.symm ▸ coherent.level, all.symm ▸ falsified⟩

/-- The state after a decision, with the graph drawn on. -/
def decided (s : Solver) (l : Literal) (graph : ImplicationGraph) : Solver :=
  report
    { s with
      level := s.level + 1
      trail := s.trail.push (s.trail.nextEntry l (s.level + 1) none)
      graph := graph
      decisions := s.decisions + 1 }
    (.decided l (s.level + 1))

theorem Coherent.decide_eq_ok (coherent : s.Coherent clash) (picked : s.decider.pick s.trail = some l)
    (fresh : l.symbol ∈ s.trail.unassigned) :
    ∃ graph, s.decide = (.ok l, s.decided l graph) ∧ (s.decided l graph).Coherent clash := by
  let e := s.trail.nextEntry l (s.level + 1) none
  have above : ∀ e' ∈ s.trail.entries, e'.level ≤ s.level + 1 := fun e' member => by
    have := coherent.level_le e' member
    omega
  have assigned : s.trail.assign l (s.level + 1) none = .ok (s.trail.push e) :=
    (coherent.trail.assign_eq_ok fresh above).1
  have unseen := coherent.not_mem_keys fresh
  refine ⟨s.graph.insert e.vertex, ?_, ?_⟩
  · rw [decide, picked]
    simp only [assigned, coherent.graph.addVertex_eq_ok unseen]
    rfl
  · apply coherent.push (e := e) fresh rfl
    · change s.level + 1 = _
      rw [decisionCount_append, coherent.level]
      rfl
    · intro i antecedent
      contradiction
    · exact coherent.graph.insert unseen
    all_goals rfl

/-- The formula after going back, with the learned clause if there is one. -/
def extended (s : Solver) (learned : Option Clause) : Formula :=
  learned.elim s.formula fun c => s.formula.add c true

/-- The state after going back to a level. -/
def retreated (s : Solver) (target : Int) (learned : Option Clause) (trail : Trail)
    (graph : ImplicationGraph) (undone : Nat) : Solver :=
  report
    { s with
      trail := trail
      graph := graph
      level := target
      formula := s.extended learned }
    (.backjumped target undone learned)

theorem Coherent.backtrack_eq_ok (coherent : s.Coherent clash) {target : Int} (nonneg : 0 ≤ target)
    (reached : target ≤ s.level) (learned : Option Clause) :
    ∃ trail graph undone, s.backtrack target learned =
        (.ok (), s.retreated target learned trail graph undone) ∧
      trail.scope = s.trail.scope ∧ trail.entries = upTo target s.trail.entries ∧
      (s.retreated target learned trail graph undone).Coherent none := by
  obtain ⟨removed, trail, truncated, recorded, scope, entries, _⟩ :=
    coherent.trail.truncate_eq_ok target
  refine ⟨trail, (s.graph.removeAbove target).2, removed.length, ?_, scope, entries, ?_⟩
  · rw [backtrack, if_neg (by omega), truncated]
    rfl
  have sorted := coherent.layered.sorted
  have justified : Built (Justified s.formula) trail.entries :=
    entries ▸ coherent.justified.upTo sorted target
  have layered : Layered trail.entries := entries ▸ Built.upTo coherent.layered sorted target
  constructor
  · exact recorded
  · exact layered
  · change target = _
    obtain ⟨n, rfl⟩ := Int.eq_ofNat_of_zero_le nonneg
    have enough : n ≤ decisionCount s.trail.entries := by
      rw [coherent.level] at reached
      omega
    change (n : Int) = decisionCount trail.entries
    rw [entries, coherent.layered.decisionCount_upTo enough]
  · change Built (Justified (s.extended learned)) trail.entries
    cases learned with
    | none => exact justified
    | some c => exact justified.mono fun _ _ holds => holds.extend (s.formula.clauses_prefix_add c true)
  · change (s.graph.removeAbove target).2.Draws (arrivals (s.extended learned) trail.entries none)
    have same : arrivals (s.extended learned) trail.entries none =
        arrivals s.formula trail.entries none := by
      cases learned with
      | none => rfl
      | some c => exact arrivals_of_prefix justified (s.formula.clauses_prefix_add c true)
    have cut : (arrivals s.formula s.trail.entries clash).filter (Arrival.staysAt target) =
        arrivals s.formula (upTo target s.trail.entries) none := filter_staysAt_arrivals
    rw [same, entries, ← cut]
    exact coherent.graph.removeAbove coherent.staysAt_closed
  · intro k found
    contradiction

end Backjump.Solver
