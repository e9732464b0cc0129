import Backjump.Proofs.Solver.Moves

/-! What propagation does to a coherent state whose clauses are over the scope. It
appends entries at the current level, each forced by the first urgent clause of
its moment, and ends with no urgent clause left or with the first urgent one
falsified. Nothing else of the state changes but the picture and the records. -/
namespace Backjump

/-- No clause of the formula is urgent under the entries. -/
def Settled (f : Formula) (es : List Entry) : Prop :=
  ∀ c ∈ f.clauses, ¬c.Urgent (valuationOf es)

namespace Solver

/-- Every variable of the formula may be assigned. -/
def Known (s : Solver) : Prop :=
  ∀ c ∈ s.formula.clauses, ∀ l ∈ c.literals, l.symbol ∈ s.trail.scope

/-- The first urgent clause of the state, with its place and the literal it forces. -/
def urgent? (s : Solver) : Option (Nat × Clause × Option Literal) :=
  firstUrgent (valuationOf s.trail.entries) 0 s.formula.clauses

/-- Rounds of propagation that append `new`, each forced by the first urgent clause. -/
inductive Propagates : Solver → List Entry → Solver → Prop where
  | refl (s : Solver) : Propagates s [] s
  | next {s s' : Solver} {c : Clause} {l : Literal} {place : Nat} {graph : ImplicationGraph}
      {rest : List Entry} : s.urgent? = some (place, c, some l) →
      Propagates (s.implied l place graph) rest s' →
      Propagates s (s.trail.nextEntry l s.level (some place) :: rest) s'

variable {s s' : Solver} {new : List Entry} {c : Clause} {l : Literal} {place : Nat}
  {graph : ImplicationGraph}

theorem urgent?_eq_none : s.urgent? = none ↔ Settled s.formula s.trail.entries :=
  firstUrgent_eq_none

theorem urgent?_split {forced : Option Literal} (found : s.urgent? = some (place, c, forced)) :
    s.formula.clauses[place]? = some c ∧
      forced.elim (c.Falsified (valuationOf s.trail.entries)) (c.Forces (valuationOf s.trail.entries)) := by
  obtain ⟨before, after, split, rfl, _, status⟩ := firstUrgent_split found
  refine ⟨?_, status⟩
  rw [split, Nat.zero_add, List.getElem?_append_right (Nat.le_refl _), Nat.sub_self]
  rfl

/-- A literal that a clause forces is open, unless its variable may not be assigned. -/
theorem Coherent.forced_fresh {clash : Option Clash} (coherent : s.Coherent clash)
    (forces : c.Forces (valuationOf s.trail.entries) l) (inScope : l.symbol ∈ s.trail.scope) :
    l.symbol ∈ s.trail.unassigned := by
  rw [coherent.trail.unassigned]
  exact ⟨inScope, valuationOf_eq_none.mp (Literal.value_eq_none.mp forces.undecided)⟩

/-- What the scan does with the clause it found. -/
def pursue (s : Solver) : Option (Nat × Clause × Option Literal) → Attempt Solver (Option Nat)
  | none => (.ok none, s)
  | some (place, c, none) => (s.raiseConflict place c).andThen fun i s => (.ok (some i), s)
  | some (place, c, some l) => (s.imply l place c).andThen fun _ s => s.scan

theorem scan_eq_pursue (s : Solver) :
    s.scan = s.pursue (firstUrgent s.trail.valuation 0 s.formula.clauses) := by
  rw [scan]
  split
  · rename_i found
    rw [found, pursue]
  · rename_i found
    rw [found, pursue]
  · rename_i found
    rw [found, pursue]
    split
    · rename_i made
      rw [made, Attempt.andThen_error]
    · rename_i made
      rw [made, Attempt.andThen_ok]

theorem Coherent.scan_eq {clash : Option Clash} (coherent : s.Coherent clash) :
    s.scan = s.pursue s.urgent? := by
  rw [scan_eq_pursue, coherent.trail.valuation_eq, urgent?]

/-- Propagation from a coherent state: rounds until nothing is urgent, a clause is falsified, or a
clause forces a variable that may not be assigned. -/
theorem Coherent.scan_outcomes (coherent : s.Coherent none) :
    ∃ new s₁, Propagates s new s₁ ∧ s₁.Coherent none ∧
      ((s₁.urgent? = none ∧ s.scan = (.ok none, s₁)) ∨
        (∃ place c graph, s₁.urgent? = some (place, c, none) ∧
          s.scan = (.ok (some place), s₁.conflicted place c graph) ∧
          (s₁.conflicted place c graph).Coherent (some (s₁.clashAt place c))) ∨
        ∃ place c l fault, s₁.urgent? = some (place, c, some l) ∧ l.symbol ∉ s₁.trail.scope ∧
          s.scan = (.error fault, s₁)) := by
  -- Each round closes an open variable.
  induction open_ : s.trail.unassigned.length using Nat.strongRecOn generalizing s with
  | ind n ih =>
    cases found : s.urgent? with
    | none => exact ⟨[], s, .refl s, coherent, .inl ⟨found, by rw [coherent.scan_eq, found, pursue]⟩⟩
    | some urgent =>
      obtain ⟨place, c, forced⟩ := urgent
      obtain ⟨listed, status⟩ := urgent?_split found
      cases forced with
      | none =>
        obtain ⟨graph, raised, coherent'⟩ := coherent.raiseConflict_eq_ok listed status
        refine ⟨[], s, .refl s, coherent, .inr (.inl ⟨place, c, graph, found, ?_, coherent'⟩)⟩
        rw [coherent.scan_eq, found, pursue, raised]
        rfl
      | some l =>
        by_cases inScope : l.symbol ∈ s.trail.scope
        · have fresh := coherent.forced_fresh status inScope
          obtain ⟨graph, made, coherent'⟩ := coherent.imply_eq_ok listed status fresh
          have fewer : (s.implied l place graph).trail.unassigned.length < n := by
            rw [← open_]
            exact Trail.length_unassigned_push_lt fresh
          obtain ⟨new, s₁, rounds, coherent₁, outcome⟩ := ih _ fewer coherent' rfl
          have scanned : s.scan = (s.implied l place graph).scan := by
            rw [coherent.scan_eq, found, pursue, made, Attempt.andThen_ok]
          rw [← scanned] at outcome
          exact ⟨_, s₁, .next found rounds, coherent₁, outcome⟩
        · obtain ⟨fault, refused⟩ := coherent.imply_eq_error inScope place c
          refine ⟨[], s, .refl s, coherent, .inr (.inr ⟨place, c, l, fault, found, inScope, ?_⟩)⟩
          rw [coherent.scan_eq, found, pursue, refused, Attempt.andThen_error]

namespace Propagates

/-- Propagation changes only the trail, the picture and the records of what it did. -/
theorem frame (rounds : Propagates s new s') : ∃ trail graph propagations log,
    s' = { s with trail := trail, graph := graph, propagations := propagations, log := log } := by
  induction rounds with
  | refl s => exact ⟨_, _, _, _, rfl⟩
  | next _ _ ih =>
    obtain ⟨trail, graph, propagations, log, rfl⟩ := ih
    exact ⟨trail, graph, propagations, log, rfl⟩

theorem scope_eq (rounds : Propagates s new s') : s'.trail.scope = s.trail.scope := by
  induction rounds with
  | refl s => rfl
  | next _ _ ih => exact ih

theorem level_eq (rounds : Propagates s new s') : s'.level = s.level := by
  obtain ⟨_, _, _, _, rfl⟩ := rounds.frame
  rfl

theorem formula_eq (rounds : Propagates s new s') : s'.formula = s.formula := by
  obtain ⟨_, _, _, _, rfl⟩ := rounds.frame
  rfl

theorem entries_eq (rounds : Propagates s new s') :
    s'.trail.entries = s.trail.entries ++ new := by
  induction rounds with
  | refl s => simp
  | next _ _ ih =>
    rw [ih]
    simp [implied, report, Trail.push]

theorem implied (rounds : Propagates s new s') :
    ∀ e ∈ new, e.level = s.level ∧ e.isDecision = false := by
  induction rounds with
  | refl s => simp
  | next _ _ ih =>
    rw [List.forall_mem_cons]
    exact ⟨⟨rfl, rfl⟩, ih⟩

/-- What was reported before stays, and the reports of the rounds follow it. -/
theorem log_prefix (rounds : Propagates s new s') : s.log.toList <+: s'.log.toList := by
  induction rounds with
  | refl s => exact List.prefix_refl _
  | next _ _ ih =>
    refine List.IsPrefix.trans ?_ ih
    rw [Solver.implied, report, Array.toList_push]
    exact List.prefix_append ..

/-- If a clause forces a literal, the first round makes it true. -/
theorem exists_first (rounds : Propagates s new s') (urgent : s.urgent? = some (place, c, some l))
    (ended : ∀ place c l, s'.urgent? ≠ some (place, c, some l)) :
    ∃ rest graph, new = s.trail.nextEntry l s.level (some place) :: rest ∧
      Propagates (s.implied l place graph) rest s' := by
  cases rounds with
  | refl s => exact absurd urgent (ended place c l)
  | next found rounds =>
    rw [urgent] at found
    cases found
    exact ⟨_, _, rfl, rounds⟩

theorem ne_nil_of_forced (rounds : Propagates s new s') (urgent : s.urgent? = some (place, c, some l))
    (ended : ∀ place c l, s'.urgent? ≠ some (place, c, some l)) : new ≠ [] := by
  obtain ⟨_, _, rfl, -⟩ := rounds.exists_first urgent ended
  exact List.cons_ne_nil _ _

end Propagates

/-- When every variable of the formula may be assigned, propagation does not fail. -/
theorem Coherent.scan_cases (coherent : s.Coherent none) (known : s.Known) :
    ∃ new s₁, Propagates s new s₁ ∧ s₁.Coherent none ∧
      ((s₁.urgent? = none ∧ s.scan = (.ok none, s₁)) ∨
        ∃ place c graph, s₁.urgent? = some (place, c, none) ∧
          s.scan = (.ok (some place), s₁.conflicted place c graph) ∧
          (s₁.conflicted place c graph).Coherent (some (s₁.clashAt place c))) := by
  obtain ⟨new, s₁, rounds, coherent₁, ended | raised | ⟨place, c, l, fault, found, foreign, -⟩⟩ :=
    coherent.scan_outcomes
  · exact ⟨new, s₁, rounds, coherent₁, .inl ended⟩
  · exact ⟨new, s₁, rounds, coherent₁, .inr raised⟩
  · obtain ⟨listed, forces⟩ := urgent?_split found
    rw [rounds.formula_eq] at listed
    rw [rounds.scope_eq] at foreign
    exact absurd (known c (List.mem_of_getElem? listed) l forces.member) foreign

end Solver

end Backjump
