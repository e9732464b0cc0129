import Backjump.Proofs.Solver.Propagation

/-! The scan as a loop over a place in the formula. A turn goes on to the next
clause, starts over after a forced assignment, or ends. Since every assignment
closes an open variable, the loop ends after as many passes over the formula as
variables are open and one more, whatever state it starts from, and with the
answer of the scan. -/
namespace Backjump.Solver

variable {s s' : Solver} {l : Literal} {place : Nat} {c : Clause}

/-- What a turn of the loop does. -/
inductive Turn where
  | ends (outcome : Attempt Solver (Option Nat))
  | goesOn (place : Nat) (s : Solver)

/-- Looks at the clause of a place. -/
def turn (s : Solver) (place : Nat) : Turn :=
  match s.formula.clauses[place]? with
  | none => .ends (.ok none, s)
  | some c =>
    match c.openLiterals? s.trail.valuation with
    | some [] => .ends ((s.raiseConflict place c).andThen fun i s => (.ok (some i), s))
    | some [l] =>
      match s.imply l place c with
      | (.error f, s') => .ends (.error f, s')
      | (.ok (), s') => .goesOn 0 s'
    | _ => .goesOn (place + 1) s

/-- The outcome of the loop, if so many turns are enough. -/
def loop : Nat → Solver → Nat → Option (Attempt Solver (Option Nat))
  | 0, _, _ => none
  | turns + 1, s, place =>
    match s.turn place with
    | .ends outcome => some outcome
    | .goesOn place s => loop turns s place

/-- The turns that a state needs at most from the first clause. -/
def turnBound (s : Solver) : Nat := (s.trail.unassigned.length + 1) * (s.formula.size + 1)

theorem formula_imply (made : s.imply l place c = (.ok (), s')) : s'.formula = s.formula := by
  unfold imply at made
  split at made
  · simp at made
  · simp only at made
    split at made
    · simp at made
    · split at made
      · simp at made
      · cases made
        rfl

/-- After a forced assignment there are turns left for another pass. -/
theorem pass_le_of_imply {turns : Nat} (made : s.imply l place c = (.ok (), s'))
    (enough : s.trail.unassigned.length * (s.formula.size + 1) ≤ turns) :
    s'.formula.clauses.length + 1 + s'.trail.unassigned.length * (s'.formula.size + 1) ≤ turns := by
  have fewer := Trail.length_unassigned_assign_lt (trail_of_imply made)
  have passes := Nat.mul_le_mul_right (s.formula.size + 1) fewer
  rw [Nat.succ_mul] at passes
  rw [formula_imply made]
  change s.formula.size + 1 + _ ≤ turns
  omega

theorem turn_of_calm (found : s.formula.clauses[place]? = some c)
    (calm : ¬c.Urgent s.trail.valuation) : s.turn place = .goesOn (place + 1) s := by
  rw [turn, found]
  simp only
  split
  · rename_i falsified
    exact absurd (Or.inl (Clause.openLiterals?_eq_nil.mp falsified)) calm
  · rename_i l forces
    exact absurd (Or.inr ⟨l, Clause.openLiterals?_eq_singleton.mp forces⟩) calm
  · rfl

theorem turn_of_falsified (found : s.formula.clauses[place]? = some c)
    (falsified : c.Falsified s.trail.valuation) :
    s.turn place = .ends ((s.raiseConflict place c).andThen fun i s => (.ok (some i), s)) := by
  rw [turn, found]
  simp only [Clause.openLiterals?_eq_nil.mpr falsified]

theorem turn_of_forces (found : s.formula.clauses[place]? = some c)
    (forces : c.Forces s.trail.valuation l) :
    s.turn place = match s.imply l place c with
      | (.error f, s') => .ends (.error f, s')
      | (.ok (), s') => .goesOn 0 s' := by
  rw [turn, found]
  simp only [Clause.openLiterals?_eq_singleton.mpr forces]

section Pass

variable {before rest : List Clause}

theorem getElem?_of_split (split : s.formula.clauses = before ++ c :: rest) :
    s.formula.clauses[before.length]? = some c := by
  rw [split, List.getElem?_append_right (Nat.le_refl _), Nat.sub_self]
  rfl

theorem scan_of_split (split : s.formula.clauses = before ++ rest)
    (calm : ∀ b ∈ before, ¬b.Urgent s.trail.valuation) :
    s.scan = s.pursue (firstUrgent s.trail.valuation before.length rest) := by
  rw [scan_eq_pursue, split, firstUrgent_append calm, Nat.zero_add]

/-- From a place with calm clauses before it, the rest of the pass and one pass for every open
variable are enough. -/
theorem loop_eq_scan {turns : Nat} (split : s.formula.clauses = before ++ rest)
    (calm : ∀ b ∈ before, ¬b.Urgent s.trail.valuation)
    (enough : rest.length + 1 + s.trail.unassigned.length * (s.formula.size + 1) ≤ turns) :
    s.loop turns before.length = some s.scan := by
  induction turns generalizing s before rest with
  | zero => omega
  | succ turns ih =>
    rw [loop, scan_of_split split calm]
    cases rest with
    | nil =>
      have behind : s.formula.clauses[before.length]? = none := by simp [split]
      rw [turn, behind]
      rfl
    | cons c rest =>
      have found := getElem?_of_split split
      rw [List.length_cons] at enough
      by_cases urgent : c.Urgent s.trail.valuation
      · rcases urgent with falsified | ⟨l, forces⟩
        · rw [turn_of_falsified found falsified, firstUrgent_of_falsified falsified, pursue]
        · rw [turn_of_forces found forces, firstUrgent_of_forces forces, pursue]
          cases made : s.imply l before.length c with
          | mk answer s' =>
            cases answer with
            | error fault => rfl
            | ok _ =>
              -- The pass starts over, with one open variable less.
              have whole : s'.formula.clauses = [] ++ s'.formula.clauses := rfl
              exact ih whole (by simp) (pass_le_of_imply made (by omega))
      · rw [turn_of_calm found urgent, firstUrgent_of_calm urgent]
        have split' : s.formula.clauses = (before ++ [c]) ++ rest := by simp [split]
        have calm' : ∀ b ∈ before ++ [c], ¬b.Urgent s.trail.valuation := by
          simpa [or_imp, forall_and] using ⟨calm, urgent⟩
        have onward := ih split' calm' (by omega)
        rw [scan_of_split split' calm', List.length_append, List.length_singleton] at onward
        exact onward

end Pass

/-- The loop ends within its bound, from every state, with the answer of the scan. -/
theorem loop_turnBound (s : Solver) : s.loop s.turnBound 0 = some s.scan := by
  have enough : s.formula.clauses.length + 1 + s.trail.unassigned.length * (s.formula.size + 1) ≤
      s.turnBound := by
    rw [turnBound, Nat.succ_mul]
    exact Nat.le_of_eq (Nat.add_comm ..)
  have whole : s.formula.clauses = [] ++ s.formula.clauses := rfl
  exact loop_eq_scan whole (by simp) enough

end Backjump.Solver
