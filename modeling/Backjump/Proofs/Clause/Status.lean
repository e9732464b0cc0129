import Backjump.Proofs.Problem
import Backjump.Solver.Propagation

/-! The state of a clause under a valuation. A clause is falsified when all its
literals are false, and it forces a literal when that one is undecided and all
others are false; such a clause is urgent. A clause that is not urgent is
satisfied or has two undecided literals. The scan for an urgent clause finds
the first. -/
namespace Backjump

variable {v : Valuation} {c : Clause} {l : Literal}

namespace Literal

theorem value_eq_some {b : Bool} : l.value v = some b ↔ v l.symbol = some (b == l.positive) := by
  cases h : v l.symbol with
  | none => simp [value, h]
  | some x => cases x <;> cases b <;> cases hp : l.positive <;> simp [value, h, hp]

theorem value_eq_true : l.value v = some true ↔ v l.symbol = some l.positive := by
  simp [value_eq_some]

theorem value_eq_false : l.value v = some false ↔ v l.symbol = some !l.positive := by
  simp [value_eq_some]

theorem value_eq_none : l.value v = none ↔ v l.symbol = none := by
  simp [value]

theorem value_negate_eq_true : l.negate.value v = some true ↔ l.value v = some false := by
  simp [value_eq_true, value_eq_false, negate]

end Literal

/-- The interpretation gives the known values. -/
def Valuation.Fits (v : Valuation) (m : Interpretation) : Prop := ∀ x b, v x = some b → m x = b

namespace Literal

theorem trueIn_of_value {m : Interpretation} (fits : v.Fits m) (h : l.value v = some true) :
    l.TrueIn m :=
  fits _ _ (value_eq_true.mp h)

end Literal

namespace Clause

def Falsified (c : Clause) (v : Valuation) : Prop := ∀ l ∈ c.literals, l.value v = some false

/-- `l` is the only literal that can still make the clause true. -/
structure Forces (c : Clause) (v : Valuation) (l : Literal) : Prop where
  member : l ∈ c.literals
  undecided : l.value v = none
  others : ∀ k ∈ c.literals, k ≠ l → k.value v = some false

def Urgent (c : Clause) (v : Valuation) : Prop := c.Falsified v ∨ ∃ l, c.Forces v l

theorem isSatisfied_iff : c.isSatisfied v = true ↔ ∃ l ∈ c.literals, l.value v = some true := by
  simp [isSatisfied, Literal.holds]

theorem mem_open {ls : List Literal} (h : c.openLiterals? v = some ls) :
    (∀ l ∈ c.literals, l.value v ≠ some true) ∧
      ls = c.literals.filter fun l => l.value v == none := by
  unfold openLiterals? at h
  split at h
  · contradiction
  · rename_i unsatisfied
    rw [isSatisfied_iff] at unsatisfied
    exact ⟨fun l member satisfied => unsatisfied ⟨l, member, satisfied⟩, (Option.some.inj h).symm⟩

theorem openLiterals?_of_unsatisfied (h : ∀ l ∈ c.literals, l.value v ≠ some true) :
    c.openLiterals? v = some (c.literals.filter fun l => l.value v == none) := by
  unfold openLiterals?
  rw [if_neg]
  rw [isSatisfied_iff]
  rintro ⟨l, member, satisfied⟩
  exact h l member satisfied

theorem value_cases (h : l.value v ≠ some true) (decided : l.value v ≠ none) :
    l.value v = some false := by
  cases value : l.value v with
  | none => exact absurd value decided
  | some b => cases b <;> simp_all

theorem openLiterals?_eq_nil : c.openLiterals? v = some [] ↔ c.Falsified v := by
  constructor
  · intro h l member
    obtain ⟨unsatisfied, none_open⟩ := mem_open h
    apply value_cases (unsatisfied l member)
    intro undecided
    have found : l ∈ c.literals.filter fun l => l.value v == none := by simp [member, undecided]
    rw [← none_open] at found
    contradiction
  · intro falsified
    rw [openLiterals?_of_unsatisfied fun l member => by simp [falsified l member]]
    simp only [Option.some.injEq, List.filter_eq_nil_iff]
    intro l member
    simp [falsified l member]

theorem openLiterals?_eq_singleton : c.openLiterals? v = some [l] ↔ c.Forces v l := by
  constructor
  · intro h
    obtain ⟨unsatisfied, one_open⟩ := mem_open h
    have mem_iff (k : Literal) : k ∈ c.literals ∧ k.value v = none ↔ k = l := by
      simpa using (congrArg (k ∈ ·) one_open).symm
    refine ⟨((mem_iff l).mpr rfl).1, ((mem_iff l).mpr rfl).2, ?_⟩
    intro k member different
    exact value_cases (unsatisfied k member) fun undecided =>
      different ((mem_iff k).mp ⟨member, undecided⟩)
  · intro forces
    rw [openLiterals?_of_unsatisfied]
    · -- A list without repeats whose only member is `l` is `[l]`.
      have distinct := c.nodup.filter fun l => l.value v == none
      have mem_iff (k : Literal) : k ∈ c.literals.filter (fun l => l.value v == none) ↔ k = l := by
        simp only [List.mem_filter, beq_iff_eq]
        constructor
        · rintro ⟨member, undecided⟩
          by_contra different
          simp [forces.others k member different] at undecided
        · rintro rfl
          exact ⟨forces.member, forces.undecided⟩
      rw [Option.some.injEq]
      exact List.perm_singleton.mp ((List.perm_ext_iff_of_nodup distinct (by simp)).mpr
        (by simpa using mem_iff))
    · intro k member satisfied
      by_cases same : k = l
      · simp [same, forces.undecided] at satisfied
      · simp [forces.others k member same] at satisfied

theorem Forces.symbol_ne (forces : c.Forces v l) {k : Literal} (member : k ∈ c.literals)
    (different : k ≠ l) : k.symbol ≠ l.symbol := by
  intro same
  have undecided := Literal.value_eq_none.mp forces.undecided
  have decided := Literal.value_eq_false.mp (forces.others k member different)
  rw [same, undecided] at decided
  contradiction

/-- Either literal of a clause with two undecided ones keeps it from being urgent. -/
theorem not_urgent_of_two {k : Literal} (member : l ∈ c.literals) (member' : k ∈ c.literals)
    (different : k ≠ l) (undecided : l.value v = none) (undecided' : k.value v = none) :
    ¬c.Urgent v := by
  rintro (falsified | ⟨forced, forces⟩)
  · simp [falsified l member] at undecided
  · by_cases same : l = forced
    · subst same
      simp [forces.others k member' different] at undecided'
    · simp [forces.others l member same] at undecided

/-- A clause that is not urgent is neither falsified nor unit. -/
theorem openLiterals?_of_calm (calm : ¬c.Urgent v) :
    c.openLiterals? v ≠ some [] ∧ ∀ k, c.openLiterals? v ≠ some [k] :=
  ⟨fun falsified => calm (.inl (openLiterals?_eq_nil.mp falsified)),
    fun k unit => calm (.inr ⟨k, openLiterals?_eq_singleton.mp unit⟩)⟩

/-- In a clause that is not urgent a literal that no other one can replace is true. -/
theorem value_eq_true_of_calm (calm : ¬c.Urgent v) (member : l ∈ c.literals)
    (others : ∀ k ∈ c.literals, k ≠ l → k.value v = some false) : l.value v = some true := by
  by_contra unsatisfied
  apply calm
  by_cases undecided : l.value v = none
  · exact .inr ⟨l, member, undecided, others⟩
  · left
    intro k member'
    by_cases same : k = l
    · exact same ▸ value_cases unsatisfied undecided
    · exact others k member' same

/-- Order and repetition of the literals do not count. -/
theorem Urgent.congr {c' : Clause} (urgent : c.Urgent v)
    (same : ∀ l, l ∈ c'.literals ↔ l ∈ c.literals) : c'.Urgent v := by
  rcases urgent with falsified | ⟨l, forces⟩
  · exact .inl fun l listed => falsified l ((same l).mp listed)
  · exact .inr ⟨l, (same l).mpr forces.member, forces.undecided,
      fun k listed different => forces.others k ((same k).mp listed) different⟩

theorem satisfied_of_total (calm : ¬c.Urgent v) (total : ∀ l ∈ c.literals, l.value v ≠ none) :
    ∃ l ∈ c.literals, l.value v = some true := by
  by_contra unsatisfied
  apply calm
  left
  intro l member
  exact value_cases (fun satisfied => unsatisfied ⟨l, member, satisfied⟩) (total l member)

end Clause

section FirstUrgent

variable {place i : Nat} {rest cs : List Clause}

theorem firstUrgent_of_falsified (falsified : c.Falsified v) :
    firstUrgent v place (c :: rest) = some (place, c, none) := by
  simp only [firstUrgent, Clause.openLiterals?_eq_nil.mpr falsified]

theorem firstUrgent_of_forces (forces : c.Forces v l) :
    firstUrgent v place (c :: rest) = some (place, c, some l) := by
  simp only [firstUrgent, Clause.openLiterals?_eq_singleton.mpr forces]

theorem firstUrgent_of_calm (calm : ¬c.Urgent v) :
    firstUrgent v place (c :: rest) = firstUrgent v (place + 1) rest := by
  rw [firstUrgent]
  split
  · rename_i falsified
    exact absurd (Or.inl (Clause.openLiterals?_eq_nil.mp falsified)) calm
  · rename_i l forces
    exact absurd (Or.inr ⟨l, Clause.openLiterals?_eq_singleton.mp forces⟩) calm
  · rfl

theorem firstUrgent_eq_none : firstUrgent v place cs = none ↔ ∀ c ∈ cs, ¬c.Urgent v := by
  induction cs generalizing place with
  | nil => simp [firstUrgent]
  | cons c rest ih =>
    by_cases urgent : c.Urgent v
    · rcases urgent with falsified | ⟨l, forces⟩
      · simp [firstUrgent_of_falsified falsified, Clause.Urgent, falsified]
      · simp only [firstUrgent_of_forces forces, List.forall_mem_cons, reduceCtorEq, false_iff]
        exact fun calm => calm.1 (.inr ⟨l, forces⟩)
    · simp [firstUrgent_of_calm urgent, ih, urgent]

/-- What the scan finds is the first urgent clause, with the literal it forces if there is one. -/
theorem firstUrgent_split {forced : Option Literal}
    (found : firstUrgent v place cs = some (i, c, forced)) :
    ∃ before after, cs = before ++ c :: after ∧ i = place + before.length ∧
      (∀ b ∈ before, ¬b.Urgent v) ∧ forced.elim (c.Falsified v) (c.Forces v) := by
  induction cs generalizing place with
  | nil => simp [firstUrgent] at found
  | cons d rest ih =>
    by_cases urgent : d.Urgent v
    · rcases urgent with falsified | ⟨l, forces⟩
      · rw [firstUrgent_of_falsified falsified] at found
        cases found
        exact ⟨[], rest, rfl, rfl, by simp, falsified⟩
      · rw [firstUrgent_of_forces forces] at found
        cases found
        exact ⟨[], rest, rfl, rfl, by simp, forces⟩
    · rw [firstUrgent_of_calm urgent] at found
      obtain ⟨before, after, rfl, rfl, calm, status⟩ := ih found
      refine ⟨d :: before, after, rfl, by simp only [List.length_cons]; omega, ?_, status⟩
      simpa only [List.forall_mem_cons] using ⟨urgent, calm⟩

theorem firstUrgent_append {before : List Clause} (calm : ∀ b ∈ before, ¬b.Urgent v) :
    firstUrgent v place (before ++ cs) = firstUrgent v (place + before.length) cs := by
  induction before generalizing place with
  | nil => rfl
  | cons b before ih =>
    rw [List.forall_mem_cons] at calm
    rw [List.cons_append, firstUrgent_of_calm calm.1, ih calm.2, List.length_cons,
      Nat.add_assoc, Nat.add_comm 1]

end FirstUrgent

end Backjump
