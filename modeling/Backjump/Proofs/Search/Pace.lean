import Backjump.Proofs.Search.Run

/-! How far a search has come. An entry weighs the more the lower its level: one
entry of a level outweighs all entries that higher levels can hold. A decision
adds an entry, and a backjump trades entries of higher levels for one at its
target, since the learned clause forces a literal there. So from one propagation
to the next the weight of the trail grows, and three transitions lie between. -/
namespace Backjump

/-- The weight of an entry in a search over so many variables. -/
def levelWeight (count : Nat) (level : Int) : Nat := (count + 1) ^ (count - level.toNat)

def weight (count : Nat) : List Entry → Nat
  | [] => 0
  | e :: es => levelWeight count e.level + weight count es

/-- After each propagation the weight is at least the number of rounds that were made; when a
literal is forced already, the entry that is due counts. -/
def Paced (count : Nat) (s : Solver) : Prop :=
  ∃ rounds, match s.phase with
    | .propagate => s.steps = 3 * rounds ∧ (rounds ≤ weight count s.trail.entries ∨
        (∃ place c l, s.urgent? = some (place, c, some l)) ∧
          rounds ≤ weight count s.trail.entries + levelWeight count s.level)
    | .fixpoint | .conflict => s.steps = 3 * rounds + 1 ∧ rounds ≤ weight count s.trail.entries
    | _ => s.steps = 3 * rounds + 2 ∧ rounds ≤ weight count s.trail.entries

variable {count : Nat} {front back es new : List Entry} {e : Entry} {level n : Int} {setup : Setup}
  {f : Formula} {s s' : Solver} {phase : Phase} {clash : Option Clash}

theorem levelWeight_pos : 0 < levelWeight count level := Nat.pow_pos (Nat.succ_pos _)

theorem weight_append : weight count (front ++ back) = weight count front + weight count back := by
  induction front with
  | nil => rw [List.nil_append, weight, Nat.zero_add]
  | cons e rest ih => rw [List.cons_append, weight, weight, ih, Nat.add_assoc]

theorem weight_singleton : weight count [e] = levelWeight count e.level := rfl

theorem weight_le {bound : Nat} (light : ∀ e ∈ es, levelWeight count e.level ≤ bound) :
    weight count es ≤ es.length * bound := by
  induction es with
  | nil => simp [weight]
  | cons e rest ih =>
    rw [List.forall_mem_cons] at light
    have rest_le := ih light.2
    rw [weight, List.length_cons, Nat.succ_mul, Nat.add_comm]
    exact Nat.add_le_add rest_le light.1

/-- Everything above a level weighs less than one entry of the level. -/
theorem weight_lt_levelWeight (few : es.length ≤ count) (above : ∀ e ∈ es, n < e.level)
    (nonneg : 0 ≤ n) (room : n < count) : weight count es < levelWeight count n := by
  obtain ⟨k, rfl⟩ := Int.eq_ofNat_of_zero_le nonneg
  obtain ⟨gap, rfl⟩ := Nat.exists_eq_add_of_lt (Int.ofNat_lt.mp room)
  have light : ∀ e ∈ es, levelWeight (k + gap + 1) e.level ≤ (k + gap + 2) ^ gap := by
    intro e member
    have := above e member
    exact Nat.pow_le_pow_right (Nat.succ_pos _) (by omega)
  have power : levelWeight (k + gap + 1) k = (k + gap + 2) ^ gap * (k + gap + 2) := by
    rw [levelWeight, Int.toNat_natCast, show k + gap + 1 - k = gap + 1 by omega, Nat.pow_succ]
  calc weight (k + gap + 1) es
      ≤ es.length * (k + gap + 2) ^ gap := weight_le light
    _ ≤ (k + gap + 1) * (k + gap + 2) ^ gap := Nat.mul_le_mul_right _ few
    _ < (k + gap + 2) ^ gap * (k + gap + 2) := by
        rw [Nat.mul_comm]
        exact Nat.mul_lt_mul_of_pos_left (Nat.lt_succ_self _) (Nat.pow_pos (Nat.succ_pos _))
    _ = levelWeight (k + gap + 1) k := power.symm

theorem levelWeight_le : levelWeight count level ≤ (count + 1) ^ count :=
  Nat.pow_le_pow_right (Nat.succ_pos _) (Nat.sub_le ..)

/-- New entries of one level outweigh the level if there are any. -/
theorem levelWeight_le_weight (nonempty : es ≠ []) (same : ∀ e ∈ es, e.level = level) :
    levelWeight count level ≤ weight count es := by
  obtain ⟨e, rest, rfl⟩ := List.exists_cons_of_ne_nil nonempty
  rw [← same e List.mem_cons_self, ← List.singleton_append, weight_append, weight_singleton]
  exact Nat.le_add_right ..

namespace Searching

variable (searching : Searching setup f s clash)

include searching

theorem length_entries_le : s.trail.entries.length ≤ f.symbols.length := by
  rw [← searching.scope_eq]
  exact searching.trail.length_le

theorem level_le_count : s.level ≤ f.symbols.length := by
  have few := searching.length_entries_le
  have decisions : decisionCount s.trail.entries ≤ s.trail.entries.length := List.countP_le_length
  have level := searching.level
  omega

/-- Going back below the level costs less than one entry of the target weighs. -/
theorem weight_lt_upTo {target : Int} (nonneg : 0 ≤ target) (below : target < s.level) :
    weight f.symbols.length s.trail.entries <
      weight f.symbols.length (upTo target s.trail.entries) +
        levelWeight f.symbols.length target := by
  obtain ⟨back, split, above⟩ := exists_append_upTo searching.layered.sorted target
  have few := searching.length_entries_le
  have top := searching.level_le_count
  have lengths := congrArg List.length split
  rw [List.length_append] at lengths
  have light : weight f.symbols.length back < levelWeight f.symbols.length target :=
    weight_lt_levelWeight (by omega) above nonneg (by omega)
  have whole := congrArg (weight f.symbols.length) split
  rw [weight_append] at whole
  omega

end Searching

namespace Paced

theorem start (setup : Setup) (f : Formula) (count : Nat) : Paced count (Solver.start setup f) := by
  have phase : (Solver.start setup f).phase = .propagate := Solver.phase_record _
  refine ⟨0, ?_⟩
  rw [phase]
  exact ⟨Solver.steps_record _, .inl (Nat.zero_le _)⟩

theorem record (paced : Paced count s) : Paced count s.record := by
  unfold Solver.record
  split <;> exact paced

/-- Propagation appends the entry that is due. -/
theorem rounds_le {rounds : Nat} (rounds_le : rounds ≤ weight count s.trail.entries ∨
      (∃ place c l, s.urgent? = some (place, c, some l)) ∧
        rounds ≤ weight count s.trail.entries + levelWeight count s.level)
    (propagates : Solver.Propagates s new s')
    (ended : ∀ place c l, s'.urgent? ≠ some (place, c, some l)) :
    rounds ≤ weight count s'.trail.entries := by
  rw [propagates.entries_eq, weight_append]
  rcases rounds_le with low | ⟨⟨place, c, l, urgent⟩, low⟩
  · omega
  · have heavy : levelWeight count s.level ≤ weight count new :=
      levelWeight_le_weight (propagates.ne_nil_of_forced urgent ended)
        fun e member => (propagates.implied e member).1
    omega

theorem enter (stage : Stage setup f s) (paced : Paced f.symbols.length s)
    (transits : s.Transits phase s') : Paced f.symbols.length (s'.enter phase) := by
  obtain ⟨rounds, paced⟩ := paced
  have steps := transits.steps_eq
  cases transits with
  | settled isPhase propagates calm =>
    rw [isPhase] at paced
    have grown := rounds_le paced.2 propagates (by simp [calm])
    exact ⟨rounds, congrArg (· + 1) (steps.trans paced.1), grown⟩
  | falsified isPhase propagates urgent =>
    rw [isPhase] at paced
    have grown := rounds_le paced.2 propagates (by simp [urgent])
    exact ⟨rounds, congrArg (· + 1) (steps.trans paced.1), grown⟩
  | unfinished isPhase =>
    rw [isPhase] at paced
    exact ⟨rounds, congrArg (· + 1) (steps.trans paced.1), paced.2⟩
  | answered isPhase =>
    rw [isPhase] at paced
    exact ⟨rounds, congrArg (· + 1) (steps.trans paced.1), paced.2⟩
  | refuted isPhase =>
    rw [isPhase] at paced
    exact ⟨rounds, congrArg (· + 1) (steps.trans paced.1), paced.2⟩
  | analysed isPhase =>
    rw [isPhase] at paced
    exact ⟨rounds, congrArg (· + 1) (steps.trans paced.1), paced.2⟩
  | @returned a rest trail graph undone isPhase positive _ explains _ entries urgent =>
    rw [isPhase] at paced
    obtain ⟨clash, searching, -⟩ := stage.exists_searching
    have nonneg := explains.target_nonneg searching.layered.level_nonneg
    have below := explains.target_lt searching.trail.distinct positive
    have trade := searching.weight_lt_upTo nonneg below
    rw [← entries] at trade
    refine ⟨rounds + 1, congrArg (· + 1) (steps.trans paced.1), .inr ⟨⟨_, _, _, urgent⟩, ?_⟩⟩
    change rounds + 1 ≤ weight _ trail.entries + levelWeight _ a.target
    omega
  | @decided l graph isPhase picked =>
    rw [isPhase] at paced
    refine ⟨rounds + 1, congrArg (· + 1) (steps.trans paced.1), .inl ?_⟩
    change rounds + 1 ≤ weight _ (s.trail.entries ++ [s.trail.nextEntry l (s.level + 1) none])
    rw [weight_append, weight_singleton]
    exact Nat.add_le_add paced.2 levelWeight_pos

theorem step (reached : Reached setup f s) (paced : Paced f.symbols.length s) :
    Paced f.symbols.length s.step.2 := by
  have steps := reached.step.1
  generalize s.step = outcome at steps
  cases steps with
  | halted => exact paced
  | spent => exact paced
  | moved running affordable transits => exact (paced.enter reached.stage transits).record

theorem after (reached : Reached setup f s) (paced : Paced f.symbols.length s) (n : Nat) :
    Paced f.symbols.length (s.after n) :=
  reached.keeps_after (Paced f.symbols.length) paced step n

/-- A search that is not over has made fewer steps than the bound. -/
theorem steps_lt (reached : Reached setup f s) (paced : Paced f.symbols.length s)
    (running : s.phase.isTerminal = false) : s.steps < Solver.stepBound f.symbols.length := by
  obtain ⟨clash, searching, -⟩ := reached.stage.exists_searching
  obtain ⟨rounds, paced⟩ := paced
  generalize count_eq : f.symbols.length = count at paced ⊢
  have few : weight count s.trail.entries ≤ count * (count + 1) ^ count :=
    Nat.le_trans (weight_le fun _ _ => levelWeight_le)
      (Nat.mul_le_mul_right _ (count_eq ▸ searching.length_entries_le))
  have one : levelWeight count s.level ≤ (count + 1) ^ count := levelWeight_le
  have power : (count + 1) ^ (count + 1) = count * (count + 1) ^ count + (count + 1) ^ count := by
    rw [Nat.pow_succ, Nat.mul_comm, Nat.succ_mul]
  have positive : 0 < (count + 1) ^ count := Nat.pow_pos (Nat.succ_pos _)
  rw [Solver.stepBound, power]
  cases phase : s.phase with
  | propagate =>
    rw [phase] at paced
    obtain ⟨steps, low | ⟨-, low⟩⟩ := paced <;> omega
  | fixpoint => rw [phase] at paced; obtain ⟨steps, low⟩ := paced; omega
  | conflict => rw [phase] at paced; obtain ⟨steps, low⟩ := paced; omega
  | decide => rw [phase] at paced; obtain ⟨steps, low⟩ := paced; omega
  | backtrack => rw [phase] at paced; obtain ⟨steps, low⟩ := paced; omega
  | satisfied => simp [phase, Phase.isTerminal] at running
  | unsatisfiable => simp [phase, Phase.isTerminal] at running

end Paced

end Backjump
