import Backjump.Decider.Score
import Backjump.Proofs.Binary64
import Backjump.Proofs.OrderedMap

/-! Scores are finite. A weight is at most one, and where a sum is so large that one is
less than half a step, adding it changes nothing. However many clauses there are, no
sum gets past that, and so none comes near the bound of the finite numbers. -/
namespace Backjump

namespace Score

/-- An amount below half a step adds nothing to 53 ones in front of zeros. -/
theorem add_le {a b shift : Nat} (le : a ≤ (2 ^ 53 - 1) * 2 ^ shift) (small : 2 * b < 2 ^ shift) :
    add a b ≤ (2 ^ 53 - 1) * 2 ^ shift := by
  refine Binary64.roundUnits_le_of_lt ?_ Nat.one_pos
  generalize 2 ^ shift = step at le small
  omega

/-- What no sum of weights exceeds: at this magnitude a step is four. -/
def most : Nat := (2 ^ 53 - 1) * (2 ^ 2 * Binary64.one)

theorem most_lt_bound : most < Binary64.bound := by decide +kernel

theorem pow_sub_le (n k : Nat) : 2 ^ (n - k) ≤ 2 ^ n :=
  Nat.pow_le_pow_right (by decide) (Nat.sub_le n k)

theorem weight_le_one (size : Nat) : weight size ≤ Binary64.one := by
  unfold weight
  split_ifs
  · exact pow_sub_le 1074 size
  · exact Nat.zero_le _

theorem add_weight_le {a : Score} (le : a ≤ most) (size : Nat) : add a (weight size) ≤ most := by
  have some := Binary64.one_pos
  obtain ⟨shift, step⟩ : ∃ shift, 2 ^ 2 * Binary64.one = 2 ^ shift := ⟨1076, by decide +kernel⟩
  rw [most, step] at le ⊢
  refine add_le le (Nat.lt_of_le_of_lt (Nat.mul_le_mul_left 2 (weight_le_one size)) ?_)
  omega

/-- The sum is that of the numbers while it is finite. -/
theorem finite_add {a b : Score} (finite : add a b < Binary64.bound) :
    (Binary64.finite false a).add (.finite false b) = .finite false (add a b) := by
  have sum : Binary64.signedUnits false a + Binary64.signedUnits false b = ((a + b : Nat) : Int) := rfl
  rw [Binary64.add, sum]
  split_ifs with zero
  · have none : a + b = 0 := Int.ofNat_eq_zero.mp zero
    rw [add, none]
    rfl
  · have positive : decide (((a + b : Nat) : Int) < 0) = false := by
      simpa using Int.natCast_nonneg (a + b)
    rw [positive, Int.natAbs_natCast, Binary64.ofQuotient]
    exact if_pos finite

end Score

/-- Neither score of a variable exceeds what sums of weights do not. -/
def Weights.Bounded (w : Weights) : Prop := w.positive ≤ Score.most ∧ w.negative ≤ Score.most

theorem Weights.Bounded.add {w : Weights} (bounded : w.Bounded) (positive : Bool) (size : Nat) :
    (w.add positive (Score.weight size)).Bounded := by
  cases positive with
  | true => exact ⟨Score.add_weight_le bounded.1 size, bounded.2⟩
  | false => exact ⟨bounded.1, Score.add_weight_le bounded.2 size⟩

/-- Every weight of a formula's variables is bounded. -/
theorem Formula.bounded_weights (f : Formula) : ∀ p ∈ f.weights.entries, p.2.Bounded := by
  unfold weights
  refine List.foldlRecOn (motive := fun weights : OrderedMap Symbol Weights =>
    ∀ p ∈ weights.entries, p.2.Bounded) f.clauses _ ?_ fun weights bounded c _ => ?_
  · intro p member
    rw [OrderedMap.entries_ofList, List.mem_map] at member
    · obtain ⟨s, -, rfl⟩ := member
      exact ⟨Nat.zero_le _, Nat.zero_le _⟩
    · simpa [List.map_map, Function.comp_def] using f.symbols_nodup
  · refine List.foldlRecOn (motive := fun weights : OrderedMap Symbol Weights =>
      ∀ p ∈ weights.entries, p.2.Bounded) c.literals _ bounded fun weights bounded l _ => ?_
    intro p member
    rw [OrderedMap.entries_adjust, List.mem_map] at member
    obtain ⟨q, member, rfl⟩ := member
    dsimp only
    split_ifs
    · exact (bounded q member).add l.positive c.size
    · exact bounded q member

end Backjump
