import Backjump.Number
import Mathlib.Data.List.Basic
import Mathlib.Tactic.Linarith

/-! Which quotients have a binary64 number. Rounding to the nearest never passes a
magnitude that is itself a number. So a quotient up to the greatest finite magnitude
rounds to a finite one, and numbers always have a mean. -/
namespace Backjump

/-- Less than half a step above a whole number nothing is rounded past it. -/
theorem roundQuotient_le_of_lt {num den most : Nat} (lt : 2 * num < (2 * most + 1) * den) :
    roundQuotient num den ≤ most := by
  have pos : 0 < den := by
    by_contra zero
    rw [Nat.eq_zero_of_not_pos zero, Nat.mul_zero] at lt
    exact Nat.not_lt_zero _ lt
  have split := Nat.div_add_mod num den
  have quotient : num / den ≤ most := by
    refine Nat.le_of_lt_succ (Nat.div_lt_of_lt_mul ?_)
    linarith
  unfold roundQuotient
  by_cases whole : num / den = most
  · have low : 2 * (num % den) < den := by
      rw [whole] at split
      linarith
    simp only [low, if_true, quotient]
  · have room : num / den + num / den % 2 ≤ most := by omega
    simp only
    split
    · exact quotient
    · split
      · omega
      · exact room

theorem roundQuotient_le {num den most : Nat} (le : num ≤ most * den) (pos : 0 < den) :
    roundQuotient num den ≤ most :=
  roundQuotient_le_of_lt (by linarith)

namespace Binary64

/-- The greatest finite magnitude, in units. -/
def top : Nat := (2 ^ 53 - 1) * 2 ^ 2045

/-- No number that is encoded in 64 bits is finite beyond the greatest magnitude. -/
def InRange : Binary64 → Prop
  | finite _ units => units ≤ top
  | _ => True

instance (x : Binary64) : Decidable x.InRange :=
  match x with
  | finite _ units => inferInstanceAs (Decidable (units ≤ top))
  | infinite _ | nan => inferInstanceAs (Decidable True)

theorem one_pos : 0 < one := by decide +kernel

theorem mul_pow_lt {shift width : Nat} (wide : width = 53 + shift) :
    (2 ^ 53 - 1) * 2 ^ shift < 2 ^ width := by
  rw [wide, Nat.pow_add]
  exact Nat.mul_lt_mul_of_pos_right (by decide) (Nat.two_pow_pos shift)

theorem top_lt_bound : top < bound := mul_pow_lt (by decide)

/-- Less than half a step above 53 ones in front of zeros nothing is rounded past them. -/
theorem roundUnits_le_of_lt {num den shift : Nat} (lt : 2 * num < (2 ^ 54 - 1) * 2 ^ shift * den)
    (pos : 0 < den) : roundUnits num den ≤ (2 ^ 53 - 1) * 2 ^ shift := by
  unfold roundUnits
  generalize excess_eq : (num / den).log2 + 1 - 53 = excess
  have low : num / den < 2 ^ (53 + shift) := by
    refine Nat.div_lt_of_lt_mul ?_
    rw [Nat.pow_add, Nat.mul_comm, Nat.mul_assoc]
    rw [Nat.mul_assoc] at lt
    omega
  have few : excess ≤ shift := by
    by_cases zero : num / den = 0
    · rw [zero, Nat.log2_zero] at excess_eq
      omega
    · have := (Nat.log2_lt zero).mpr low
      omega
  rcases Nat.eq_or_lt_of_le few with rfl | fewer
  · refine Nat.mul_le_mul_right _ (roundQuotient_le_of_lt ?_)
    rwa [Nat.mul_comm den, ← Nat.mul_assoc]
  · -- With fewer bits to drop even the next power of two is no more than that.
    have width : num / den < 2 ^ (53 + excess) :=
      Nat.lt_of_lt_of_le Nat.lt_log2_self (Nat.pow_le_pow_right (by decide) (by omega))
    have rounded : roundQuotient num (den * 2 ^ excess) ≤ 2 ^ 53 := by
      refine roundQuotient_le ?_ (Nat.mul_pos pos (Nat.two_pow_pos excess))
      have := (Nat.div_lt_iff_lt_mul pos).mp width
      rw [Nat.pow_add] at this
      linarith
    calc roundQuotient num (den * 2 ^ excess) * 2 ^ excess
        ≤ 2 ^ 53 * 2 ^ excess := Nat.mul_le_mul_right _ rounded
      _ ≤ (2 ^ 53 - 1) * 2 ^ (excess + 1) := by
        rw [Nat.pow_succ]
        omega
      _ ≤ (2 ^ 53 - 1) * 2 ^ shift :=
        Nat.mul_le_mul_left _ (Nat.pow_le_pow_right (by decide) fewer)

theorem lt_trans {x y z : Binary64} (first : x.lt y = true) (second : y.lt z = true) :
    x.lt z = true := by
  cases x <;> cases y <;> cases z <;> simp_all [lt]
  omega

end Binary64

namespace Number

theorem lt_real (x y : Binary64) : (real x).lt (.real y) = x.lt y := by
  cases x <;> cases y <;> rfl

end Number

end Backjump
