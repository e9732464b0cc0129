import Backjump.Binary64.Scan
import Backjump.Proofs.Binary64.Nearest
import Mathlib.Data.List.TakeWhile

/-! Decimals as numbers. What a decimal reads as depends on its worth alone: zeros at the end of
the significand count as much as the exponent. The bounds on the exponent only save
computation. A decimal in print is read as its significand and exponent. -/
namespace Backjump

namespace Binary64

/-- Nothing but zeros can be left of a quotient below a half. -/
theorem roundUnits_eq_zero {num den : Nat} (low : 2 * num < den) : roundUnits num den = 0 := by
  have none : num / den = 0 := Nat.div_eq_of_lt (by omega)
  have rounded : roundQuotient num den = 0 :=
    roundQuotient_eq (by omega) (by rw [Nat.mul_zero, Nat.zero_mul, Nat.zero_add]; exact low)
  simp only [roundUnits, none, Nat.log2_zero, Nat.zero_add, Nat.reduceSub, Nat.pow_zero, Nat.mul_one]
  exact rounded

theorem ofQuotient_eq_zero {num den : Nat} (low : 2 * num < den) (negative : Bool) :
    ofQuotient negative num den = finite negative 0 := by
  simp only [ofQuotient, roundUnits_eq_zero low, bound_pos, if_true]

/-- Rounding does not go below a power of two that the quotient reaches. -/
theorem pow_le_roundUnits {num den width : Nat} (wide : 52 ≤ width) (reached : 2 ^ width ≤ num / den) :
    2 ^ width ≤ roundUnits num den := by
  have some : num / den ≠ 0 := by
    have := Nat.two_pow_pos width
    omega
  have bits : width ≤ (num / den).log2 := (Nat.le_log2 some).mpr reached
  have most : 2 ^ (num / den).log2 ≤ num / den := Nat.log2_self_le some
  obtain ⟨excess, sum⟩ := Nat.exists_eq_add_of_le (Nat.le_trans wide bits)
  have kept : 2 ^ 52 ≤ roundQuotient num (den * 2 ^ excess) := by
    have whole : 2 ^ 52 ≤ num / (den * 2 ^ excess) := by
      rw [← Nat.div_div_eq_div_mul, Nat.le_div_iff_mul_le (Nat.two_pow_pos excess), ← Nat.pow_add, ← sum]
      exact most
    refine Nat.le_trans whole ?_
    unfold roundQuotient
    dsimp only
    split_ifs <;> omega
  have dropped : (num / den).log2 + 1 - 53 = excess := by omega
  calc 2 ^ width ≤ 2 ^ (num / den).log2 := Nat.pow_le_pow_right (by decide) bits
    _ = 2 ^ 52 * 2 ^ excess := by rw [sum, Nat.pow_add]
    _ ≤ roundUnits num den := by
      simp only [roundUnits, dropped]
      exact Nat.mul_le_mul_right _ kept

theorem ofQuotient_eq_infinite {num den : Nat} (pos : 0 < den) (great : bound * den ≤ num)
    (negative : Bool) : ofQuotient negative num den = infinite negative := by
  have reached : bound ≤ num / den := (Nat.le_div_iff_mul_le pos).mpr great
  have kept : bound ≤ roundUnits num den := pow_le_roundUnits (by decide) reached
  simp only [ofQuotient, Nat.not_lt_of_ge kept, if_false]

theorem two_pow_le_ten_pow (k : Nat) : 2 ^ (3 * k) ≤ 10 ^ k := by
  rw [Nat.pow_mul]
  exact Nat.pow_le_pow_left (by decide) k

theorem ten_pow_le_two_pow (k : Nat) : 10 ^ k ≤ 2 ^ (4 * k) := by
  rw [Nat.pow_mul]
  exact Nat.pow_le_pow_left (by decide) k

section Decimal

variable {significand : Nat} {exponent : Int}

theorem ofQuotient_huge (some : significand ≠ 0) (huge : 400 < (significand.log2 : Int) / 4 + exponent)
    (negative : Bool) :
    ofQuotient negative (significand * 10 ^ exponent.toNat * one) (10 ^ (-exponent).toNat) =
      infinite negative := by
  refine ofQuotient_eq_infinite (Nat.pow_pos (by decide)) ?_ negative
  calc bound * 10 ^ (-exponent).toNat
      ≤ bound * 2 ^ (4 * (-exponent).toNat) := Nat.mul_le_mul_left _ (ten_pow_le_two_pow _)
    _ = 2 ^ (2098 + 4 * (-exponent).toNat) := by rw [bound, Nat.pow_add]
    _ ≤ 2 ^ (significand.log2 + 3 * exponent.toNat + 1074) :=
      Nat.pow_le_pow_right (by decide) (by omega)
    _ = 2 ^ significand.log2 * 2 ^ (3 * exponent.toNat) * one := by rw [one, ← Nat.pow_add, ← Nat.pow_add]
    _ ≤ significand * 10 ^ exponent.toNat * one :=
      Nat.mul_le_mul_right _ (Nat.mul_le_mul (Nat.log2_self_le some) (two_pow_le_ten_pow _))

theorem ofQuotient_tiny
    (tiny : (significand.log2 : Int) / 4 + exponent + (significand.log2 : Int) < -800)
    (negative : Bool) :
    ofQuotient negative (significand * 10 ^ exponent.toNat * one) (10 ^ (-exponent).toNat) =
      finite negative 0 := by
  refine ofQuotient_eq_zero ?_ negative
  have whole : exponent.toNat = 0 := by omega
  have most : significand < 2 ^ (significand.log2 + 1) := Nat.lt_log2_self
  rw [whole, Nat.pow_zero, Nat.mul_one]
  calc 2 * (significand * one)
      < 2 * (2 ^ (significand.log2 + 1) * one) :=
        Nat.mul_lt_mul_of_pos_left (Nat.mul_lt_mul_of_pos_right most one_pos) (by decide)
    _ = 2 ^ (significand.log2 + 2 + 1074) := by
        rw [Nat.pow_add _ _ 1074, one, Nat.pow_succ _ (significand.log2 + 1), Nat.mul_comm _ 2,
          Nat.mul_assoc]
    _ ≤ 2 ^ (3 * (-exponent).toNat) := Nat.pow_le_pow_right (by decide) (by omega)
    _ ≤ 10 ^ (-exponent).toNat := two_pow_le_ten_pow _

/-- A decimal is the number nearest to it, whatever its exponent. -/
theorem ofDecimal_eq (negative : Bool) (significand : Nat) (exponent : Int) :
    ofDecimal negative significand exponent =
      ofQuotient negative (significand * 10 ^ exponent.toNat * one) (10 ^ (-exponent).toNat) := by
  rcases Nat.eq_zero_or_pos significand with rfl | some
  · rw [Nat.zero_mul, Nat.zero_mul, ofQuotient_eq_zero (by rw [Nat.mul_zero]; exact Nat.pow_pos (by decide))]
    rfl
  have nonzero : significand ≠ 0 := by omega
  by_cases huge : 400 < (significand.log2 : Int) / 4 + exponent
  · rw [ofQuotient_huge nonzero huge]
    simp only [ofDecimal, nonzero, huge, if_true, if_false]
  by_cases tiny : (significand.log2 : Int) / 4 + exponent + (significand.log2 : Int) < -800
  · rw [ofQuotient_tiny tiny]
    simp only [ofDecimal, nonzero, huge, tiny, if_true, if_false]
  simp only [ofDecimal, nonzero, huge, tiny, if_false]
  split
  · have whole : (-exponent).toNat = 0 := by omega
    rw [whole, Nat.pow_zero]
  · have whole : exponent.toNat = 0 := by omega
    rw [whole, Nat.pow_zero, Nat.mul_one]

end Decimal

theorem isNumber_ofDecimal (negative : Bool) (significand : Nat) (exponent : Int) :
    (ofDecimal negative significand exponent).IsNumber := by
  rw [ofDecimal_eq]
  exact isNumber_ofQuotient (Nat.pow_pos (by decide)) _ _

/-- Zeros at the end of a significand are places of the exponent. -/
theorem ofDecimal_shift (negative : Bool) (significand zeros : Nat) (exponent : Int) :
    ofDecimal negative (significand * 10 ^ zeros) exponent =
      ofDecimal negative significand (exponent + zeros) := by
  rw [ofDecimal_eq, ofDecimal_eq]
  refine ofQuotient_congr ?_ (Nat.pow_pos (by decide)) (Nat.pow_pos (by decide)) negative
  have places : zeros + exponent.toNat + (-(exponent + zeros)).toNat =
      (exponent + zeros).toNat + (-exponent).toNat := by omega
  calc significand * 10 ^ zeros * 10 ^ exponent.toNat * one * 10 ^ (-(exponent + zeros)).toNat
      = significand * (10 ^ (zeros + exponent.toNat + (-(exponent + zeros)).toNat)) * one := by
        rw [Nat.pow_add, Nat.pow_add]
        ring
    _ = significand * 10 ^ (exponent + zeros).toNat * one * 10 ^ (-exponent).toNat := by
        rw [places, Nat.pow_add]
        ring

end Binary64

end Backjump
