import Backjump.Proofs.Binary64
import Mathlib.Tactic.Ring

/-! Rounding as choice of the nearest number. Rounding depends on the quotient alone, answers a
magnitude that binary64 has, and answers the magnitude that the quotient is close to: closer
than the `2 ^ 54`th part of it, half the distance of two numbers at least. -/
namespace Backjump

theorem roundQuotient_mul {k : Nat} (pos : 0 < k) (num den : Nat) :
    roundQuotient (num * k) (den * k) = roundQuotient num den := by
  have doubled : 2 * (num % den * k) = 2 * (num % den) * k := (Nat.mul_assoc ..).symm
  simp only [roundQuotient, Nat.mul_div_mul_right _ _ pos, Nat.mul_mod_mul_right, doubled,
    Nat.mul_lt_mul_right pos]

/-- A whole number less than a half away is the nearest. -/
theorem roundQuotient_eq {num den n : Nat} (below : 2 * n * den < 2 * num + den)
    (above : 2 * num < 2 * n * den + den) : roundQuotient num den = n := by
  refine Nat.le_antisymm (roundQuotient_le_of_lt (by linarith)) ?_
  have pos : 0 < den := by omega
  have split := Nat.div_add_mod num den
  have left := Nat.mod_lt num pos
  unfold roundQuotient
  by_contra short
  have near : num / den < n := by grind
  rcases Nat.lt_or_ge (num / den + 1) n with far | next
  · have : (num / den + 2) * den ≤ n * den := Nat.mul_le_mul_right _ far
    linarith
  · obtain rfl : n = num / den + 1 := by omega
    have high : den < 2 * (num % den) := by linarith
    simp only [Nat.not_lt_of_gt high, high, if_true, if_false, Nat.le_refl, not_true_eq_false] at short

/-- The rounded quotient is at most a half away. -/
theorem roundQuotient_close {den : Nat} (pos : 0 < den) (num : Nat) :
    2 * num ≤ 2 * roundQuotient num den * den + den ∧
      2 * roundQuotient num den * den ≤ 2 * num + den := by
  have split := Nat.div_add_mod num den
  have left := Nat.mod_lt num pos
  unfold roundQuotient
  generalize num / den = q at split
  generalize num % den = r at split left
  subst split
  dsimp only
  split_ifs with low high
  · constructor <;> linarith
  · constructor <;> linarith
  · have half : 2 * r = den := by omega
    rcases Nat.mod_two_eq_zero_or_one q with even | odd
    · rw [even]
      constructor <;> linarith
    · rw [odd]
      constructor <;> linarith

namespace Binary64

/-- Such a magnitude, in units, is finite and has at most 53 significant bits. -/
structure Fits (units : Nat) : Prop where
  small : units < bound
  short : ∃ significand shift, significand < 2 ^ 53 ∧ units = significand * 2 ^ shift

/-- The numbers that binary64 has. -/
inductive IsNumber : Binary64 → Prop where
  | finite {negative : Bool} {units : Nat} (fits : Fits units) : IsNumber (finite negative units)
  | infinite {negative : Bool} : IsNumber (infinite negative)

theorem bound_pos : 0 < bound := Nat.zero_lt_of_lt top_lt_bound

theorem roundUnits_mul {k : Nat} (pos : 0 < k) (num den : Nat) :
    roundUnits (num * k) (den * k) = roundUnits num den := by
  simp only [roundUnits, Nat.mul_div_mul_right _ _ pos, Nat.mul_right_comm den k, roundQuotient_mul pos]

/-- Equal quotients are the same number. -/
theorem ofQuotient_congr {num den num' den' : Nat} (same : num * den' = num' * den) (pos : 0 < den)
    (pos' : 0 < den') (negative : Bool) :
    ofQuotient negative num den = ofQuotient negative num' den' := by
  have rounded : roundUnits num den = roundUnits num' den' := by
    rw [← roundUnits_mul pos' num den, ← roundUnits_mul pos num' den', same, Nat.mul_comm den]
  rw [ofQuotient, rounded, ofQuotient]

/-- The quotient has at most 53 bits before the rounding. -/
theorem div_lt_excess (num den : Nat) :
    num / den < 2 ^ 53 * 2 ^ ((num / den).log2 + 1 - 53) := by
  rw [← Nat.pow_add]
  exact Nat.lt_of_lt_of_le Nat.lt_log2_self (Nat.pow_le_pow_right (by decide) (by omega))

theorem roundUnits_short {den : Nat} (pos : 0 < den) (num : Nat) :
    ∃ significand shift, significand < 2 ^ 53 ∧ roundUnits num den = significand * 2 ^ shift := by
  have width := (Nat.div_lt_iff_lt_mul pos).mp (div_lt_excess num den)
  unfold roundUnits
  generalize (num / den).log2 + 1 - 53 = excess at width
  dsimp only
  have rounded : roundQuotient num (den * 2 ^ excess) ≤ 2 ^ 53 :=
    roundQuotient_le (by linarith) (Nat.mul_pos pos (Nat.two_pow_pos excess))
  rcases Nat.lt_or_eq_of_le rounded with less | most
  · exact ⟨_, excess, less, rfl⟩
  · -- Rounded up to the next power of two.
    refine ⟨2 ^ 52, excess + 1, by decide, ?_⟩
    rw [most, Nat.add_comm, Nat.pow_add, ← Nat.mul_assoc]
    rfl

theorem isNumber_ofQuotient {den : Nat} (pos : 0 < den) (num : Nat) (negative : Bool) :
    (ofQuotient negative num den).IsNumber := by
  -- Case patterns would unfold the bound here.
  cases Nat.lt_or_ge (roundUnits num den) bound with
  | inl small =>
    simp only [ofQuotient, small, if_true]
    exact .finite ⟨small, roundUnits_short pos num⟩
  | inr great =>
    simp only [ofQuotient, Nat.not_lt_of_ge great, if_false]
    exact .infinite

section Close

variable {num den units significand shift excess : Nat}

/-- A quotient below `2 ^ 53` steps is not close to a number beyond them. -/
theorem le_of_close (few : significand < 2 ^ 53) (width : num < 2 ^ 53 * 2 ^ excess * den)
    (below : significand * 2 ^ shift * den * 2 ^ 54 < num * 2 ^ 54 + significand * 2 ^ shift * den) :
    significand * 2 ^ shift ≤ 2 ^ 53 * 2 ^ excess := by
  by_contra beyond
  have coarser : excess + 1 ≤ shift := by
    by_contra finer
    have : significand * 2 ^ shift ≤ 2 ^ 53 * 2 ^ excess :=
      Nat.mul_le_mul (by omega) (Nat.pow_le_pow_right (by decide) (by omega))
    omega
  obtain ⟨more, rfl⟩ := Nat.exists_eq_add_of_le coarser
  have steps : significand * 2 ^ (excess + 1 + more) = significand * 2 ^ more * 2 * 2 ^ excess := by
    rw [Nat.pow_add, Nat.pow_succ]
    ring
  rw [steps] at beyond below
  generalize significand * 2 ^ more = n at beyond below
  have next : 2 ^ 52 + 1 ≤ n := by
    have := Nat.lt_of_mul_lt_mul_right (Nat.lt_of_not_le beyond)
    omega
  have : (2 ^ 52 + 1) * (2 * 2 ^ excess * den) ≤ n * (2 * 2 ^ excess * den) :=
    Nat.mul_le_mul_right _ next
  linarith

/-- A quotient of at least `2 ^ 52` steps is not close to a number between two of them. -/
theorem dvd_of_close (few : significand < 2 ^ 53) (pos : 0 < den)
    (width : 0 < excess → 2 ^ 52 * 2 ^ excess * den ≤ num)
    (above : num * 2 ^ 54 < significand * 2 ^ shift * den * 2 ^ 54 + significand * 2 ^ shift * den) :
    2 ^ excess ∣ significand * 2 ^ shift := by
  rcases Nat.lt_or_ge shift excess with finer | coarser
  · obtain ⟨more, rfl⟩ := Nat.exists_eq_add_of_lt finer
    have wide := width (by omega)
    have steps : 2 ^ (shift + more + 1) = 2 ^ shift * 2 ^ more * 2 := by rw [Nat.pow_succ, Nat.pow_add]
    rw [steps] at wide
    have least : 2 ^ shift * 1 ≤ 2 ^ shift * 2 ^ more :=
      Nat.mul_le_mul_left _ (Nat.one_le_two_pow)
    have step : 2 ^ shift * 1 * den ≤ 2 ^ shift * 2 ^ more * den := Nat.mul_le_mul_right _ least
    have most : (significand + 1) * (2 ^ shift * den) ≤ 2 ^ 53 * (2 ^ shift * den) :=
      Nat.mul_le_mul_right _ few
    have some : 0 < 2 ^ shift * den := Nat.mul_pos (Nat.two_pow_pos shift) pos
    exfalso
    linarith
  · exact Nat.dvd_mul_left_of_dvd (Nat.pow_dvd_pow 2 coarser) _

/-- A number is what rounds to it from less than the `2 ^ 54`th part away. -/
theorem roundUnits_eq (short : ∃ significand shift, significand < 2 ^ 53 ∧ units = significand * 2 ^ shift)
    (below : units * den * 2 ^ 54 < num * 2 ^ 54 + units * den)
    (above : num * 2 ^ 54 < units * den * 2 ^ 54 + units * den) : roundUnits num den = units := by
  obtain ⟨significand, shift, few, rfl⟩ := short
  have pos : 0 < den := Nat.pos_of_ne_zero (by rintro rfl; omega)
  have width := (Nat.div_lt_iff_lt_mul pos).mp (div_lt_excess num den)
  have wide : 0 < (num / den).log2 + 1 - 53 →
      2 ^ 52 * 2 ^ ((num / den).log2 + 1 - 53) * den ≤ num := by
    intro some
    refine (Nat.le_div_iff_mul_le pos).mp ?_
    rw [← Nat.pow_add]
    have bits : 52 + ((num / den).log2 + 1 - 53) = (num / den).log2 := by omega
    rw [bits]
    exact Nat.log2_self_le (by rintro zero; rw [zero, Nat.log2_zero] at some; omega)
  unfold roundUnits
  generalize (num / den).log2 + 1 - 53 = excess at width wide
  dsimp only
  have most := le_of_close few width below
  obtain ⟨steps, whole⟩ := dvd_of_close few pos wide above
  rw [whole] at most below above ⊢
  have bounded : steps ≤ 2 ^ 53 := by
    rw [Nat.mul_comm] at most
    exact Nat.le_of_mul_le_mul_right most (Nat.two_pow_pos excess)
  have limit : steps * (2 ^ excess * den) ≤ 2 ^ 53 * (2 ^ excess * den) := Nat.mul_le_mul_right _ bounded
  have nearest : roundQuotient num (den * 2 ^ excess) = steps := by
    apply roundQuotient_eq <;> linarith
  rw [nearest, Nat.mul_comm]

end Close

end Binary64

end Backjump
