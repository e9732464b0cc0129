import Backjump.Binary64
import Backjump.Text.Numeral
import Mathlib.Data.List.Basic

/-! Numerals. They are made of the ten digits, have no more of them than the number needs, and
tell numbers apart, also behind a sign or zeros. -/
namespace Backjump.Text

variable {c : Char} {m k : Nat} {tail : List Char}

theorem exists_digitChar (mem : c ∈ digitsOnto m tail) :
    (∃ d < 10, c = digitChar d) ∨ c ∈ tail := by
  fun_induction digitsOnto m tail with
  | case1 m tail small => exact (List.mem_cons.mp mem).imp_left fun same => ⟨m, small, same⟩
  | case2 m tail large ih =>
    rcases ih mem with digit | inside
    · exact .inl digit
    · exact (List.mem_cons.mp inside).imp_left fun same => ⟨m % 10, Nat.mod_lt m (by decide), same⟩

theorem exists_digitChar_of_mem_digits (mem : c ∈ digits m) : ∃ d < 10, c = digitChar d :=
  (exists_digitChar mem).resolve_right List.not_mem_nil

theorem length_digitsOnto_le (positive : 0 < k) (below : m < 10 ^ k) (tail : List Char) :
    (digitsOnto m tail).length ≤ k + tail.length := by
  fun_induction digitsOnto m tail generalizing k with
  | case1 m tail small => rw [List.length_cons]; omega
  | case2 m tail large ih =>
    obtain ⟨j, rfl⟩ := Nat.exists_eq_add_one.mpr positive
    have shorter : m / 10 < 10 ^ j := Nat.div_lt_of_lt_mul (by rwa [Nat.pow_succ'] at below)
    have more : 0 < j := by
      by_contra none
      rw [Nat.eq_zero_of_not_pos none, Nat.pow_zero] at shorter
      omega
    have bound := ih more shorter
    rw [List.length_cons] at bound
    omega

theorem digits_ne_nil (m : Nat) : digits m ≠ [] := by
  have onto (m : Nat) (tail : List Char) : digitsOnto m tail ≠ [] := by
    fun_induction digitsOnto m tail with
    | case1 m tail small => exact List.cons_ne_nil _ _
    | case2 m tail large ih => exact ih
  exact onto m []

/-- A character that is no digit tells where a numeral ends. -/
theorem digits_append_inj {tail' : List Char} (other : ∀ d < 10, c ≠ digitChar d)
    (same : digits m ++ c :: tail = digits k ++ c :: tail') : m = k := by
  have upTo (n : Nat) (tail : List Char) : (digits n ++ c :: tail).takeWhile (· != c) = digits n := by
    rw [List.takeWhile_append_of_pos, List.takeWhile_cons_of_neg (by simp), List.append_nil]
    intro b member
    obtain ⟨d, small, rfl⟩ := exists_digitChar_of_mem_digits member
    exact bne_iff_ne.mpr (other d small).symm
  have numerals : digits m = digits k := by rw [← upTo m tail, same, upTo]
  rw [← valueAfter_digits m, numerals, valueAfter_digits]

/-- A number has at least as many digits as its numeral. -/
theorem pow_length_digits_le (pos : 0 < m) : 10 ^ (digits m).length ≤ 10 * m := by
  have onto (m : Nat) (tail : List Char) (pos : 0 < m) :
      10 ^ (digitsOnto m tail).length ≤ 10 * m * 10 ^ tail.length := by
    fun_induction digitsOnto m tail with
    | case1 m tail small =>
      rw [List.length_cons, Nat.pow_succ', Nat.mul_assoc]
      exact Nat.mul_le_mul_left _ (Nat.le_mul_of_pos_left _ pos)
    | case2 m tail large ih =>
      refine Nat.le_trans (ih (by omega)) ?_
      rw [List.length_cons, Nat.pow_succ', ← Nat.mul_assoc]
      exact Nat.mul_le_mul_right _ (by omega)
  have all := onto m [] pos
  rwa [List.length_nil, Nat.pow_zero, Nat.mul_one] at all

theorem valueAfter_padded (zeros n : Nat) :
    valueAfter 0 (List.replicate zeros '0' ++ digits n) = n := by
  induction zeros with
  | zero => exact valueAfter_digits n
  | succ zeros ih => exact ih

end Backjump.Text
