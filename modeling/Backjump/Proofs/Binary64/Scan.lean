import Backjump.Binary64.Printed
import Backjump.Proofs.Binary64.Decimal
import Backjump.Proofs.Text.Numeral

/-! Decimals in print. A sign, some digits, a point with more digits if there are any, and perhaps
an exponent are read as the number that they spell. So a number with fixed places is read
as a number again, though not as the same. Whatever is read is a number. -/
namespace Backjump.Binary64

variable {c : Char} {digits tail whole fraction : List Char} {text : String} {x : Binary64}

/-- Nothing but digits. -/
def AllDigits (text : List Char) : Prop := ∀ c ∈ text, isAsciiDigit c = true

theorem isAsciiDigit_digitChar {d : Nat} (small : d < 10) : isAsciiDigit (Text.digitChar d) = true := by
  have table : ∀ d < 10, isAsciiDigit (Text.digitChar d) = true := by decide
  exact table d small

theorem allDigits_digits (n : Nat) : AllDigits (Text.digits n) := by
  intro c mem
  obtain ⟨d, small, rfl⟩ := Text.exists_digitChar_of_mem_digits mem
  exact isAsciiDigit_digitChar small

theorem allDigits_zeros (count : Nat) : AllDigits (List.replicate count '0') :=
  fun _ mem => List.eq_of_mem_replicate mem ▸ rfl

theorem AllDigits.append (first : AllDigits digits) (second : AllDigits tail) :
    AllDigits (digits ++ tail) :=
  fun c mem => (List.mem_append.mp mem).elim (first c) (second c)

/-- A text that does not go on with a digit. -/
def Stops (tail : List Char) : Prop := ∀ c ∈ tail.head?, isAsciiDigit c = false

theorem stops_nil : Stops [] := by simp [Stops]

theorem stops_cons (other : isAsciiDigit c = false) : Stops (c :: tail) := by
  simpa [Stops] using other

section Span

variable (all : AllDigits digits) (stops : Stops tail)
include all stops

theorem takeWhile_digits : (digits ++ tail).takeWhile isAsciiDigit = digits := by
  rw [List.takeWhile_append_of_pos all]
  cases tail with
  | nil => rw [List.takeWhile_nil, List.append_nil]
  | cons c rest => rw [List.takeWhile_cons_of_neg (by simp [stops c rfl]), List.append_nil]

theorem dropWhile_digits : (digits ++ tail).dropWhile isAsciiDigit = tail := by
  rw [List.dropWhile_append_of_pos all]
  cases tail with
  | nil => rfl
  | cons c rest => rw [List.dropWhile_cons_of_neg (by simp [stops c rfl])]

end Span

/-- A minus sign or none. -/
def signChars (negative : Bool) : List Char := if negative then ['-'] else []

/-- A digit is neither a sign nor a blank. -/
theorem splitSign_digit (digit : isAsciiDigit c = true) (negative : Bool) (rest : List Char) :
    splitSign ((signChars negative ++ c :: rest).dropWhile isAsciiBlank) = (negative, c :: rest) := by
  have solid : isAsciiBlank c = false := by
    simp only [isAsciiDigit, Bool.and_eq_true, decide_eq_true_eq, Char.le_def, UInt32.le_iff_toNat_le] at digit
    have least : 48 ≤ c.toNat := digit.1
    have other : c ≠ ' ' := by
      rintro rfl
      exact absurd least (by decide)
    have high : ¬ c.toNat ≤ 13 := by omega
    simp only [isAsciiBlank, high, decide_false, Bool.and_false, Bool.or_false, beq_eq_false_iff_ne]
    exact other
  cases negative with
  | true => rfl
  | false =>
    rw [signChars, if_neg Bool.false_ne_true, List.nil_append,
      List.dropWhile_cons_of_neg (by simp [solid])]
    unfold splitSign
    split
    · rename_i same
      cases same
      contradiction
    · rename_i same
      cases same
      contradiction
    · rfl

/-- A point with digits behind it, or nothing if there are none. -/
def pointChars (fraction : List Char) : List Char :=
  if fraction.isEmpty then [] else '.' :: fraction

theorem pointChars_nil : pointChars [] = [] := rfl

theorem pointChars_cons (c : Char) (rest : List Char) : pointChars (c :: rest) = '.' :: c :: rest := rfl

theorem stops_pointChars (fraction : List Char) (stops : Stops tail) : Stops (pointChars fraction ++ tail) := by
  cases fraction with
  | nil => exact stops
  | cons c rest => exact stops_cons rfl

/-- A decimal in print is read as what it spells. -/
theorem scanDecimal?_printed {exponent : Int} (some : whole ≠ []) (digits : AllDigits whole)
    (digits' : AllDigits fraction) (stops : Stops tail) (pointless : tail.head? ≠ .some '.')
    (scanned : scanExponent tail = .some (exponent, [])) (negative : Bool) :
    scanDecimal? (signChars negative ++ (whole ++ (pointChars fraction ++ tail))) =
      .some (ofDecimal negative (Text.valueAfter 0 (whole ++ fraction)) (exponent - fraction.length)) := by
  obtain ⟨c, rest, rfl⟩ := List.exists_cons_of_ne_nil some
  have sign := splitSign_digit (digits c List.mem_cons_self) negative (rest ++ (pointChars fraction ++ tail))
  have before := takeWhile_digits digits (stops_pointChars fraction stops)
  have after := dropWhile_digits digits (stops_pointChars fraction stops)
  rw [List.cons_append] at before after ⊢
  simp only [scanDecimal?, sign, before, after]
  cases fraction with
  | nil =>
    rw [pointChars_nil, List.nil_append]
    split
    · exact absurd rfl pointless
    · simp only [scanned]
      rfl
  | cons d more =>
    simp only [pointChars_cons, List.cons_append]
    rw [← List.cons_append, takeWhile_digits digits' stops, dropWhile_digits digits' stops]
    simp only [scanned]
    rfl

theorem scanDecimal?_pointed (some : whole ≠ []) (digits : AllDigits whole) (some' : fraction ≠ [])
    (digits' : AllDigits fraction) (negative : Bool) :
    scanDecimal? (signChars negative ++ (whole ++ '.' :: fraction)) =
      .some (ofDecimal negative (Text.valueAfter 0 (whole ++ fraction)) (-fraction.length)) := by
  have none : scanExponent [] = .some (0, []) := rfl
  have printed := scanDecimal?_printed some digits digits' stops_nil (by simp) none negative
  obtain ⟨c, rest, rfl⟩ := List.exists_cons_of_ne_nil some'
  rwa [List.append_nil, pointChars_cons, Int.zero_sub] at printed

theorem scan?_of_scanDecimal? (read : scanDecimal? text.toList = some x) : scan? text = some x := by
  rw [scan?, read]

theorem exists_ofDecimal_of_scanDecimal? (read : scanDecimal? digits = some x) :
    ∃ negative significand exponent, x = ofDecimal negative significand exponent := by
  simp only [scanDecimal?, Option.bind_eq_bind, Option.bind_eq_some_iff] at read
  obtain ⟨-, -, ⟨exponent, rest⟩, -, -, -, answer⟩ := read
  exact ⟨_, _, _, (Option.some.inj answer).symm⟩

/-- Whatever is read is a number. -/
theorem isNumber_scan? (read : scan? text = some x) : x.IsNumber := by
  unfold scan? at read
  split at read
  · rename_i y decimal
    cases read
    obtain ⟨negative, significand, exponent, rfl⟩ := exists_ofDecimal_of_scanDecimal? decimal
    exact isNumber_ofDecimal negative significand exponent
  · obtain ⟨negative, -, rfl⟩ := Option.map_eq_some_iff.mp read
    exact .infinite

theorem scan?_inf (negative : Bool) :
    scan? (if negative then "-inf" else "inf") = some (infinite negative) := by
  cases negative <;> decide +kernel

theorem toList_sign (negative : Bool) : (if negative then "-" else "").toList = signChars negative := by
  cases negative <;> rfl

/-- With places there is always a digit on each side of the point. -/
theorem toList_fixed {places : Nat} (some : 0 < places) (negative : Bool) (units : Nat) :
    ∃ whole fraction, (whole ≠ [] ∧ AllDigits whole) ∧ (fraction ≠ [] ∧ AllDigits fraction) ∧
      ((finite negative units).fixed places).toList = signChars negative ++ (whole ++ '.' :: fraction) := by
  generalize rounded : roundQuotient (units * 10 ^ places) one = n
  refine ⟨Text.digits (n / 10 ^ places), List.replicate (places - (Text.digits (n % 10 ^ places)).length) '0' ++
    Text.digits (n % 10 ^ places), ⟨Text.digits_ne_nil _, allDigits_digits _⟩,
    ⟨List.append_ne_nil_of_right_ne_nil _ (Text.digits_ne_nil _),
      (allDigits_zeros _).append (allDigits_digits _)⟩, ?_⟩
  have placed : places ≠ 0 := by omega
  simp only [fixed, rounded, pointed, placed, if_false, String.toList_append, toList_sign, Text.numeral,
    Text.paddedNumeral, String.toList_ofList, List.append_assoc]
  rfl

/-- A number with fixed places is a decimal. -/
theorem exists_scan?_fixed {places : Nat} (some : 0 < places) (number : x ≠ nan) :
    ∃ y, scan? (x.fixed places) = .some y := by
  cases x with
  | finite negative units =>
    obtain ⟨whole, fraction, ⟨some, digits⟩, ⟨some', digits'⟩, text⟩ := toList_fixed some negative units
    have read := scanDecimal?_pointed some digits some' digits' negative
    rw [← text] at read
    exact ⟨_, scan?_of_scanDecimal? read⟩
  | infinite negative => exact ⟨_, scan?_inf negative⟩
  | nan => contradiction

end Backjump.Binary64
