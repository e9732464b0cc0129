import Backjump.Proofs.Dimacs.Scan
import Backjump.Proofs.Text.Numeral

/-! Integers as tokens. A token is a run of digits of any script, leading zeros
included, behind a minus sign or none; its worth is defined by its characters
alone. A token is one numeral of its own integer. What is read is always below a
power of ten with as many zeros as digits are read, so its canonical numeral is a
token again. -/
namespace Backjump

variable {c : Char} {n : Int} {m k : Nat} {digits tail text token : List Char}

namespace Text

theorem digitValue?_digitChar {d : Nat} (small : d < 10) : digitValue? (digitChar d) = some d := by
  have table : ∀ d < 10, digitValue? (digitChar d) = some d := by decide
  exact table d small

end Text

namespace Dimacs

/-- The number that digits of any script stand for, most significant first. -/
def worth (digits : List Char) : Nat :=
  digits.foldl (fun sum c => sum * 10 + (Text.digitValue? c).getD 0) 0

/-- Some digits, no more than are read. -/
structure Digits (digits : List Char) : Prop where
  nonempty : digits ≠ []
  each : ∀ c ∈ digits, Text.isDigit c = true
  fits : digits.length ≤ Text.maxDigits

/-- A whole number written out. -/
inductive Spells : List Char → Int → Prop where
  | unsigned {digits : List Char} (written : Digits digits) : Spells digits (worth digits)
  | negative {digits : List Char} (written : Digits digits) :
    Spells ('-' :: digits) (-(worth digits : Int))

theorem spanDigits_of_isDigit (each : ∀ c ∈ digits, Text.isDigit c = true) :
    spanDigits digits = (digits.map fun c => (Text.digitValue? c).getD 0, []) := by
  induction digits with
  | nil => rfl
  | cons c digits ih =>
    obtain ⟨d, digit⟩ := Option.isSome_iff_exists.mp (each c List.mem_cons_self)
    have rest := ih fun x mem => each x (List.mem_cons_of_mem c mem)
    simp only [spanDigits, digit, rest, List.map_cons, Option.getD_some]

namespace Digits

variable (written : Digits digits)
include written

theorem numerals_unsigned :
    numerals digits = [⟨false, digits.map fun c => (Text.digitValue? c).getD 0⟩] := by
  cases digits with
  | nil => exact absurd rfl written.nonempty
  | cons c digits =>
    obtain ⟨d, digit⟩ := Option.isSome_iff_exists.mp (written.each c List.mem_cons_self)
    have rest := spanDigits_of_isDigit fun x mem => written.each x (List.mem_cons_of_mem c mem)
    rw [numerals, digit]
    simp only [rest, numerals_nil, List.map_cons, digit, Option.getD_some]

theorem numerals_negative :
    numerals ('-' :: digits) = [⟨true, digits.map fun c => (Text.digitValue? c).getD 0⟩] := by
  have minus : Text.digitValue? '-' = none := by decide
  have behind : (digits.map fun c => (Text.digitValue? c).getD 0) ≠ [] := by
    rw [ne_eq, List.map_eq_nil_iff]
    exact written.nonempty
  rw [numerals, minus]
  simp only [spanDigits_of_isDigit written.each, true_and, if_pos behind, numerals_nil]

theorem value_eq (negative : Bool) :
    Numeral.value ⟨negative, digits.map fun c => (Text.digitValue? c).getD 0⟩ =
      .ok (if negative then -(worth digits : Int) else worth digits) := by
  rw [Numeral.value, if_pos (by rw [List.length_map]; exact written.fits), Numeral.magnitude,
    List.foldl_map, worth]

end Digits

theorem Spells.exists_numeral (spells : Spells token n) :
    ∃ numeral, numerals token = [numeral] ∧ numeral.value = .ok n := by
  cases spells with
  | unsigned written => exact ⟨_, written.numerals_unsigned, written.value_eq false⟩
  | negative written => exact ⟨_, written.numerals_negative, written.value_eq true⟩

theorem worth_digits (m : Nat) : worth (Text.digits m) = m := by
  rw [worth]
  conv_rhs => rw [← Text.valueAfter_digits m, Text.valueAfter]
  apply List.foldl_ext
  intro sum c mem
  obtain ⟨d, small, rfl⟩ := Text.exists_digitChar_of_mem_digits mem
  rw [Text.digitValue?_digitChar small, Text.toNat_digitChar small, Nat.add_sub_cancel_left,
    Option.getD_some]

theorem digits_written (below : m < 10 ^ Text.maxDigits) : Digits (Text.digits m) where
  nonempty := Text.digits_ne_nil m
  each c mem := by
    obtain ⟨d, small, rfl⟩ := Text.exists_digitChar_of_mem_digits mem
    rw [Text.isDigit, Text.digitValue?_digitChar small, Option.isSome_some]
  fits := Text.length_digitsOnto_le (by decide) below []

theorem spells_signedNumeral (below : n.natAbs < 10 ^ Text.maxDigits) :
    Spells (Text.signedNumeral n).toList n := by
  have spelled := digits_written below
  have plain : (Text.numeral n.natAbs).toList = Text.digits n.natAbs := String.toList_ofList
  by_cases negative : n < 0
  · have value : -(worth (Text.digits n.natAbs) : Int) = n := by rw [worth_digits]; omega
    rw [Text.signedNumeral, if_pos negative, String.toList_append, plain]
    conv_rhs => rw [← value]
    exact .negative spelled
  · have value : (worth (Text.digits n.natAbs) : Int) = n := by rw [worth_digits]; omega
    rw [Text.signedNumeral, if_neg negative, plain]
    conv_rhs => rw [← value]
    exact .unsigned spelled

theorem spanDigits_lt (text : List Char) : ∀ d ∈ (spanDigits text).1, d < 10 := by
  induction text with
  | nil => exact fun d mem => absurd mem List.not_mem_nil
  | cons c text ih =>
    rw [spanDigits]
    cases digit : Text.digitValue? c with
    | none => exact fun d mem => absurd mem List.not_mem_nil
    | some first => exact List.forall_mem_cons.mpr ⟨Text.digitValue?_lt digit, ih⟩

theorem numerals_lt (text : List Char) : ∀ numeral ∈ numerals text, ∀ d ∈ numeral.digits, d < 10 := by
  fun_induction numerals text with
  | case1 => exact fun _ mem => absurd mem List.not_mem_nil
  | case2 c rest first digit ih =>
    exact List.forall_mem_cons.mpr
      ⟨List.forall_mem_cons.mpr ⟨Text.digitValue?_lt digit, spanDigits_lt rest⟩, ih⟩
  | case3 c rest other minus ih => exact List.forall_mem_cons.mpr ⟨spanDigits_lt rest, ih⟩
  | case4 c rest other minus ih => exact ih

theorem magnitude_lt {digits : List Nat} (small : ∀ d ∈ digits, d < 10) (seen : Nat) :
    digits.foldl (fun sum d => sum * 10 + d) seen < (seen + 1) * 10 ^ digits.length := by
  induction digits generalizing seen with
  | nil => simp
  | cons d digits ih =>
    have first := small d List.mem_cons_self
    calc (d :: digits).foldl (fun sum d => sum * 10 + d) seen
        = digits.foldl (fun sum d => sum * 10 + d) (seen * 10 + d) := rfl
      _ < (seen * 10 + d + 1) * 10 ^ digits.length :=
        ih (fun x mem => small x (List.mem_cons_of_mem d mem)) _
      _ ≤ (seen + 1) * 10 * 10 ^ digits.length := Nat.mul_le_mul_right _ (by omega)
      _ = (seen + 1) * 10 ^ (d :: digits).length := by
        rw [List.length_cons, Nat.pow_succ', Nat.mul_assoc]

/-- What is read of a text has a canonical numeral that is read again. -/
theorem natAbs_lt_of_tokens {ls : List (List Char)} {numeral : Numeral} (mem : numeral ∈ tokens ls)
    (read : numeral.value = .ok n) : n.natAbs < 10 ^ Text.maxDigits := by
  obtain ⟨line, -, here⟩ := exists_line_of_mem_tokens mem
  have below := magnitude_lt (numerals_lt line numeral here) 0
  rw [Nat.zero_add, Nat.one_mul] at below
  rw [Numeral.value] at read
  split at read
  · have value := Except.ok.inj read
    have size : n.natAbs = numeral.magnitude := by
      rw [← value]
      split
      · rw [Int.natAbs_neg, Int.natAbs_natCast]
      · rw [Int.natAbs_natCast]
    rw [size]
    exact below.trans_le (Nat.pow_le_pow_right (by decide) ‹_›)
  · contradiction

end Dimacs

end Backjump
