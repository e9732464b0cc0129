import Backjump.Binary64.Printed
import Backjump.Proofs.Binary64.Scan

/-! The shortest decimal reads back as its number. A decimal of seventeen digits next to a number
is closer to it than the `2 ^ 54`th part, so it reads back, and the search for a decimal ends
at the latest there. Neither the zeros that are left out of the print nor those that are put
into it change the worth. So different numbers have different shortest decimals. -/
namespace Backjump

namespace Text

theorem valueAfter_append (seen : Nat) (first second : List Char) :
    valueAfter seen (first ++ second) = valueAfter (valueAfter seen first) second :=
  List.foldl_append

theorem valueAfter_zeros (seen count : Nat) :
    valueAfter seen (List.replicate count '0') = seen * 10 ^ count := by
  induction count generalizing seen with
  | zero => exact (Nat.mul_one seen).symm
  | succ count ih =>
    change valueAfter (seen * 10 + 0) (List.replicate count '0') = _
    rw [ih, Nat.add_zero, Nat.mul_assoc, ← Nat.pow_succ']

theorem valueAfter_leadingZeros (count : Nat) (digits : List Char) :
    valueAfter 0 (List.replicate count '0' ++ digits) = valueAfter 0 digits := by
  rw [valueAfter_append, valueAfter_zeros, Nat.zero_mul]

end Text

namespace Binary64

variable {units : Nat} {digits : List Char}

/-- A number with so many digits before the point when it is shifted is no less than the power of
ten at its leading place. -/
theorem pow_place_le {shift : Nat} (scale : one ≤ units * 10 ^ shift) :
    let place : Int := (Text.digits (units * 10 ^ shift / one)).length - (shift + 1)
    one * 10 ^ place.toNat ≤ units * 10 ^ (-place).toNat := by
  intro place
  have numeral := Text.pow_length_digits_le (Nat.div_pos scale one_pos)
  have part : units * 10 ^ shift / one * one ≤ units * 10 ^ shift := Nat.div_mul_le_self _ _
  have places : place.toNat + (shift + 1) =
      (Text.digits (units * 10 ^ shift / one)).length + (-place).toNat := by omega
  generalize (Text.digits (units * 10 ^ shift / one)).length = length at numeral places
  generalize units * 10 ^ shift / one = q at numeral part
  generalize place.toNat = above at places ⊢
  generalize (-place).toNat = below at places ⊢
  refine Nat.le_of_mul_le_mul_right (c := 10 ^ (shift + 1)) ?_ (Nat.pow_pos (by decide))
  calc one * 10 ^ above * 10 ^ (shift + 1)
      = 10 ^ length * (one * 10 ^ below) := by
        rw [Nat.mul_assoc, ← Nat.pow_add, places, Nat.pow_add, Nat.mul_left_comm]
    _ ≤ 10 * q * (one * 10 ^ below) := Nat.mul_le_mul_right _ numeral
    _ = 10 * 10 ^ below * (q * one) := by ring
    _ ≤ 10 * 10 ^ below * (units * 10 ^ shift) := Nat.mul_le_mul_left _ part
    _ = units * 10 ^ below * 10 ^ (shift + 1) := by
        rw [Nat.pow_succ]
        ring

theorem pow_leadingPlace_le (pos : 0 < units) :
    one * 10 ^ (leadingPlace units).toNat ≤ units * 10 ^ (-leadingPlace units).toNat := by
  have scale : one ≤ units * 10 ^ 400 :=
    Nat.le_trans (by decide +kernel) (Nat.le_mul_of_pos_left (10 ^ 400) pos)
  exact pow_place_le scale

theorem scaled_eq (units : Nat) (place : Int) :
    scaled units place = (units * 10 ^ (-place).toNat, one * 10 ^ place.toNat) := by
  unfold scaled
  split
  · have none : (-place).toNat = 0 := by omega
    rw [none, Nat.pow_zero, Nat.mul_one]
  · have none : place.toNat = 0 := by omega
    rw [none, Nat.pow_zero, Nat.mul_one]

theorem roundQuotient_mem_neighbours (num den : Nat) : roundQuotient num den ∈ neighbours num den := by
  unfold neighbours
  dsimp only
  split
  · rename_i same
    rw [same]
    exact List.mem_cons_self
  · rename_i other
    have next : roundQuotient num den = num / den + 1 := by
      unfold roundQuotient at other ⊢
      dsimp only at other ⊢
      split_ifs at other ⊢ <;> omega
    rw [next]
    exact List.mem_cons_self

theorem ofQuotient_eq_of_roundUnits {num den : Nat} (rounded : roundUnits num den = units)
    (small : units < bound) (negative : Bool) : ofQuotient negative num den = finite negative units := by
  simp only [ofQuotient, rounded, small, if_true]

/-- A decimal within half a unit of the seventeenth digit reads back. -/
theorem ofDecimal_nearest (fits : Fits units) (pos : 0 < units) (negative : Bool) :
    let place := leadingPlace units + 1 - (17 : Nat)
    ofDecimal negative (roundQuotient (scaled units place).1 (scaled units place).2) place =
      finite negative units := by
  intro place
  have leading := pow_leadingPlace_le pos
  have places : place.toNat + (-leadingPlace units).toNat + 16 =
      (leadingPlace units).toNat + (-place).toNat := by omega
  rw [ofDecimal_eq, scaled_eq]
  generalize (leadingPlace units).toNat = above at leading places
  generalize (-leadingPlace units).toNat = below at leading places
  generalize place.toNat = up at places ⊢
  generalize (-place).toNat = down at places ⊢
  have fine : one * 10 ^ up * 10 ^ 16 ≤ units * 10 ^ down := by
    refine Nat.le_of_mul_le_mul_right (c := 10 ^ below) ?_ (Nat.pow_pos (by decide))
    calc one * 10 ^ up * 10 ^ 16 * 10 ^ below
        = one * 10 ^ (up + below + 16) := by
          rw [Nat.pow_add, Nat.pow_add]
          ring
      _ = one * 10 ^ above * 10 ^ down := by rw [places, Nat.pow_add, Nat.mul_assoc]
      _ ≤ units * 10 ^ below * 10 ^ down := Nat.mul_le_mul_right _ leading
      _ = units * 10 ^ down * 10 ^ below := Nat.mul_right_comm ..
  have step : 0 < one * 10 ^ up := Nat.mul_pos one_pos (Nat.pow_pos (by decide))
  obtain ⟨high, low⟩ := roundQuotient_close step (units * 10 ^ down)
  dsimp only
  generalize roundQuotient (units * 10 ^ down) (one * 10 ^ up) = c at high low ⊢
  have regroup : c * 10 ^ up * one = c * (one * 10 ^ up) := by ring
  refine ofQuotient_eq_of_roundUnits (roundUnits_eq fits.short ?_ ?_) fits.small negative
  · rw [regroup]
    linarith
  · rw [regroup]
    linarith

-- The pair is taken apart by a case split here: its projections reduce only with all digits of `one`.
theorem decimalOf?_eq : decimalOf? = fun units (count : Nat) =>
    let place := leadingPlace units + 1 - count
    ((neighbours (scaled units place).1 (scaled units place).2).find? fun c =>
      ofDecimal false c place == finite false units).map (·, place) := by
  delta decimalOf?
  funext units count
  extract_lets place
  cases scaled units place
  rfl

/-- The search never goes past seventeen digits. -/
theorem exists_decimalOf? (fits : Fits units) (pos : 0 < units) : ∃ d, decimalOf? units 17 = some d := by
  have reads := ofDecimal_nearest fits pos false
  rw [congrFun (congrFun decimalOf?_eq units) 17]
  extract_lets at reads ⊢
  rw [← Option.isSome_iff_exists, Option.isSome_map, List.find?_isSome]
  exact ⟨_, roundQuotient_mem_neighbours _ _, beq_iff_eq.mpr reads⟩

theorem ofDecimal_decimalOf? {count c : Nat} {place : Int} (found : decimalOf? units count = some (c, place)) :
    ofDecimal false c place = finite false units := by
  rw [congrFun (congrFun decimalOf?_eq units) count] at found
  extract_lets at found
  obtain ⟨d, listed, same⟩ := Option.map_eq_some_iff.mp found
  obtain ⟨rfl, rfl⟩ := Prod.mk.inj same
  have checked := List.find?_some listed
  exact beq_iff_eq.mp checked

theorem ofDecimal_shortestDecimal (fits : Fits units) (pos : 0 < units) :
    ofDecimal false (shortestDecimal units).1 (shortestDecimal units).2 = finite false units := by
  obtain ⟨last, seventeen⟩ := exists_decimalOf? fits pos
  have found : ((List.range' 1 17).findSome? (decimalOf? units)).isSome := by
    rw [List.findSome?_isSome_iff]
    exact ⟨17, by decide, by rw [seventeen]; rfl⟩
  obtain ⟨⟨c, place⟩, first⟩ := Option.isSome_iff_exists.mp found
  obtain ⟨count, -, here⟩ := List.exists_of_findSome?_eq_some first
  rw [shortestDecimal, first]
  exact ofDecimal_decimalOf? here

/-- The sign of a decimal is that of its number. -/
theorem ofDecimal_signed {c : Nat} {place : Int} (reads : ofDecimal false c place = finite false units)
    (negative : Bool) : ofDecimal negative c place = finite negative units := by
  rw [ofDecimal_eq] at reads ⊢
  cases Nat.lt_or_ge (roundUnits (c * 10 ^ place.toNat * one) (10 ^ (-place).toNat)) bound with
  | inl small =>
    simp only [ofQuotient, small, if_true, finite.injEq, true_and] at reads ⊢
    exact reads
  | inr great =>
    simp only [ofQuotient, Nat.not_lt_of_ge great, if_false, reduceCtorEq] at reads

/-- What is left out at the end are zeros. -/
theorem exists_zeros (significand : Nat) : ∃ zeros,
    Text.digits significand = trimmedDigits significand ++ List.replicate zeros '0' := by
  let back := (Text.digits significand).reverse
  refine ⟨(back.takeWhile (· == '0')).length, ?_⟩
  have zeros : (back.takeWhile (· == '0')).reverse =
      List.replicate (back.takeWhile (· == '0')).length '0' := by
    rw [List.eq_replicate_iff, List.length_reverse]
    exact ⟨rfl, fun c mem => beq_iff_eq.mp (List.mem_takeWhile_imp (p := (· == '0')) (List.mem_reverse.mp mem))⟩
  rw [← zeros, trimmedDigits, ← List.reverse_append, List.takeWhile_append_dropWhile, List.reverse_reverse]

theorem allDigits_trimmedDigits (significand : Nat) : AllDigits (trimmedDigits significand) := by
  obtain ⟨zeros, digits⟩ := exists_zeros significand
  intro c mem
  exact allDigits_digits significand c (digits ▸ List.mem_append_left _ mem)

theorem valueAfter_trimmedDigits {significand zeros : Nat}
    (digits : Text.digits significand = trimmedDigits significand ++ List.replicate zeros '0') :
    Text.valueAfter 0 (trimmedDigits significand) * 10 ^ zeros = significand := by
  rw [← Text.valueAfter_zeros, ← Text.valueAfter_append, ← digits, Text.valueAfter_digits]

theorem allDigits_zero : AllDigits ['0'] := allDigits_zeros 1

/-- An exponent in print is read whole. -/
theorem scanExponent_printed (exponent : Int) :
    scanExponent ('e' :: (if exponent < 0 then '-' else '+') ::
      (List.replicate (2 - (Text.digits exponent.natAbs).length) '0' ++ Text.digits exponent.natAbs)) =
        some (exponent, []) := by
  have all := (allDigits_zeros (2 - (Text.digits exponent.natAbs).length)).append
    (allDigits_digits exponent.natAbs)
  have value := Text.valueAfter_padded (2 - (Text.digits exponent.natAbs).length) exponent.natAbs
  have nonempty := List.append_ne_nil_of_right_ne_nil
    (List.replicate (2 - (Text.digits exponent.natAbs).length) '0') (Text.digits_ne_nil exponent.natAbs)
  generalize List.replicate (2 - (Text.digits exponent.natAbs).length) '0' ++
    Text.digits exponent.natAbs = text at all value nonempty ⊢
  have taken := takeWhile_digits all stops_nil
  have dropped := dropWhile_digits all stops_nil
  rw [List.append_nil] at taken dropped
  have filled : text.isEmpty = false := List.isEmpty_eq_false_iff.mpr nonempty
  by_cases below : exponent < 0
  · have amount : -(exponent.natAbs : Int) = exponent := by omega
    simp only [scanExponent, splitSign, below, taken, dropped, value, filled, amount, if_true]
    rfl
  · have amount : (exponent.natAbs : Int) = exponent := by omega
    simp only [scanExponent, splitSign, below, taken, dropped, value, filled, amount, if_false]
    rfl

section LayOut

variable {point : Int} (all : AllDigits digits) (some : digits ≠ []) (negative : Bool)
include all some

/-- A decimal with an exponent. -/
theorem scanDecimal?_scientific (far : point ≤ -4 ∨ 16 < point) :
    scanDecimal? (signChars negative ++ (layOut digits point).toList) =
      .some (ofDecimal negative (Text.valueAfter 0 digits) (point - digits.length)) := by
  obtain ⟨c, rest, rfl⟩ := List.exists_cons_of_ne_nil some
  have exponent := scanExponent_printed (point - 1)
  generalize tail_eq : 'e' :: (if point - 1 < 0 then '-' else '+') ::
    (List.replicate (2 - (Text.digits (point - 1).natAbs).length) '0' ++
      Text.digits (point - 1).natAbs) = tail at exponent
  have text : (layOut (c :: rest) point).toList = [c] ++ (pointChars rest ++ tail) := by
    rw [← tail_eq]
    simp only [layOut, far, if_true, List.take_succ_cons, List.take_zero, List.drop_succ_cons, List.drop_zero,
      String.toList_append, String.toList_ofList, Text.paddedNumeral, List.append_assoc]
    congr 2
    split <;> rfl
  have first : AllDigits [c] := fun d mem => all d (List.mem_singleton.mp mem ▸ List.mem_cons_self)
  have others : AllDigits rest := fun d mem => all d (List.mem_cons_of_mem c mem)
  rw [text, scanDecimal?_printed (List.cons_ne_nil c []) first others (tail_eq ▸ stops_cons rfl)
    (by rw [← tail_eq]; simp) exponent, List.singleton_append, List.length_cons]
  congr 2
  omega

/-- A decimal below one. -/
theorem scanDecimal?_fraction (near : ¬(point ≤ -4 ∨ 16 < point)) (low : point ≤ 0) :
    scanDecimal? (signChars negative ++ (layOut digits point).toList) =
      .some (ofDecimal negative (Text.valueAfter 0 digits) (point - digits.length)) := by
  have text : (layOut digits point).toList =
      ['0'] ++ '.' :: (List.replicate (-point).toNat '0' ++ digits) := by
    simp only [layOut, near, low, if_true, if_false, String.toList_append, String.toList_ofList]
    rfl
  have nonempty : List.replicate (-point).toNat '0' ++ digits ≠ [] := List.append_ne_nil_of_right_ne_nil _ some
  rw [text, scanDecimal?_pointed (by simp) allDigits_zero nonempty ((allDigits_zeros _).append all),
    ← List.replicate_one, ← List.append_assoc, List.replicate_append_replicate,
    Text.valueAfter_leadingZeros, List.length_append, List.length_replicate]
  congr 2
  omega

/-- A decimal from one on. -/
theorem scanDecimal?_whole (near : ¬(point ≤ -4 ∨ 16 < point)) (high : ¬ point ≤ 0) :
    scanDecimal? (signChars negative ++ (layOut digits point).toList) =
      .some (ofDecimal negative (Text.valueAfter 0 digits) (point - digits.length)) := by
  obtain ⟨whole, rfl⟩ := Int.eq_ofNat_of_zero_le (by omega : 0 ≤ point)
  rcases Nat.lt_or_ge whole digits.length with inside | outside
  · have text : (layOut digits whole).toList = digits.take whole ++ '.' :: digits.drop whole := by
      have rest : (digits.drop whole).isEmpty = false := by simp [inside]
      have none : whole - digits.length = 0 := by omega
      simp only [layOut, near, high, if_false, Int.toNat_natCast, rest, none, Bool.false_eq_true,
        List.replicate_zero, List.append_nil, String.toList_append, String.toList_ofList, List.append_assoc]
      rfl
    have digits' : AllDigits (digits.take whole) := fun c mem => all c (List.mem_of_mem_take mem)
    have digits'' : AllDigits (digits.drop whole) := fun c mem => all c (List.mem_of_mem_drop mem)
    have front : digits.take whole ≠ [] := by
      rw [Ne, List.take_eq_nil_iff, not_or]
      exact ⟨by omega, some⟩
    have back : digits.drop whole ≠ [] := by
      rw [Ne, List.drop_eq_nil_iff]
      omega
    rw [text, scanDecimal?_pointed front digits' back digits'',
      List.take_append_drop, List.length_drop]
    congr 2
    omega
  · have text : (layOut digits whole).toList =
        (digits ++ List.replicate (whole - digits.length) '0') ++ '.' :: ['0'] := by
      have rest : (digits.drop whole).isEmpty = true := by simp [outside]
      simp only [layOut, near, high, if_true, if_false, Int.toNat_natCast, rest,
        List.take_of_length_le outside, String.toList_append, String.toList_ofList, List.append_assoc]
      rfl
    rw [text, scanDecimal?_pointed (List.append_ne_nil_of_left_ne_nil some _)
      (all.append (allDigits_zeros _)) (by simp) allDigits_zero, List.append_assoc,
      ← List.replicate_one, List.replicate_append_replicate, Text.valueAfter_append,
      Text.valueAfter_zeros, ofDecimal_shift, List.length_replicate]
    congr 2
    omega

theorem scanDecimal?_layOut (point : Int) :
    scanDecimal? (signChars negative ++ (layOut digits point).toList) =
      .some (ofDecimal negative (Text.valueAfter 0 digits) (point - digits.length)) := by
  by_cases far : point ≤ -4 ∨ 16 < point
  · exact scanDecimal?_scientific all some negative far
  · by_cases low : point ≤ 0
    · exact scanDecimal?_fraction all some negative far low
    · exact scanDecimal?_whole all some negative far low

end LayOut

theorem shortest_eq {significand : Nat} {place : Int} (nonzero : units ≠ 0)
    (decimal : shortestDecimal units = (significand, place)) (negative : Bool) :
    (finite negative units).shortest = (if negative then "-" else "") ++
      layOut (trimmedDigits significand) (place + (Text.digits significand).length) := by
  rw [shortest, if_neg nonzero, decimal]

/-- The shortest decimal of a number reads back as it. -/
theorem scan?_shortest {x : Binary64} (number : x.IsNumber) : scan? x.shortest = some x := by
  cases number with
  | infinite => exact scan?_inf _
  | @finite negative units fits =>
    apply scan?_of_scanDecimal?
    rcases Nat.eq_zero_or_pos units with rfl | pos
    · rw [shortest, String.toList_append, toList_sign]
      exact scanDecimal?_pointed (by simp) allDigits_zero (by simp) allDigits_zero negative
    · have reads := ofDecimal_shortestDecimal fits pos
      rcases decimal : shortestDecimal units with ⟨significand, place⟩
      rw [decimal] at reads
      obtain ⟨zeros, digits⟩ := exists_zeros significand
      have worth := valueAfter_trimmedDigits digits
      have nonempty : trimmedDigits significand ≠ [] := by
        intro none
        rw [none] at worth
        change 0 * 10 ^ zeros = significand at worth
        rw [Nat.zero_mul] at worth
        subst worth
        exact absurd (finite.inj reads).2 (by omega)
      have places : place + (Text.digits significand).length - (trimmedDigits significand).length =
          place + zeros := by
        rw [digits, List.length_append, List.length_replicate]
        omega
      rw [shortest_eq (by omega) decimal, String.toList_append, toList_sign,
        scanDecimal?_layOut (allDigits_trimmedDigits _) nonempty, places, ← ofDecimal_shift, worth,
        ofDecimal_signed reads]

/-- Different numbers have different shortest decimals. -/
theorem shortest_inj {x y : Binary64} (number : x.IsNumber) (number' : y.IsNumber)
    (same : x.shortest = y.shortest) : x = y := by
  have read := scan?_shortest number
  rw [same, scan?_shortest number'] at read
  exact (Option.some.inj read).symm

end Binary64

end Backjump
