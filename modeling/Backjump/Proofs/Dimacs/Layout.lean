import Backjump.Clause
import Backjump.Proofs.Dimacs.Token
import Backjump.Proofs.Traversal

/-! Clauses written out and read back. A layout is any text of tokens with blanks
and line ends around them, at least one between two tokens; its numerals are its
tokens, in order. Grouping undoes the zeros behind the clauses and drops repeats.
What is read of any text, comments and endings included, is free of zeros and
repeats and made of integers that have a token, so it can be written down and
read again. -/
namespace Backjump.Dimacs

/-- What may stand between two tokens. -/
def Gap (c : Char) : Prop := Text.isBlank c = true ∨ Text.isLineEnd c = true

/-- A text of tokens and gaps, with the integers that the tokens spell. -/
inductive Layout : List Int → List Char → Prop where
  | empty : Layout [] []
  | gap {c : Char} {ns : List Int} {text : List Char} (apart : Gap c) (rest : Layout ns text) :
    Layout ns (c :: text)
  | token {n : Int} {token : List Char} {ns : List Int} {text : List Char} (spells : Spells token n)
    (bounded : ∀ c ∈ text.head?, Gap c) (rest : Layout ns text) : Layout (n :: ns) (token ++ text)

/-- The integers of clauses, a zero behind each clause. -/
def closed (clauses : List (List Int)) : List Int := clauses.flatMap (· ++ [0])

/-- The integers of clauses, a zero behind each but perhaps the last; an empty clause needs it. -/
def Lists (ns : List Int) (clauses : List (List Int)) : Prop :=
  ns = closed clauses ∨
    ∃ front last, clauses = front ++ [last] ∧ last ≠ [] ∧ ns = closed front ++ last

/-- A line for each clause: the literals, each with a blank behind it, and a zero. -/
def write (clauses : List (List Int)) : List Char :=
  clauses.flatMap fun clause =>
    (clause.flatMap fun n => (Text.signedNumeral n).toList ++ [' ']) ++ ['0', '\n']

variable {c : Char} {n : Int} {token text : List Char} {pending clause ns : List Int}
  {clauses : List (List Int)}

theorem Gap.isBlank (apart : Gap c) : Text.isBlank c = true :=
  apart.elim id Text.isBlank_of_isLineEnd

theorem Gap.separates (apart : Gap c) : Separates c := separates_of_isBlank apart.isBlank

theorem Gap.plain (apart : Gap c) : Plain c := by
  have blank := apart.isBlank
  refine ⟨?_, ?_, ?_⟩ <;> (rintro rfl; contradiction)

theorem plain_of_isDigit (digit : Text.isDigit c = true) : Plain c := by
  refine ⟨?_, ?_, ?_⟩ <;> (rintro rfl; revert digit; decide)

theorem Spells.each (spells : Spells token n) : ∀ c ∈ token, Text.isDigit c = true ∨ c = '-' := by
  cases spells with
  | unsigned written => exact fun c mem => .inl (written.each c mem)
  | negative written => exact List.forall_mem_cons.mpr ⟨.inr rfl, fun c mem => .inl (written.each c mem)⟩

namespace Layout

/-- A layout is made of gaps, digits and minus signs. -/
theorem each (layout : Layout ns text) : ∀ c ∈ text, Gap c ∨ Text.isDigit c = true ∨ c = '-' := by
  induction layout with
  | empty => exact fun _ mem => absurd mem List.not_mem_nil
  | gap apart _ ih => exact List.forall_mem_cons.mpr ⟨.inl apart, ih⟩
  | token spells _ _ ih => exact List.forall_mem_append.mpr ⟨fun c mem => .inr (spells.each c mem), ih⟩

theorem plain (layout : Layout ns text) : ∀ c ∈ text, Plain c := by
  intro c mem
  rcases layout.each c mem with apart | digit | rfl
  · exact apart.plain
  · exact plain_of_isDigit digit
  · exact ⟨by decide, by decide, by decide⟩

/-- A token ends where a gap begins, so the numerals of a layout are its tokens. -/
theorem numerals_values (layout : Layout ns text) :
    List.Forall₂ (fun numeral n => Numeral.value numeral = .ok n) (numerals text) ns := by
  induction layout with
  | empty =>
    rw [numerals_nil]
    exact .nil
  | gap apart _ ih => rwa [numerals_cons apart.separates]
  | @token n token ns text spells bounded _ ih =>
    obtain ⟨numeral, only, value⟩ := spells.exists_numeral
    have parts : numerals (token ++ text) = numerals token ++ numerals text := by
      cases text with
      | nil => rw [List.append_nil, numerals_nil, List.append_nil]
      | cons c text =>
        have separates := (bounded c rfl).separates
        rw [numerals_append_cons separates, numerals_cons separates]
    rw [parts, only]
    exact .cons value ih

theorem parse_eq (layout : Layout ns text) : parse text = .ok (group [] ns) := by
  rw [parse, tokens_lines layout.plain, mapM_eq_ok_of_forall₂ layout.numerals_values]
  rfl

end Layout

theorem group_append (nonzero : 0 ∉ clause) (pending ns : List Int) :
    group pending (clause ++ ns) = group (pending ++ clause) ns := by
  induction clause generalizing pending with
  | nil => rw [List.nil_append, List.append_nil]
  | cons n clause ih =>
    rw [List.mem_cons, not_or] at nonzero
    rw [List.cons_append, group, if_neg (Ne.symm nonzero.1), ih nonzero.2, List.append_assoc,
      List.singleton_append]

theorem group_closed (nonzero : ∀ clause ∈ clauses, 0 ∉ clause) (ns : List Int) :
    group [] (closed clauses ++ ns) = clauses.map List.eraseDups ++ group [] ns := by
  induction clauses with
  | nil => rfl
  | cons clause clauses ih =>
    have tail := ih fun other mem => nonzero other (List.mem_cons_of_mem clause mem)
    calc group [] (closed (clause :: clauses) ++ ns)
        = group [] (clause ++ 0 :: (closed clauses ++ ns)) := by
          rw [closed, List.flatMap_cons, ← closed]
          simp only [List.append_assoc, List.cons_append, List.nil_append]
      _ = clause.eraseDups :: group [] (closed clauses ++ ns) := by
          rw [group_append (nonzero clause List.mem_cons_self), group, if_pos rfl, List.nil_append]
      _ = (clause :: clauses).map List.eraseDups ++ group [] ns := by
          rw [tail, List.map_cons, List.cons_append]

theorem Lists.group_eq (lists : Lists ns clauses) (nonzero : ∀ clause ∈ clauses, 0 ∉ clause) :
    group [] ns = clauses.map List.eraseDups := by
  rcases lists with rfl | ⟨front, last, rfl, filled, rfl⟩
  · have whole := group_closed nonzero []
    rwa [List.append_nil, group, List.isEmpty_nil, if_pos rfl, List.append_nil] at whole
  · rw [List.forall_mem_append, List.forall_mem_singleton] at nonzero
    have unclosed : group [] last = [last.eraseDups] := by
      have pendingLast := group_append nonzero.2 [] []
      rwa [List.append_nil, List.nil_append, group, if_neg (by simpa using filled)] at pendingLast
    rw [group_closed nonzero.1, unclosed, List.map_append, List.map_singleton]

theorem group_spec (nonzero : 0 ∉ pending) (mem : clause ∈ group pending ns) :
    0 ∉ clause ∧ clause.Nodup ∧ ∀ n ∈ clause, n ∈ pending ++ ns := by
  have taken (pending : List Int) (nonzero : 0 ∉ pending) (ns : List Int) :
      0 ∉ pending.eraseDups ∧ pending.eraseDups.Nodup ∧ ∀ n ∈ pending.eraseDups, n ∈ pending ++ ns :=
    ⟨by rwa [List.mem_eraseDups], nodup_eraseDups pending,
      fun n mem => List.mem_append_left ns (List.mem_eraseDups.mp mem)⟩
  induction ns generalizing pending with
  | nil =>
    rw [group] at mem
    split at mem
    · exact absurd mem List.not_mem_nil
    · rw [List.mem_singleton] at mem
      exact mem ▸ taken pending nonzero []
  | cons n ns ih =>
    rw [group] at mem
    split at mem
    · rcases List.mem_cons.mp mem with rfl | later
      · exact taken pending nonzero (n :: ns)
      · obtain ⟨free, nodup, inside⟩ := ih List.not_mem_nil later
        exact ⟨free, nodup, fun m mem =>
          List.mem_append_right pending (List.mem_cons_of_mem n (inside m mem))⟩
    · have nonzero' : 0 ∉ pending ++ [n] := by
        rw [List.mem_append, List.mem_singleton, not_or]
        exact ⟨nonzero, Ne.symm ‹_›⟩
      obtain ⟨free, nodup, inside⟩ := ih nonzero' mem
      refine ⟨free, nodup, fun m mem => ?_⟩
      have := inside m mem
      rwa [List.append_assoc, List.singleton_append] at this

/-- What is read of any text is free of zeros and repeats, and its integers have tokens. -/
theorem clauses_of_parse (read : parse text = .ok clauses) (mem : clause ∈ clauses) :
    0 ∉ clause ∧ clause.Nodup ∧ ∀ n ∈ clause, n.natAbs < 10 ^ Text.maxDigits := by
  obtain ⟨ns, values, rfl⟩ := exists_values_of_parse read
  obtain ⟨free, nodup, inside⟩ := group_spec List.not_mem_nil mem
  refine ⟨free, nodup, fun n mem => ?_⟩
  obtain ⟨numeral, token, value⟩ := exists_of_mem_mapM values (inside n mem)
  exact natAbs_lt_of_tokens token value

theorem layout_write (below : ∀ clause ∈ clauses, ∀ n ∈ clause, n.natAbs < 10 ^ Text.maxDigits) :
    Layout (closed clauses) (write clauses) := by
  have blank : Gap ' ' := .inl rfl
  have newline : Gap '\n' := .inr rfl
  have written : Digits ['0'] := ⟨by decide, List.all_eq_true.mp (by decide), by decide⟩
  have zero : Spells ['0'] 0 := .unsigned written
  induction clauses with
  | nil => exact .empty
  | cons clause clauses ih =>
    have rest := ih fun other mem => below other (List.mem_cons_of_mem clause mem)
    have fits := below clause List.mem_cons_self
    rw [closed, List.flatMap_cons, ← closed, write, List.flatMap_cons, ← write, List.append_assoc,
      List.append_assoc]
    clear below ih
    induction clause with
    | nil =>
      change Layout (0 :: closed clauses) (['0'] ++ '\n' :: write clauses)
      exact .token zero (by rintro c ⟨⟩; exact newline) (.gap newline rest)
    | cons n clause ih =>
      have spelled := spells_signedNumeral (fits n List.mem_cons_self)
      have behind := ih fun m mem => fits m (List.mem_cons_of_mem n mem)
      rw [List.flatMap_cons, List.append_assoc, List.append_assoc]
      exact .token spelled (by rintro c ⟨⟩; exact blank) (.gap blank behind)

/-- Clauses are read from each of their layouts, first occurrences alone, and what is read of any
text has one: its own lines. -/
theorem parse_layouts :
    (∀ clauses ns text, (∀ clause ∈ clauses, 0 ∉ clause) → Lists ns clauses → Layout ns text →
      parse text = .ok (clauses.map List.eraseDups)) ∧
    ∀ text clauses, parse text = .ok clauses →
      (∀ clause ∈ clauses, 0 ∉ clause ∧ clause.Nodup) ∧ parse (write clauses) = .ok clauses := by
  have layouts (clauses : List (List Int)) (ns : List Int) (text : List Char)
      (nonzero : ∀ clause ∈ clauses, 0 ∉ clause) (lists : Lists ns clauses) (layout : Layout ns text) :
      parse text = .ok (clauses.map List.eraseDups) := by
    rw [layout.parse_eq, lists.group_eq nonzero]
  refine ⟨layouts, fun text clauses read => ?_⟩
  have spec {clause : List Int} (mem : clause ∈ clauses) := clauses_of_parse read mem
  refine ⟨fun clause mem => ⟨(spec mem).1, (spec mem).2.1⟩, ?_⟩
  have written : Layout (closed clauses) (write clauses) := layout_write fun clause mem => (spec mem).2.2
  have unrepeated : clauses.map List.eraseDups = clauses :=
    (List.map_congr_left fun clause mem => eraseDups_of_nodup (spec mem).2.1).trans (List.map_id _)
  rw [layouts _ _ _ (fun clause mem => (spec mem).1) (.inl rfl) written, unrepeated]

theorem parse_layouts_of_scattered :
    parse ['\u2028', ' ', '1', '\x0b', '-', '2', ' ', '١', '\r', '\n', '0', '\x1c', '0', '0', ' ',
        '3'] = .ok [[1, -2], [], [3]] ∧
      (∀ clause ∈ [[1, -2], [], [(3 : Int)]], 0 ∉ clause ∧ clause.Nodup) ∧
      parse (write [[1, -2], [], [3]]) = .ok [[1, -2], [], [3]] := by
  have one : Digits ['1'] := ⟨by decide, List.all_eq_true.mp (by decide), by decide⟩
  have two : Digits ['2'] := ⟨by decide, List.all_eq_true.mp (by decide), by decide⟩
  have arabicOne : Digits ['١'] := ⟨by decide, List.all_eq_true.mp (by decide), by decide⟩
  have zero : Digits ['0'] := ⟨by decide, List.all_eq_true.mp (by decide), by decide⟩
  have zeros : Digits ['0', '0'] := ⟨by decide, List.all_eq_true.mp (by decide), by decide⟩
  have three : Digits ['3'] := ⟨by decide, List.all_eq_true.mp (by decide), by decide⟩
  have bounded {c : Char} {text : List Char} (apart : Gap c) : ∀ x ∈ (c :: text).head?, Gap x := by
    rintro x ⟨⟩
    exact apart
  have last : Layout [0, 0, 3] ['0', '\x1c', '0', '0', ' ', '3'] :=
    .token (.unsigned zero) (bounded (.inr rfl)) <| .gap (.inr rfl) <|
      .token (.unsigned zeros) (bounded (.inl rfl)) <| .gap (.inl rfl) <|
        .token (.unsigned three) (fun _ => nofun) .empty
  have layout : Layout [1, -2, 1, 0, 0, 3]
      ['\u2028', ' ', '1', '\x0b', '-', '2', ' ', '١', '\r', '\n', '0', '\x1c', '0', '0', ' ',
        '3'] :=
    .gap (.inr rfl) <| .gap (.inl rfl) <| .token (.unsigned one) (bounded (.inr rfl)) <|
      .gap (.inr rfl) <| .token (.negative two) (bounded (.inl rfl)) <| .gap (.inl rfl) <|
        .token (.unsigned arabicOne) (bounded (.inr rfl)) <| .gap (.inr rfl) <| .gap (.inr rfl) last
  have lists : Lists [1, -2, 1, 0, 0, 3] [[1, -2, 1], [], [3]] :=
    .inr ⟨[[1, -2, 1], []], [3], rfl, List.cons_ne_nil _ _, rfl⟩
  have read := parse_layouts.1 _ _ _ (by decide) lists layout
  exact ⟨read, parse_layouts.2 _ _ read⟩

end Backjump.Dimacs
