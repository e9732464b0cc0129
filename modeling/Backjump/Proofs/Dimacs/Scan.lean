import Backjump.Dimacs
import Mathlib.Data.List.TakeWhile

/-! What the scan of a text finds. A character that is neither a digit nor a minus
sign is in no numeral, so a text may be cut there: the numerals of the whole are
those of the two parts. Blanks and line ends are such characters. Trimming a line
and cutting a text into lines therefore lose no numeral, and unless a line begins
with a letter or a percent sign, the tokens of a text are its numerals. -/
namespace Backjump

variable {c : Char} {a b line rest text : List Char} {ls more : List (List Char)}

namespace Text

theorem isBlank_of_isLineEnd (ends : isLineEnd c = true) : isBlank c = true := by
  simp only [isLineEnd, isBlank, Bool.or_eq_true, Bool.and_eq_true, decide_eq_true_eq,
    beq_iff_eq] at ends ⊢
  omega

/-- No script has its digits where the blanks are. -/
theorem digitZeros_apart : ∀ first ∈ digitZeros, 32 < first ∧ (first + 10 ≤ 0x85 ∨ 0xa0 < first) ∧
    (first + 10 ≤ 0x1680 ∨ 0x1680 < first) ∧ (first + 10 ≤ 0x2000 ∨ 0x3000 < first) := by
  decide

theorem digitValue?_eq_none_of_isBlank (blank : isBlank c = true) : digitValue? c = none := by
  rw [digitValue?, Option.map_eq_none_iff, List.find?_eq_none]
  intro first zero
  have apart := digitZeros_apart first zero
  simp only [isBlank, Bool.or_eq_true, Bool.and_eq_true, decide_eq_true_eq, beq_iff_eq] at blank ⊢
  omega

theorem digitValue?_lt {d : Nat} (digit : digitValue? c = some d) : d < 10 := by
  obtain ⟨first, found, rfl⟩ := Option.map_eq_some_iff.mp digit
  have within := List.find?_some found
  simp only [Bool.and_eq_true, decide_eq_true_eq] at within
  omega

theorem exists_trim (text : List Char) : ∃ front back, text = front ++ trim text ++ back ∧
    (∀ c ∈ front, isBlank c = true) ∧ ∀ c ∈ back, isBlank c = true := by
  let tail := text.dropWhile isBlank
  have tailParts : tail = trim text ++ (tail.reverse.takeWhile isBlank).reverse :=
    calc tail = (tail.reverse.takeWhile isBlank ++ tail.reverse.dropWhile isBlank).reverse := by
          rw [List.takeWhile_append_dropWhile, List.reverse_reverse]
      _ = trim text ++ (tail.reverse.takeWhile isBlank).reverse := List.reverse_append
  refine ⟨text.takeWhile isBlank, (tail.reverse.takeWhile isBlank).reverse, ?_,
    fun c mem => List.mem_takeWhile_imp mem,
    fun c mem => List.mem_takeWhile_imp (List.mem_reverse.mp mem)⟩
  rw [List.append_assoc, ← tailParts, List.takeWhile_append_dropWhile]

namespace lines

theorem go_crlf : go line ('\r' :: '\n' :: rest) = line.reverse :: go [] rest := rfl

theorem go_cons (single : c = '\r' → rest.head? ≠ some '\n') : go line (c :: rest) =
    if isLineEnd c then line.reverse :: go [] rest else go (c :: line) rest := by
  rw [go]
  rintro tail rfl rfl
  exact single rfl rfl

end lines

end Text

namespace Dimacs

/-- A character that no numeral holds. -/
def Separates (c : Char) : Prop := Text.digitValue? c = none ∧ c ≠ '-'

theorem separates_of_isBlank (blank : Text.isBlank c = true) : Separates c := by
  refine ⟨Text.digitValue?_eq_none_of_isBlank blank, ?_⟩
  rintro rfl
  contradiction

theorem numerals_nil : numerals [] = [] := by rw [numerals]

theorem numerals_cons (separates : Separates c) (rest : List Char) :
    numerals (c :: rest) = numerals rest := by
  rw [numerals, separates.1]
  exact if_neg fun minus => separates.2 minus.1

theorem spanDigits_append (separates : Separates c) (a b : List Char) :
    spanDigits (a ++ c :: b) = ((spanDigits a).1, (spanDigits a).2 ++ c :: b) := by
  induction a with
  | nil => simp only [List.nil_append, spanDigits, separates.1]
  | cons x a ih =>
    rw [List.cons_append, spanDigits, spanDigits]
    cases Text.digitValue? x with
    | some d => simp only [ih]
    | none => rfl

theorem numerals_append_cons (separates : Separates c) (a b : List Char) :
    numerals (a ++ c :: b) = numerals a ++ numerals b := by
  fun_induction numerals a with
  | case1 => rw [List.nil_append, numerals_cons separates, List.nil_append]
  | case2 x a d digit ih =>
    rw [List.cons_append, numerals, digit]
    simp only [spanDigits_append separates, ih, List.cons_append]
  | case3 x a other minus ih =>
    rw [List.cons_append, numerals, other]
    simp only [spanDigits_append separates, if_pos minus, ih, List.cons_append]
  | case4 x a other minus ih =>
    rw [List.cons_append, numerals, other]
    simp only [spanDigits_append separates, if_neg minus, ih]

theorem numerals_blanks_append (blank : ∀ c ∈ a, Text.isBlank c = true) :
    numerals (a ++ b) = numerals b := by
  induction a with
  | nil => rfl
  | cons c a ih =>
    obtain ⟨head, tail⟩ := List.forall_mem_cons.mp blank
    rw [List.cons_append, numerals_cons (separates_of_isBlank head), ih tail]

theorem numerals_append_blanks (blank : ∀ c ∈ b, Text.isBlank c = true) :
    numerals (a ++ b) = numerals a := by
  cases b with
  | nil => rw [List.append_nil]
  | cons c b =>
    obtain ⟨head, tail⟩ := List.forall_mem_cons.mp blank
    have noneBehind : numerals (b ++ []) = numerals [] := numerals_blanks_append tail
    rw [List.append_nil, numerals_nil] at noneBehind
    rw [numerals_append_cons (separates_of_isBlank head), noneBehind, List.append_nil]

theorem numerals_trim (text : List Char) : numerals (Text.trim text) = numerals text := by
  obtain ⟨front, back, whole, frontBlank, backBlank⟩ := Text.exists_trim text
  exact calc numerals (Text.trim text)
    _ = numerals (front ++ Text.trim text) := (numerals_blanks_append frontBlank).symm
    _ = numerals (front ++ Text.trim text ++ back) := (numerals_append_blanks backBlank).symm
    _ = numerals text := congrArg numerals whole.symm

theorem eq_numerals_of_clauses {ns : List Numeral} (kind : Line.ofText line = .clauses ns) :
    ns = numerals line := by
  rw [Line.ofText] at kind
  rw [← numerals_trim]
  cases trimmed : Text.trim line with
  | nil =>
    rw [trimmed] at kind
    contradiction
  | cons c rest =>
    simp only [trimmed] at kind
    split_ifs at kind
    exact (Line.clauses.inj kind).symm

theorem exists_line_of_mem_tokens {n : Numeral} (mem : n ∈ tokens ls) :
    ∃ line ∈ ls, n ∈ numerals line := by
  induction ls with
  | nil => exact absurd mem List.not_mem_nil
  | cons line ls ih =>
    have later (mem : n ∈ tokens ls) : ∃ l ∈ line :: ls, n ∈ numerals l :=
      (ih mem).imp fun l found => ⟨List.mem_cons_of_mem line found.1, found.2⟩
    rw [tokens] at mem
    cases kind : Line.ofText line with
    | skipped => exact later (by simpa only [kind] using mem)
    | ending => exact absurd (by simpa only [kind] using mem) List.not_mem_nil
    | clauses ns =>
      simp only [kind, List.mem_append] at mem
      rcases mem with here | there
      · exact ⟨line, List.mem_cons_self, eq_numerals_of_clauses kind ▸ here⟩
      · exact later there

/-- A character with which neither a comment, a header nor an ending begins. -/
def Plain (c : Char) : Prop := c ≠ 'c' ∧ c ≠ 'p' ∧ c ≠ '%'

theorem tokens_cons (plain : ∀ c ∈ line, Plain c) :
    tokens (line :: ls) = numerals line ++ tokens ls := by
  obtain ⟨front, back, whole, -, -⟩ := Text.exists_trim line
  rw [tokens, Line.ofText, ← numerals_trim line]
  cases trimmed : Text.trim line with
  | nil => rw [numerals_nil, List.nil_append]
  | cons c rest =>
    have inside : c ∈ line := by
      rw [whole, trimmed]
      simp only [List.mem_append, List.mem_cons, true_or, or_true]
    obtain ⟨notComment, notHeader, notEnding⟩ := plain c inside
    simp only [if_neg notEnding, notComment, notHeader, or_self, if_false]

theorem tokens_go (plain : ∀ c ∈ line ++ text, Plain c) :
    tokens (Text.lines.go line text) = numerals (line.reverse ++ text) := by
  -- every cut is at a separator, so the numerals of the line under way and of the rest add up
  have lineEnd {c : Char} (ends : Text.isLineEnd c = true) : Separates c :=
    separates_of_isBlank (Text.isBlank_of_isLineEnd ends)
  fun_induction Text.lines.go line text with
  | case1 line empty =>
    rw [List.isEmpty_iff.mp empty]
    rw [List.reverse_nil, List.append_nil, numerals_nil, tokens]
  | case2 line filled =>
    rw [tokens_cons fun c mem => plain c (by simpa using mem), tokens, List.append_nil,
      List.append_nil]
  | case3 line rest ih =>
    rw [tokens_cons fun c mem => plain c (by simp_all), ih fun c mem => plain c (by simp_all),
      numerals_append_cons (lineEnd rfl), numerals_cons (lineEnd rfl), List.reverse_nil,
      List.nil_append]
  | case4 line c rest single ends ih =>
    rw [tokens_cons fun c mem => plain c (by simp_all), ih fun c mem => plain c (by simp_all),
      numerals_append_cons (lineEnd ends), List.reverse_nil, List.nil_append]
  | case5 line c rest single inside ih =>
    rw [ih fun x mem => plain x (by simp_all [or_left_comm]), List.reverse_cons, List.append_assoc,
      List.singleton_append]

theorem tokens_lines (plain : ∀ c ∈ text, Plain c) : tokens (Text.lines text) = numerals text :=
  tokens_go plain

theorem exists_values_of_parse {clauses : List (List Int)} (read : parse text = .ok clauses) :
    ∃ ns, (tokens (Text.lines text)).mapM Numeral.value = .ok ns ∧ group [] ns = clauses := by
  rw [parse] at read
  cases values : (tokens (Text.lines text)).mapM Numeral.value with
  | error fault =>
    rw [values] at read
    contradiction
  | ok ns =>
    rw [values] at read
    exact ⟨ns, rfl, Except.ok.inj read⟩

end Dimacs

end Backjump
