import Backjump.Proofs.Dimacs.Scan
import Backjump.Proofs.Traversal

/-! Comments put between the lines of a text. A comment ends at the first line
end of any kind, not at its line feed alone: what follows another line end inside
it is lines of their own, and these are read. So a comment changes nothing, in
whatever text and even within a clause, exactly when each of those lines is
skipped or holds no numeral; with no line end in the comment there are none. -/
namespace Backjump

variable {c : Char} {line s text front back : List Char} {pending ns : List Int}
  {ls more : List (List Char)}

namespace Text.lines

theorem go_append_newline (line text back : List Char) :
    go line (text ++ '\n' :: back) = go line (text ++ ['\n']) ++ go [] back := by
  fun_induction go line text with
  | case1 line empty | case2 line filled => rfl
  | case3 line rest ih => simp only [List.cons_append, go_crlf, ih]
  | case4 line c rest single ends ih | case5 line c rest single inside ih =>
    cases rest with
    | nil =>
      -- a carriage return at the very end takes the line feed with it
      by_cases carriage : c = '\r'
      · subst carriage
        rfl
      · have single (tail : List Char) : c = '\r' → tail.head? ≠ some '\n' :=
          fun same => absurd same carriage
        simp only [List.cons_append, List.nil_append, go_cons (single _)]
        split <;> rfl
    | cons next rest =>
      have apart (tail : List Char) : c = '\r' → (next :: (rest ++ tail)).head? ≠ some '\n' := by
        rintro rfl same
        exact single rest rfl (by rw [Option.some.inj same])
      simp only [List.cons_append] at ih ⊢
      simp only [go_cons (apart _), *]
      rfl

/-- The line under way is the beginning of the next line. -/
theorem exists_go_eq (some : line ≠ []) (text : List Char) :
    ∃ rest more, go line text = (line.reverse ++ rest) :: more := by
  fun_induction go line text with
  | case1 line empty => exact absurd (List.isEmpty_iff.mp empty) some
  | case2 line filled => exact ⟨[], [], by rw [List.append_nil]⟩
  | case3 line rest ih | case4 line c rest single ends ih =>
    exact ⟨[], go [] rest, by rw [List.append_nil]⟩
  | case5 line c rest single inside ih =>
    obtain ⟨behind, more, eq⟩ := ih (List.cons_ne_nil c line)
    refine ⟨c :: behind, more, ?_⟩
    rw [eq, List.reverse_cons, List.append_assoc, List.singleton_append]

end Text.lines

namespace Dimacs

/-- A line that begins with `c`, its line feed included. -/
def comment (s : List Char) : List Char := 'c' :: (s ++ ['\n'])

/-- A line that adds no numeral and does not end the text. -/
def Line.Idle (line : Line) : Prop := line = .skipped ∨ line = .clauses []

/-- Nothing, or a text up to and with one of its line feeds. -/
def WholeLines (front : List Char) : Prop := front = [] ∨ ∃ text, front = text ++ ['\n']

theorem lines_append (whole : WholeLines front) (back : List Char) :
    Text.lines (front ++ back) = Text.lines front ++ Text.lines back := by
  rcases whole with rfl | ⟨text, rfl⟩
  · rfl
  · rw [List.append_assoc]
    exact Text.lines.go_append_newline [] text back

theorem exists_lines_comment (s : List Char) :
    ∃ rest, Text.lines (comment s) = ('c' :: rest) :: (Text.lines (comment s)).tail := by
  obtain ⟨rest, more, eq⟩ := Text.lines.exists_go_eq (List.cons_ne_nil 'c' []) (s ++ ['\n'])
  have whole : Text.lines (comment s) = ('c' :: rest) :: more := eq
  exact ⟨rest, by rw [whole, List.tail_cons]⟩

/-- Without a line end inside, the comment is one line. -/
theorem lines_comment (closed : ∀ c ∈ s, Text.isLineEnd c = false) :
    Text.lines (comment s) = ['c' :: s] := by
  have onward (line : List Char) : Text.lines.go line (s ++ ['\n']) = [line.reverse ++ s] := by
    induction s generalizing line with
    | nil =>
      rw [List.append_nil]
      rfl
    | cons c s ih =>
      have inside := closed c List.mem_cons_self
      have single : c = '\r' → (s ++ ['\n']).head? ≠ some '\n' := by
        rintro rfl
        contradiction
      rw [List.cons_append, Text.lines.go_cons single, if_neg (by rw [inside]; decide),
        ih fun x mem => closed x (List.mem_cons_of_mem c mem), List.reverse_cons, List.append_assoc,
        List.singleton_append]
  exact onward ['c']

theorem ofText_comment (rest : List Char) : Line.ofText ('c' :: rest) = .skipped := by
  obtain ⟨front, back, whole, frontBlank, backBlank⟩ := Text.exists_trim ('c' :: rest)
  have filled : ¬ Text.isBlank 'c' = true := by decide
  cases front with
  | cons c front =>
    rw [List.cons_append, List.cons_append, List.cons.injEq] at whole
    exact absurd (whole.1 ▸ frontBlank c List.mem_cons_self) filled
  | nil =>
    rw [Line.ofText]
    cases trimmed : Text.trim ('c' :: rest) with
    | nil => rfl
    | cons c tail =>
      rw [trimmed, List.nil_append, List.cons_append, List.cons.injEq] at whole
      rw [← whole.1]
      rfl

theorem tokens_insert (idle : ∀ line ∈ ls, (Line.ofText line).Idle) (front back : List (List Char)) :
    tokens (front ++ ls ++ back) = tokens (front ++ back) := by
  induction front with
  | nil =>
    induction ls with
    | nil => rfl
    | cons line ls ih =>
      have tail := ih fun l mem => idle l (List.mem_cons_of_mem line mem)
      rw [List.nil_append, List.cons_append, tokens]
      rcases idle line List.mem_cons_self with skipped | empty
      · rw [skipped]
        exact tail
      · rw [empty]
        exact tail
  | cons line front ih =>
    simp only [List.cons_append, tokens, ih]

/-- Lines without a numeral: all of them are idle, or one of them ends the text. -/
theorem idle_or_ending (none : tokens ls = []) :
    (∀ line ∈ ls, (Line.ofText line).Idle) ∨ ∀ more, tokens (ls ++ more) = [] := by
  induction ls with
  | nil => exact .inl fun _ mem => absurd mem List.not_mem_nil
  | cons line ls ih =>
    simp only [List.cons_append, tokens] at none ⊢
    cases kind : Line.ofText line with
    | ending => exact .inr fun more => rfl
    | skipped =>
      simp only [kind] at none
      exact (ih none).imp_left fun idle => List.forall_mem_cons.mpr ⟨.inl kind, idle⟩
    | clauses ns =>
      simp only [kind, List.append_eq_nil_iff] at none
      obtain ⟨rfl, none⟩ := none
      exact (ih none).imp_left fun idle => List.forall_mem_cons.mpr ⟨.inr kind, idle⟩

theorem group_eq_nil (empty : group pending ns = []) : pending = [] ∧ ns = [] := by
  induction ns generalizing pending with
  | nil =>
    rw [group] at empty
    split at empty
    · exact ⟨List.isEmpty_iff.mp ‹_›, rfl⟩
    · contradiction
  | cons n ns ih =>
    rw [group] at empty
    split at empty
    · contradiction
    · exact absurd (ih empty).1 (List.append_ne_nil_of_right_ne_nil pending (List.cons_ne_nil n []))

theorem tokens_eq_nil (empty : parse text = .ok []) : tokens (Text.lines text) = [] := by
  obtain ⟨ns, values, grouped⟩ := exists_values_of_parse empty
  obtain rfl := (group_eq_nil grouped).2
  cases found : tokens (Text.lines text) with
  | nil => rfl
  | cons numeral rest =>
    rw [found, List.mapM_cons] at values
    obtain ⟨_, _, values⟩ := exists_of_bind values
    obtain ⟨_, _, values⟩ := exists_of_bind values
    cases values

/-- Whatever the comment and wherever it is put, the text is read as without it, if and only if the
lines behind the comment's first line are idle; a comment without line ends has none. -/
theorem comment_unread_iff (s : List Char) :
    ((∀ front back, WholeLines front → parse (front ++ comment s ++ back) = parse (front ++ back)) ↔
      ∀ line ∈ (Text.lines (comment s)).tail, (Line.ofText line).Idle) ∧
    ((∀ c ∈ s, Text.isLineEnd c = false) → (Text.lines (comment s)).tail = []) := by
  obtain ⟨rest, cut⟩ := exists_lines_comment s
  have whole : WholeLines (comment s) := .inr ⟨'c' :: s, rfl⟩
  refine ⟨⟨fun unread => ?_, fun idle front back wholeLines => ?_⟩, fun closed => ?_⟩
  · have alone : parse (comment s) = .ok [] := by
      have same := unread [] [] (.inl rfl)
      rwa [List.append_nil, List.append_nil, List.nil_append] at same
    have none := tokens_eq_nil alone
    rw [cut, tokens, ofText_comment] at none
    refine (idle_or_ending none).resolve_right fun ends => ?_
    -- behind such a comment a text that holds a clause would be read as empty
    have one : parse ['1', ' ', '0', '\n'] = .ok [[1]] := by decide +kernel
    have same := unread [] ['1', ' ', '0', '\n'] (.inl rfl)
    rw [List.nil_append, List.nil_append, one, parse, lines_append whole, cut, List.cons_append,
      tokens, ofText_comment] at same
    simp only [ends] at same
    contradiction
  · have idleLines : ∀ line ∈ Text.lines (comment s), (Line.ofText line).Idle := by
      rw [cut]
      exact List.forall_mem_cons.mpr ⟨.inl (ofText_comment rest), idle⟩
    rw [parse, parse, List.append_assoc, lines_append wholeLines, lines_append whole,
      ← List.append_assoc, tokens_insert idleLines, ← lines_append wholeLines]
  · rw [lines_comment closed, List.tail_cons]

/-- What follows a vertical tab in a comment is read. -/
theorem comment_read_behind_verticalTab :
    '\n' ∉ ['\x0b', '2', ' ', '0'] ∧ '\r' ∉ ['\x0b', '2', ' ', '0'] ∧
      parse ['1', ' ', '0', '\n'] = .ok [[1]] ∧
      parse (comment ['\x0b', '2', ' ', '0'] ++ ['1', ' ', '0', '\n']) = .ok [[2], [1]] := by
  decide +kernel

end Dimacs

end Backjump
