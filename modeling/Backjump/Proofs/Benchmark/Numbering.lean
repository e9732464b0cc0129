import Backjump.Benchmark.Table
import Backjump.Proofs.Disk
import Backjump.Proofs.Text.Numeral

/-! Numbers in names. A number is put in front of each extension of a name and
nowhere else, so a name with an extension gets a different name from every
number, and a path gets a different name somewhere along it. -/
namespace Backjump.Benchmark

open Text

/-- What a number is put in front of. -/
def extension : List Char := ['.', 'c', 's', 'v']

/-- What a number looks like in a name. -/
def mark (n : Nat) : List Char := ' ' :: '(' :: (digits n ++ [')'])

/-- A text without extensions in it. -/
def Bare (text : List Char) : Prop := ¬extension <:+: text

/-- `name` is `base` with each extension in it replaced by the number and the extension. -/
def Numbers (base : String) (n : Nat) (name : String) : Prop :=
  ∃ parts, extension.intercalate parts = base.toList ∧ (∀ part ∈ parts, Bare part) ∧
    (mark n ++ extension).intercalate parts = name.toList

section Marking

variable {note part tail text : List Char} {parts : List (List Char)} {c : Char}

theorem markExtensions_extension (note tail : List Char) :
    markExtensions note (extension ++ tail) = note ++ (extension ++ markExtensions note tail) := rfl

theorem markExtensions_cons (other : ¬extension <+: c :: tail) :
    markExtensions note (c :: tail) = c :: markExtensions note tail := by
  rw [markExtensions]
  rintro rest rfl rfl
  exact other ⟨rest, rfl⟩

theorem not_prefix_cons (other : ∀ rest, c = '.' → tail = 'c' :: 's' :: 'v' :: rest → False) :
    ¬extension <+: c :: tail := by
  rintro ⟨rest, same⟩
  obtain ⟨dot, same⟩ := List.cons.inj same
  exact other rest dot.symm same.symm

/-- What begins with no extension does not begin with one after something was put behind it that cannot
go on with one. -/
theorem not_prefix_append (other : ¬extension <+: c :: part) (stops : ∀ d ∈ tail.head?, d ∉ extension.tail) :
    ¬extension <+: c :: (part ++ tail) := by
  rintro ⟨rest, same⟩
  rw [← List.cons_append, List.append_eq_append_iff] at same
  rcases same with ⟨inside, split, -⟩ | ⟨across, split, later⟩
  · exact other ⟨inside, split.symm⟩
  · cases across with
    | nil => exact other ⟨[], by simpa using split⟩
    | cons d more =>
      obtain ⟨-, split⟩ := List.cons.inj split
      have within : d ∈ extension.tail := by simp [extension, split]
      exact stops d (by simp [later]) within

theorem Bare.of_cons (bare : Bare (c :: part)) : Bare part :=
  fun inside => bare (List.infix_cons inside)

theorem bare_nil : Bare [] := by simp [Bare, extension]

theorem markExtensions_append (bare : Bare part) (stops : ∀ d ∈ tail.head?, d ∉ extension.tail) :
    markExtensions note (part ++ tail) = part ++ markExtensions note tail := by
  induction part with
  | nil => rfl
  | cons c part ih =>
    have other : ¬extension <+: c :: part := fun begins => bare begins.isInfix
    rw [List.cons_append, markExtensions_cons (not_prefix_append other stops), ih bare.of_cons,
      List.cons_append]

theorem markExtensions_of_bare (bare : Bare text) : markExtensions note text = text := by
  have whole : markExtensions note (text ++ []) = text ++ markExtensions note [] :=
    markExtensions_append bare (by simp)
  simpa [markExtensions] using whole

theorem markExtensions_intercalate (note : List Char) (bare : ∀ part ∈ parts, Bare part) :
    markExtensions note (extension.intercalate parts) = (note ++ extension).intercalate parts := by
  induction parts with
  | nil => rfl
  | cons part others ih =>
    rw [List.forall_mem_cons] at bare
    cases others with
    | nil => simpa using markExtensions_of_bare bare.1
    | cons next others =>
      rw [List.intercalate_cons_cons, List.intercalate_cons_cons, List.append_assoc,
        markExtensions_append bare.1 (by simp [extension]), markExtensions_extension, ih bare.2]
      simp only [List.append_assoc]

theorem intercalate_cons_append (gap part : List Char) (others : List (List Char)) :
    ∃ tail, ∀ front, gap.intercalate ((front ++ part) :: others) = front ++ (part ++ tail) := by
  cases others with
  | nil => exact ⟨[], by simp⟩
  | cons next others =>
    exact ⟨gap ++ gap.intercalate (next :: others), by simp [List.intercalate_cons_cons]⟩

/-- A text falls into parts between its extensions. -/
theorem exists_parts (text : List Char) :
    ∃ parts, parts ≠ [] ∧ extension.intercalate parts = text ∧ ∀ part ∈ parts, Bare part := by
  fun_induction markExtensions [] text with
  | case1 => exact ⟨[[]], by simp, by simp, by simpa using bare_nil⟩
  | case2 rest ih =>
    obtain ⟨parts, some, rfl, bare⟩ := ih
    obtain ⟨part, others, rfl⟩ := List.exists_cons_of_ne_nil some
    refine ⟨[] :: part :: others, by simp, ?_, by simpa [bare_nil] using bare⟩
    rw [List.intercalate_cons_cons]
    rfl
  | case3 c rest other ih =>
    obtain ⟨parts, some, whole, bare⟩ := ih
    obtain ⟨part, others, rfl⟩ := List.exists_cons_of_ne_nil some
    rw [List.forall_mem_cons] at bare
    obtain ⟨tail, grow⟩ := intercalate_cons_append extension part others
    have whole : part ++ tail = rest := (grow []).symm.trans whole
    refine ⟨(c :: part) :: others, by simp, ?_, ?_⟩
    · rw [← whole]
      exact grow [c]
    · have fresh : Bare (c :: part) := by
        rw [Bare, List.infix_cons_iff, not_or]
        refine ⟨fun begins => not_prefix_cons other ?_, bare.1⟩
        rw [← whole, ← List.cons_append]
        exact begins.trans (List.prefix_append ..)
      exact List.forall_mem_cons.mpr ⟨fresh, bare.2⟩

/-- Around an extension there are two parts at least. -/
theorem exists_two_parts (extended : extension <:+: text) :
    ∃ first second others, extension.intercalate (first :: second :: others) = text ∧
      ∀ part ∈ first :: second :: others, Bare part := by
  obtain ⟨parts, some, rfl, bare⟩ := exists_parts text
  match parts with
  | [] => exact absurd rfl some
  | [part] => exact absurd (by simpa using extended) (bare part (by simp))
  | first :: second :: others => exact ⟨first, second, others, rfl, bare⟩

/-- No extension reaches across a slash. -/
theorem markExtensions_slash (front tail : List Char) :
    markExtensions note (front ++ '/' :: tail) =
      markExtensions note front ++ '/' :: markExtensions note tail := by
  fun_induction markExtensions note front with
  | case1 =>
    rw [List.nil_append, List.nil_append, markExtensions_cons]
    simp [extension]
  | case2 rest ih =>
    refine (congrArg (fun text => note ++ (extension ++ text)) ih).trans ?_
    simp [extension]
  | case3 c rest other ih =>
    have apart : ¬extension <+: c :: (rest ++ '/' :: tail) :=
      not_prefix_append (not_prefix_cons other) (by simp [extension])
    rw [List.cons_append, markExtensions_cons apart, ih, List.cons_append]

/-- Numbering a path numbers its names. -/
theorem markExtensions_names (note : List Char) (names : List (List Char)) :
    markExtensions note (['/'].intercalate names) =
      ['/'].intercalate (names.map (markExtensions note)) := by
  induction names with
  | nil => rfl
  | cons name others ih =>
    cases others with
    | nil => simp
    | cons next others =>
      rw [List.intercalate_cons_cons, List.append_assoc, List.singleton_append, markExtensions_slash, ih]
      simp [List.intercalate_cons_cons]

theorem not_mem_markExtensions {d : Char} (absent : d ∉ note ++ extension) (absent' : d ∉ text) :
    d ∉ markExtensions note text := by
  fun_induction markExtensions note text with
  | case1 => exact absent'
  | case2 rest ih =>
    have later : d ∉ markExtensions note rest :=
      ih fun member => absent' (List.mem_append_right extension member)
    change d ∉ note ++ (extension ++ markExtensions note rest)
    simp only [List.mem_append, not_or] at absent ⊢
    exact ⟨absent.1, absent.2, later⟩
  | case3 c rest other ih =>
    rw [List.mem_cons, not_or] at absent' ⊢
    exact ⟨absent'.1, ih absent'.2⟩

end Marking

variable {base name : String} {n : Nat}

theorem toList_numberedName (base : String) (n : Nat) :
    (numberedName base n).toList = markExtensions (mark n) base.toList := by
  simp [numberedName, mark, numeral]

theorem numbers_iff : Numbers base n name ↔ name = numberedName base n := by
  constructor
  · rintro ⟨parts, split, bare, marked⟩
    apply String.toList_inj.mp
    rw [toList_numberedName, ← split, markExtensions_intercalate _ bare, marked]
  · rintro rfl
    obtain ⟨parts, -, split, bare⟩ := exists_parts base.toList
    refine ⟨parts, split, bare, ?_⟩
    rw [toList_numberedName, ← split, markExtensions_intercalate _ bare]

theorem numberedName_injective (extended : extension <:+: base.toList) :
    Function.Injective (numberedName base) := by
  intro m n same
  obtain ⟨first, second, others, split, bare⟩ := exists_two_parts extended
  have texts := congrArg String.toList same
  rw [toList_numberedName, toList_numberedName, ← split, markExtensions_intercalate _ bare,
    markExtensions_intercalate _ bare, List.intercalate_cons_cons, List.intercalate_cons_cons] at texts
  simp only [mark, List.append_assoc, List.cons_append, List.append_cancel_left_eq, List.cons.injEq,
    true_and] at texts
  exact digits_append_inj (by decide) texts

theorem extended_numberedName (extended : extension <:+: base.toList) (n : Nat) :
    extension <:+: (numberedName base n).toList := by
  obtain ⟨first, second, others, split, bare⟩ := exists_two_parts extended
  rw [toList_numberedName, ← split, markExtensions_intercalate _ bare, List.intercalate_cons_cons]
  exact ⟨first ++ mark n, (mark n ++ extension).intercalate (second :: others), by
    simp only [List.append_assoc]⟩

theorem numberedName_of_bare (bare : Bare base.toList) (n : Nat) : numberedName base n = base := by
  rw [← String.toList_inj, toList_numberedName, markExtensions_of_bare bare]

theorem splitOn_numberedName (base : String) (n : Nat) :
    (numberedName base n).toList.splitOn '/' = (base.toList.splitOn '/').map (markExtensions (mark n)) := by
  have absent : '/' ∉ mark n ++ extension := by
    have none : '/' ∉ digits n := by
      intro member
      obtain ⟨d, small, same⟩ := exists_digitChar_of_mem_digits member
      have others : ∀ d < 10, '/' ≠ digitChar d := by decide
      exact others d small same
    simp [mark, extension, none]
  have whole : ['/'].intercalate (base.toList.splitOn '/') = base.toList := List.intercalate_splitOn _
  have each : ∀ name ∈ (base.toList.splitOn '/').map (markExtensions (mark n)), '/' ∉ name := by
    intro name member
    obtain ⟨name, listed, rfl⟩ := List.mem_map.mp member
    exact not_mem_markExtensions absent (forall_mem_splitOn '/' _ _ listed)
  have some : (base.toList.splitOn '/').map (markExtensions (mark n)) ≠ [] := by
    simp [List.splitOn_ne_nil]
  rw [← List.splitOn_intercalate '/' each some, ← markExtensions_names, whole, toList_numberedName]

/-- A number goes into at least one of the names along a path. -/
theorem exists_numbered_names (extended : extension <:+: base.toList) :
    ∃ name, extension <:+: name.toList ∧ ∀ n, numberedName name n ∈ Disk.names (numberedName base n) := by
  have somewhere : ∃ name ∈ base.toList.splitOn '/', ¬Bare name := by
    by_contra nowhere
    push Not at nowhere
    -- Otherwise all numbers would give the same name.
    have unmarked (n : Nat) : (numberedName base n).toList = base.toList :=
      calc
        _ = ['/'].intercalate ((numberedName base n).toList.splitOn '/') :=
          (List.intercalate_splitOn '/').symm
        _ = ['/'].intercalate (base.toList.splitOn '/') := by
          rw [splitOn_numberedName,
            List.map_congr_left fun name listed => markExtensions_of_bare (nowhere name listed),
            List.map_id']
        _ = base.toList := List.intercalate_splitOn '/'
    have same : numberedName base 0 = numberedName base 1 :=
      String.toList_inj.mp ((unmarked 0).trans (unmarked 1).symm)
    exact absurd (numberedName_injective extended same) (by decide)
  obtain ⟨name, listed, marked⟩ := somewhere
  have marked : extension <:+: (String.ofList name).toList := by simpa [Bare] using marked
  refine ⟨String.ofList name, marked, fun n => ?_⟩
  have found : markExtensions (mark n) name ∈ (numberedName base n).toList.splitOn '/' := by
    rw [splitOn_numberedName]
    exact List.mem_map_of_mem listed
  have named : numberedName (String.ofList name) n = String.ofList (markExtensions (mark n) name) := by
    rw [← String.toList_inj, toList_numberedName, String.toList_ofList, String.toList_ofList]
  have some : numberedName (String.ofList name) n ≠ "" := by
    intro empty
    have inside := extended_numberedName marked n
    rw [empty] at inside
    exact absurd inside (by decide)
  rw [Disk.names_eq, List.mem_filter, named, ← List.splitOn_eq_splitOnP]
  exact ⟨List.mem_map_of_mem found, by simpa [named] using some⟩

end Backjump.Benchmark
