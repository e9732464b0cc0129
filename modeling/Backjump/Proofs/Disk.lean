import Backjump.Disk
import Backjump.Proofs.OrderedMap
import Backjump.Proofs.Traversal
import Mathlib.Data.String.Basic

/-! Paths by their characters: lists that can be computed with, where the operations on
texts go by positions. Of a path that leads anywhere, each name but `.` and `..` is
written in the tree. -/
namespace Backjump

open String

/-- The search for slashes after a part `l` that is split and a part `m` that is not yet. -/
theorem splitOnAux_slash (l m r : List Char) (found : List String) :
    splitOnAux (ofList (l ++ m ++ r)) "/" ⟨utf8Len l⟩ ⟨utf8Len l + utf8Len m⟩ 0 found =
      found.reverse ++ (List.splitOnPPrepend (· == '/') r m.reverse).map ofList := by
  have slash : Pos.Raw.get "/" 0 = '/' := by decide
  have next : Pos.Raw.next "/" 0 = ⟨1⟩ := by decide
  have last : Pos.Raw.atEnd "/" ⟨1⟩ = true := by decide
  induction r generalizing l m found with
  | nil =>
    have past := atEnd_of_valid (l ++ m) []
    rw [utf8Len_append] at past
    rw [splitOnAux, if_pos (past.mpr rfl), extract_of_valid]
    simp
  | cons c rest ih =>
    have inside := atEnd_of_valid (l ++ m) (c :: rest)
    have here := get_of_valid (l ++ m) (c :: rest)
    have after := next_of_valid (l ++ m) c rest
    have piece := extract_of_valid l m (c :: rest)
    rw [utf8Len_append] at inside here after
    rw [splitOnAux, if_neg (mt inside.mp (List.cons_ne_nil c rest)), here, slash,
      List.splitOnPPrepend_cons_eq_if, List.headD_cons]
    by_cases same : c = '/'
    · subst same
      have width : Char.utf8Size '/' = 1 := by decide
      have back : (⟨utf8Len l + utf8Len m + 1⟩ : Pos.Raw).unoffsetBy ⟨1⟩ = ⟨utf8Len l + utf8Len m⟩ := by
        simp [Pos.Raw.unoffsetBy]
      have start := ih (l ++ m ++ ['/']) [] (ofList m :: found)
      rw [width] at after
      simp only [beq_self_eq_true, if_true, next, last, after, back, piece]
      simp only [utf8Len_append, utf8Len_cons, utf8Len_nil, width, Nat.zero_add, Nat.add_zero,
        List.append_assoc, List.append_nil, List.singleton_append] at start ⊢
      rw [← Nat.add_assoc, List.reverse_cons, List.append_assoc] at start
      rw [start, List.reverse_reverse]
      rfl
    · have apart : (c == '/') = false := by simpa using same
      have zero : (⟨utf8Len l + utf8Len m⟩ : Pos.Raw).unoffsetBy 0 = ⟨utf8Len l + utf8Len m⟩ := rfl
      have longer := ih l (m ++ [c]) found
      simp only [apart, Bool.false_eq_true, if_false, zero, after]
      simp only [utf8Len_append, utf8Len_cons, utf8Len_nil, Nat.zero_add, List.append_assoc,
        List.reverse_append, List.reverse_singleton, List.singleton_append] at longer ⊢
      rw [← Nat.add_assoc] at longer
      exact longer

theorem splitOn_slash (path : String) :
    path.splitOn "/" = (path.toList.splitOnP (· == '/')).map ofList := by
  have split := splitOnAux_slash [] [] path.toList []
  rw [List.nil_append, List.nil_append, ofList_toList] at split
  exact split

theorem forall_mem_splitOn (a : Char) (text : List Char) : ∀ part ∈ text.splitOn a, a ∉ part := by
  induction text with
  | nil => simp_all
  | cons c text each =>
    obtain ⟨first, others, split⟩ := List.exists_cons_of_ne_nil (List.splitOn_ne_nil a text)
    rw [split, List.forall_mem_cons] at each
    rw [List.splitOn_cons_eq_if_modifyHead, split, List.modifyHead_cons]
    split
    · simpa using each
    · rename_i apart
      rw [List.forall_mem_cons, List.mem_cons, not_or]
      exact ⟨⟨fun same => apart (beq_iff_eq.mpr same.symm), each.1⟩, each.2⟩

namespace Disk

theorem names_eq (path : String) :
    names path = ((path.toList.splitOnP (· == '/')).map ofList).filter (· != "") := by
  rw [names, splitOn_slash]

theorem checkPath_eq (path : String) :
    checkPath path =
      if '\x00' ∈ path.toList then .error .holdsNul
      else if path.isEmpty then .error (.missing path)
      else if pathLimit ≤ path.utf8ByteSize then .error (.nameTooLong path)
      else .ok () := by
  simp only [checkPath, contains_char_eq, decide_eq_true_eq]

variable {d : Disk} {path name : String} {location target rest : List String} {content : ByteArray}

theorem locate_eq (usable : checkPath path = .ok ()) (d : Disk) :
    d.locate path = d.follow path (origin path)
      (names path ++ if path.endsWith "/" then ["."] else []) :=
  bind_of_ok usable _

theorem read_of_mem (located : d.locate path = .ok location)
    (stored : (location, content) ∈ d.files.entries) : d.read path = .ok content := by
  rw [read, bind_of_ok located, OrderedMap.get?_eq_some_iff.mpr stored]
  rfl

/-- A file or a directory is at the location. -/
def Holds (d : Disk) (location : List String) : Prop :=
  location ∈ d.files ∨ d.hasDirectory location = true

theorem follow_append (d : Disk) (path : String) (location front back : List String) :
    d.follow path location (front ++ back) =
      d.follow path location front >>= fun l => d.follow path l back := by
  induction front generalizing location with
  | nil => rfl
  | cons name front ih =>
    simp only [List.cons_append, follow]
    split_ifs
    · rfl
    · rfl
    · exact ih _
    · exact ih _
    · rfl
    · exact ih _

/-- Only what is there can be gone through. -/
theorem holds_of_follow {ns : List String} (followed : d.follow path location ns = .ok target)
    (there : d.Holds target) : d.Holds location := by
  cases ns with
  | nil => rwa [Except.ok.inj followed]
  | cons name rest =>
    rw [follow] at followed
    by_cases file : location ∈ d.files
    · exact .inl file
    · rw [if_neg file] at followed
      by_cases directory : d.hasDirectory location = true
      · exact .inr directory
      · simp [directory] at followed

theorem follow_ordinary (inside : name ≠ "." ∧ name ≠ "..")
    (followed : d.follow path location (name :: rest) = .ok target) :
    d.follow path (location ++ [name]) rest = .ok target := by
  rw [follow, if_neg inside.1, if_neg inside.2] at followed
  split at followed
  · contradiction
  · split at followed
    · contradiction
    · split at followed
      · contradiction
      · exact followed

/-- A name is found at a location if a file lies there or below it, or if it was made. -/
theorem Holds.mem_flatten (holds : d.Holds (location ++ [name])) (ordinary : name ≠ ".." ∧ name ≠ "/") :
    name ∈ (d.files.keys ++ d.made).flatten := by
  have last : name ∈ location ++ [name] := by simp
  rw [List.flatten_append, List.mem_append]
  rcases holds with file | directory
  · exact .inl (List.mem_flatten_of_mem (OrderedMap.mem_iff.mp file) last)
  · simp only [hasDirectory, isOutermost, Bool.or_eq_true, decide_eq_true_eq, List.any_eq_true,
      Bool.and_eq_true] at directory
    rcases directory with (outermost | made) | ⟨key, stored, below, -⟩
    · rcases outermost with all | top
      · exact absurd (by simpa using List.all_eq_true.mp all name last) ordinary.1
      · have same := congrArg List.getLast? (beq_iff_eq.mp top)
        exact absurd (by simpa using same) ordinary.2
    · exact .inr (List.mem_flatten_of_mem made last)
    · exact .inl (List.mem_flatten_of_mem stored ((List.isPrefixOf_iff_prefix.mp below).subset last))

theorem mem_flatten_of_isThere (there : d.isThere path = true) (member : name ∈ names path)
    (ordinary : name ≠ "." ∧ name ≠ ".." ∧ name ≠ "/") : name ∈ (d.files.keys ++ d.made).flatten := by
  obtain ⟨front, back, split⟩ := List.append_of_mem member
  rw [isThere] at there
  split at there
  · rename_i target located
    have holds : d.Holds target := by simpa [Holds] using there
    rw [locate] at located
    obtain ⟨_, -, followed⟩ := exists_of_bind located
    rw [split, List.append_assoc, List.cons_append, follow_append] at followed
    obtain ⟨location, -, onward⟩ := exists_of_bind followed
    have beyond := follow_ordinary ⟨ordinary.1, ordinary.2.1⟩ onward
    exact (holds_of_follow beyond holds).mem_flatten ordinary.2
  · contradiction

theorem join_injective (directory : String) : Function.Injective (join directory) := by
  intro a b same
  rw [join, join] at same
  split at same
  · exact String.append_right_inj _ |>.mp same
  · exact String.append_right_inj _ |>.mp same

/-- A path of one name needs no directory above it. -/
theorem makeDirectories_eq {name : String} (split : splitLast path = ("", name)) (some : name ≠ "")
    (d : Disk) : d.makeDirectories path = d.ensureDirectory path := by
  rw [makeDirectories, makeDirectoriesWithin, split]
  simp [some]

end Disk

end Backjump
