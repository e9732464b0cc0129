import Backjump.Benchmark
import Backjump.Proofs.Benchmark.Numbering
import Mathlib.Data.Finset.Card
import Mathlib.Order.Interval.Finset.Nat

/-! Names for tables, by the search that finds them: it goes from number to number
for as long as names are taken, and nothing in it says when to stop. As all
numbers give a name with an extension different names, the search ends wherever
only finitely many are taken, and ends at the least number that is free. -/
namespace Backjump.Benchmark

/-- The search from a number on: it ends at a number whose name is free, and goes on from one whose name
is taken. -/
inductive Searches (taken : String → Bool) (base : String) : Nat → String → Prop where
  | ends {n} (free : taken (numberedName base n) = false) :
      Searches taken base n (numberedName base n)
  | goesOn {n path} (held : taken (numberedName base n) = true)
      (onward : Searches taken base (n + 1) path) : Searches taken base n path

/-- How a name for a table is found: the name itself if it is free, otherwise by the search from 1 on. -/
inductive Finds (taken : String → Bool) (base : String) : String → Prop where
  | unnumbered (free : taken base = false) : Finds taken base base
  | numbered {path} (held : taken base = true) (search : Searches taken base 1 path) :
      Finds taken base path

/-- The least free number that is not below `n`. -/
structure LeastFree (taken : String → Bool) (base : String) (n k : Nat) : Prop where
  reached : n ≤ k
  free : taken (numberedName base k) = false
  held : ∀ j, n ≤ j → j < k → taken (numberedName base j) = true

/-- `path` is `base` if that is free, otherwise `base` with the least number that gives a free name. -/
structure IsFirstFree (taken : String → Bool) (base path : String) : Prop where
  free : taken path = false
  unnumbered : taken base = false → path = base
  numbered : taken base = true → ∃ k, 1 ≤ k ∧ Numbers base k path ∧
    ∀ j name, 1 ≤ j → j < k → Numbers base j name → taken name = true

variable {base path : String} {m n k limit : Nat} {taken : String → Bool}

namespace LeastFree

theorem le (first : LeastFree taken base n k) (reached : n ≤ m)
    (free : taken (numberedName base m) = false) : k ≤ m := by
  by_contra later
  have held := first.held m reached (by omega)
  simp [free] at held

theorem unique (first : LeastFree taken base n k) (other : LeastFree taken base n m) : k = m :=
  Nat.le_antisymm (first.le other.reached other.free) (other.le first.reached first.free)

end LeastFree

/-- The search ends at the first free number and does not end without one. -/
theorem searches_iff :
    Searches taken base n path ↔ ∃ k, LeastFree taken base n k ∧ path = numberedName base k := by
  constructor
  · intro search
    induction search with
    | ends free => exact ⟨_, ⟨Nat.le_refl _, free, by omega⟩, rfl⟩
    | goesOn held _ ih =>
      obtain ⟨k, first, rfl⟩ := ih
      refine ⟨k, ⟨Nat.le_of_succ_le first.reached, first.free, fun j from_ below => ?_⟩, rfl⟩
      rcases Nat.eq_or_lt_of_le from_ with rfl | later
      · exact held
      · exact first.held j later below
  · rintro ⟨k, ⟨reached, free, held⟩, rfl⟩
    -- The rounds that are left decide how long the search still goes on.
    obtain ⟨rounds, rfl⟩ := Nat.exists_eq_add_of_le reached
    induction rounds generalizing n with
    | zero => exact .ends free
    | succ rounds ih =>
      have next : n + (rounds + 1) = n + 1 + rounds := by omega
      rw [next] at free held ⊢
      exact .goesOn (held n (by omega) (by omega))
        (ih (by omega) free fun j from_ below => held j (by omega) below)

theorem exists_leastFree (free : ∃ k, n ≤ k ∧ taken (numberedName base k) = false) :
    ∃ k, LeastFree taken base n k := by
  obtain ⟨reached, free'⟩ := Nat.find_spec free
  refine ⟨Nat.find free, reached, free', fun j from_ below => ?_⟩
  have held := Nat.find_min free below
  simpa [from_] using held

/-- Looking at enough numbers is as good as searching. -/
theorem firstFreeName_eq (first : LeastFree taken base 1 k) (enough : k ≤ limit + 1)
    (held : taken base = true) : firstFreeName taken limit base = numberedName base k := by
  rw [firstFreeName, if_pos held]
  dsimp only
  by_cases inside : k ≤ limit
  · have found : (List.range' 1 limit).find? (fun n => !taken (numberedName base n)) = some k := by
      rw [List.find?_range'_eq_some]
      refine ⟨by simp [first.free], ?_, fun j from_ below => by simp [first.held j from_ below]⟩
      rw [List.mem_range'_1]
      exact ⟨first.reached, by omega⟩
    rw [found, Option.getD_some]
  · have none : (List.range' 1 limit).find? (fun n => !taken (numberedName base n)) = none := by
      rw [List.find?_eq_none]
      intro j member
      rw [List.mem_range'_1] at member
      simp [first.held j member.1 (by omega)]
    rw [none, Option.getD_none, Nat.le_antisymm enough (by omega)]

/-- Where one of the numbers looked at gives a free name, this is where the search ends. -/
theorem finds_iff (free : ∃ k, 1 ≤ k ∧ k ≤ limit + 1 ∧ taken (numberedName base k) = false) :
    Finds taken base path ↔ path = firstFreeName taken limit base := by
  cases known : taken base with
  | false =>
    rw [firstFreeName, known, if_neg Bool.false_ne_true]
    constructor
    · intro found
      cases found with
      | unnumbered => rfl
      | numbered held => simp [known] at held
    · rintro rfl
      exact .unnumbered known
  | true =>
    obtain ⟨m, positive, bound, free⟩ := free
    obtain ⟨k, first⟩ := exists_leastFree ⟨m, positive, free⟩
    rw [firstFreeName_eq first ((first.le positive free).trans bound) known]
    constructor
    · intro found
      cases found with
      | unnumbered free => simp [known] at free
      | numbered _ search =>
        obtain ⟨j, other, rfl⟩ := searches_iff.mp search
        rw [other.unique first]
    · rintro rfl
      exact .numbered known (searches_iff.mpr ⟨k, first, rfl⟩)

/-- A name without extensions that is taken sends the search on for good. -/
theorem not_finds_of_bare (bare : Bare base.toList) (held : taken base = true) :
    ¬Finds taken base path := by
  intro found
  cases found with
  | unnumbered free => simp [held] at free
  | numbered _ search =>
    obtain ⟨k, least, rfl⟩ := searches_iff.mp search
    have free := least.free
    rw [numberedName_of_bare bare] at free
    simp [held] at free

/-- Among one more number than there are names, one is free. -/
theorem exists_free (extended : extension <:+: base.toList) (existing : Finset String) :
    ∃ k, 1 ≤ k ∧ k ≤ existing.card + 1 ∧ numberedName base k ∉ existing := by
  have more : existing.card < ((Finset.Icc 1 (existing.card + 1)).image (numberedName base)).card := by
    rw [Finset.card_image_of_injective _ (numberedName_injective extended), Nat.card_Icc]
    omega
  obtain ⟨name, candidate, free⟩ := Finset.exists_mem_notMem_of_card_lt_card more
  obtain ⟨k, range, rfl⟩ := Finset.mem_image.mp candidate
  rw [Finset.mem_Icc] at range
  exact ⟨k, range.1, range.2, free⟩

/-- A tree has places for fewer numbered names than it writes names. -/
theorem exists_free_on_disk (extended : extension <:+: base.toList) (d : Disk) :
    ∃ k, 1 ≤ k ∧ k ≤ (d.files.keys ++ d.made).flatten.length + 1 ∧
      d.isThere (numberedName base k) = false := by
  obtain ⟨name, marked, along⟩ := exists_numbered_names extended
  obtain ⟨k, positive, bound, absent⟩ := exists_free marked (d.files.keys ++ d.made).flatten.toFinset
  rw [List.mem_toFinset] at absent
  have fewer := List.toFinset_card_le (d.files.keys ++ d.made).flatten
  refine ⟨k, positive, by omega, Bool.eq_false_iff.mpr fun there => absent ?_⟩
  have ordinary : ∀ other ∈ [".", "..", "/"], numberedName name k ≠ other := by
    intro other listed same
    have inside := extended_numberedName marked k
    have bare : ∀ other ∈ [".", "..", "/"], ¬extension <:+: other.toList := by decide
    exact bare other listed (same ▸ inside)
  exact Disk.mem_flatten_of_isThere there (along k)
    ⟨ordinary "." (by simp), ordinary ".." (by simp), ordinary "/" (by simp)⟩

theorem Finds.isFirstFree (found : Finds taken base path) : IsFirstFree taken base path := by
  cases found with
  | unnumbered free =>
    exact ⟨free, fun _ => rfl, fun held => by simp [free] at held⟩
  | numbered held search =>
    obtain ⟨k, least, rfl⟩ := searches_iff.mp search
    refine ⟨least.free, fun free => by simp [free] at held, fun _ => ?_⟩
    refine ⟨k, least.reached, numbers_iff.mpr rfl, fun j name from_ below numbers => ?_⟩
    rw [numbers_iff.mp numbers]
    exact least.held j from_ below

/-- Whatever finitely many names are taken, the search for a name ends, at one path only: the given name
if it is free, otherwise the one with the least number that gives a free name. To look at as many
numbers as names are taken is enough, and on every disk this is how a table gets its path. -/
theorem name_search_ends_at_first_free (base : String) (extended : ".csv".toList <:+: base.toList) :
    (∀ existing : Finset String, ∃ path, path ∉ existing ∧
      (∀ path', Finds (· ∈ existing) base path' ↔ path' = path) ∧
      IsFirstFree (· ∈ existing) base path ∧
      ∀ limit, existing.card ≤ limit → firstFreeName (· ∈ existing) limit base = path) ∧
    ∀ d : Disk, (∀ path, Finds d.isThere base path ↔ path = newTablePath d base) ∧
      IsFirstFree d.isThere base (newTablePath d base) := by
  refine ⟨fun existing => ?_, fun d => ?_⟩
  · obtain ⟨k, positive, bound, free⟩ := exists_free extended existing
    have ends (limit : Nat) (enough : existing.card ≤ limit) (path : String) :
        Finds (· ∈ existing) base path ↔ path = firstFreeName (· ∈ existing) limit base :=
      finds_iff ⟨k, positive, by omega, decide_eq_false free⟩
    have found := (ends existing.card (Nat.le_refl _) _).mpr rfl
    exact ⟨_, of_decide_eq_false found.isFirstFree.free, ends existing.card (Nat.le_refl _),
      found.isFirstFree, fun limit enough => ((ends limit enough _).mp found).symm⟩
  · have ends (path : String) : Finds d.isThere base path ↔ path = newTablePath d base :=
      finds_iff (exists_free_on_disk extended d)
    exact ⟨ends, ((ends _).mpr rfl).isFirstFree⟩

/-- The number goes in front of both extensions, and the first one is taken too. -/
theorem name_search_ends_at_first_free_of_doubled :
    ".csv".toList <:+: "a.csv.csv".toList ∧
      ∀ path, Finds (· ∈ ({"a.csv.csv", "a (1).csv (1).csv"} : Finset String)) "a.csv.csv" path ↔
        path = "a (2).csv (2).csv" := by
  have extended : ".csv".toList <:+: "a.csv.csv".toList := by decide
  refine ⟨extended, ?_⟩
  obtain ⟨path, -, ends, -, looked⟩ := (name_search_ends_at_first_free "a.csv.csv" extended).1
    {"a.csv.csv", "a (1).csv (1).csv"}
  have found : firstFreeName (· ∈ ({"a.csv.csv", "a (1).csv (1).csv"} : Finset String)) 2 "a.csv.csv" =
      "a (2).csv (2).csv" := by
    decide +kernel
  rwa [← found, looked 2 (by decide)]

end Backjump.Benchmark
