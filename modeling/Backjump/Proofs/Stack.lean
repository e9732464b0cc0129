import Mathlib.Data.List.Induction

/-! Lists that grow at their end. A property of an element may speak of the
elements before it; it then holds for good, however the list grows or is cut
back to a first part. -/
namespace Backjump

variable {α : Type u} {P Q : List α → α → Prop}

/-- Every element satisfies `P` with the elements before it. -/
def Built (P : List α → α → Prop) (xs : List α) : Prop :=
  ∀ before x after, xs = before ++ x :: after → P before x

namespace Built

theorem nil : Built P [] := by
  intro before x after split
  simp at split

theorem front {xs ys : List α} (built : Built P (xs ++ ys)) : Built P xs := by
  intro before x after split
  exact built before x (after ++ ys) (by simp [split])

theorem last {xs : List α} {x : α} (built : Built P (xs ++ [x])) : P xs x :=
  built xs x [] rfl

theorem snoc {xs : List α} {x : α} (built : Built P xs) (holds : P xs x) : Built P (xs ++ [x]) := by
  intro before y after split
  rcases List.eq_nil_or_concat after with rfl | ⟨rest, z, rfl⟩
  · obtain ⟨rfl, same⟩ := List.append_inj' split rfl
    cases same
    exact holds
  · have front : xs ++ [x] = (before ++ y :: rest) ++ [z] := by simp [split]
    exact built before y rest (List.append_inj' front rfl).1

theorem append {xs ys : List α} (built : Built P xs) (holds : ∀ before, ∀ y ∈ ys, P before y) :
    Built P (xs ++ ys) := by
  induction ys generalizing xs with
  | nil => simpa using built
  | cons y rest ih =>
    rw [List.append_cons]
    exact ih (built.snoc (holds xs y (by simp))) fun before z later =>
      holds before z (List.mem_cons_of_mem _ later)

theorem mono {xs : List α} (built : Built P xs) (weaker : ∀ before x, P before x → Q before x) :
    Built Q xs :=
  fun before x after split => weaker before x (built before x after split)

/-- A fact about single elements that each passes on from those before it. -/
theorem forall_mem {xs : List α} {R : α → Prop} (built : Built P xs)
    (passes : ∀ before x, (∀ y ∈ before, R y) → P before x → R x) : ∀ x ∈ xs, R x := by
  induction xs using List.reverseRecOn with
  | nil => simp
  | append_singleton xs x ih =>
    have earlier := ih built.front
    intro y member
    rcases List.mem_append.mp member with old | new
    · exact earlier y old
    · obtain rfl := List.mem_singleton.mp new
      exact passes xs y earlier built.last

/-- What holds between an element and all before it holds pairwise, here from a place on. -/
theorem pairwise_drop {xs : List α} {R : α → α → Prop} {n : Nat}
    (built : Built (fun before x => n ≤ before.length → ∀ y ∈ before, R y x) xs) :
    (xs.drop n).Pairwise R := by
  induction xs using List.reverseRecOn with
  | nil => simp
  | append_singleton xs x ih =>
    by_cases late : n ≤ xs.length
    · rw [List.drop_append_of_le_length late, List.pairwise_append]
      refine ⟨ih built.front, List.pairwise_singleton .., fun y member z single => ?_⟩
      obtain rfl := List.mem_singleton.mp single
      exact built.last late y (List.mem_of_mem_drop member)
    · rw [List.drop_eq_nil_of_le (by simp; omega)]
      exact .nil

theorem exists_split {xs : List α} (built : Built P xs) {x : α} (member : x ∈ xs) :
    ∃ before after, xs = before ++ x :: after ∧ P before x := by
  obtain ⟨before, after, split⟩ := List.mem_iff_append.mp member
  exact ⟨before, after, split, built before x after split⟩

end Built

end Backjump
