import Backjump.Clause
import Mathlib.Data.List.Nodup

/-! Lists without their repeats, the first of each kept. Dropping repeats early,
inside the parts of a list or before a function is applied, does not change
what is left at the end. -/
namespace Backjump

variable {α : Type u} {β : Type v} [DecidableEq α] [DecidableEq β]

theorem eraseDups_filter (p : α → Bool) (xs : List α) :
    (xs.filter p).eraseDups = xs.eraseDups.filter p := by
  induction h : xs.length using Nat.strongRecOn generalizing xs with
  | ind n ih =>
    cases xs with
    | nil => rfl
    | cons x rest =>
      have shorter : (rest.filter fun b => !b == x).length < n := by
        have := List.length_filter_le (fun b => !b == x) rest
        simp only [List.length_cons] at h
        omega
      have tail := ih _ shorter (rest.filter fun b => !b == x) rfl
      rw [List.filter_filter] at tail
      by_cases kept : p x = true
      · rw [List.filter_cons_of_pos kept, List.eraseDups_cons, List.eraseDups_cons,
          List.filter_cons_of_pos kept, ← tail, List.filter_filter]
        simp only [Bool.and_comm]
      · rw [List.filter_cons_of_neg kept, List.eraseDups_cons, List.filter_cons_of_neg kept, ← tail]
        have absent : (rest.filter fun b => p b && !b == x) = rest.filter p := by
          apply List.filter_congr
          intro b _
          by_cases same : b = x
          · subst same; simp [kept]
          · simp [same]
        rw [absent]

theorem eraseDups_map_eraseDups (g : α → β) (xs : List α) :
    (xs.eraseDups.map g).eraseDups = (xs.map g).eraseDups := by
  induction h : xs.length using Nat.strongRecOn generalizing xs with
  | ind n ih =>
    cases xs with
    | nil => rfl
    | cons x rest =>
      let apart := rest.filter fun b => !g b == g x
      have shorter : apart.length < n := by
        have : apart.length ≤ rest.length := List.length_filter_le _ _
        simp only [List.length_cons] at h
        omega
      have tail := ih _ shorter apart rfl
      have image : (rest.map g).filter (fun b => !b == g x) = apart.map g := by
        rw [List.filter_map]; rfl
      have inner : ((rest.filter fun b => !b == x).eraseDups.map g).filter (fun b => !b == g x) =
          apart.eraseDups.map g := by
        rw [List.filter_map, ← eraseDups_filter, List.filter_filter]
        congr 2
        apply List.filter_congr
        intro b _
        by_cases same : b = x
        · simp [same]
        · simp [same]
      rw [List.eraseDups_cons, List.map_cons, List.eraseDups_cons, inner, tail,
        List.map_cons, List.eraseDups_cons, image]

theorem eraseDups_map_of_injective {g : α → β} (injective : Function.Injective g) (xs : List α) :
    (xs.map g).eraseDups = xs.eraseDups.map g := by
  rw [← eraseDups_map_eraseDups]
  exact eraseDups_of_nodup ((nodup_eraseDups xs).map injective)

theorem eraseDups_append_congr {xs xs' ys ys' : List α} (front : xs.eraseDups = xs'.eraseDups)
    (back : ys.eraseDups = ys'.eraseDups) : (xs ++ ys).eraseDups = (xs' ++ ys').eraseDups := by
  have same (zs : List α) : zs.removeAll xs = zs.removeAll xs' := by
    apply List.filter_congr
    intro z _
    have := List.mem_eraseDups (a := z) (l := xs)
    have := List.mem_eraseDups (a := z) (l := xs')
    simp_all
  rw [List.eraseDups_append, List.eraseDups_append, front, same]
  simp only [List.removeAll, eraseDups_filter, back]

end Backjump
