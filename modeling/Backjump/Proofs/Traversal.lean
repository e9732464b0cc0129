import Mathlib.Data.List.Forall2

/-! Maps over a list of which each step may fail. If every element has an answer,
the map answers all of them in order. -/
namespace Backjump

section Bind

variable {ε : Type u} {α β : Type v} {x : Except ε α} {a : α} {e : ε}

theorem bind_of_ok (answered : x = .ok a) (f : α → Except ε β) : (x >>= f) = f a := by
  rw [answered]
  rfl

theorem bind_of_error (failed : x = .error e) (f : α → Except ε β) : (x >>= f) = .error e := by
  rw [failed]
  rfl

theorem exists_of_bind {f : α → Except ε β} {b : β} (answered : (x >>= f) = .ok b) :
    ∃ a, x = .ok a ∧ f a = .ok b := by
  cases x with
  | error e => contradiction
  | ok a => exact ⟨a, rfl, answered⟩

theorem exists_of_map {f : α → β} {b : β} (answered : x.map f = .ok b) : ∃ a, x = .ok a ∧ f a = b := by
  cases x with
  | error e => contradiction
  | ok a => exact ⟨a, rfl, Except.ok.inj answered⟩

theorem of_mapError {δ : Type w} {f : ε → δ} (answered : x.mapError f = .ok a) : x = .ok a := by
  cases x with
  | error e => contradiction
  | ok b => exact congrArg Except.ok (Except.ok.inj answered)

end Bind

/-- If every result is an answer, they are answers throughout. -/
theorem exists_map_ok {ε : Type u} {α : Type v} {xs : List (Except ε α)}
    (each : ∀ x ∈ xs, ∃ a, x = .ok a) : ∃ as : List α, xs = as.map .ok := by
  induction xs with
  | nil => exact ⟨[], rfl⟩
  | cons x xs ih =>
    obtain ⟨⟨a, rfl⟩, others⟩ := List.forall_mem_cons.mp each
    obtain ⟨as, rfl⟩ := ih others
    exact ⟨a :: as, rfl⟩

variable {α : Type u} {β ε : Type v} {g : α → Except ε β} {as : List α} {bs : List β}

theorem mapM_eq_ok_of_forall₂ (each : List.Forall₂ (fun a b => g a = .ok b) as bs) :
    as.mapM g = .ok bs := by
  induction each with
  | nil => rfl
  | cons head _ ih =>
    rw [List.mapM_cons, head, ih]
    rfl

theorem mapM_eq_ok {h : α → β} (each : ∀ a ∈ as, g a = .ok (h a)) : as.mapM g = .ok (as.map h) := by
  apply mapM_eq_ok_of_forall₂
  rw [List.forall₂_map_right_iff, List.forall₂_same]
  exact each

theorem exists_mapM_eq_ok [Nonempty β] {P : α → β → Prop}
    (each : ∀ a ∈ as, ∃ b, g a = .ok b ∧ P a b) :
    ∃ h : α → β, as.mapM g = .ok (as.map h) ∧ ∀ a ∈ as, P a (h a) := by
  choose! h answered holds using each
  exact ⟨h, mapM_eq_ok answered, holds⟩

theorem forall₂_of_mapM (answered : as.mapM g = .ok bs) : List.Forall₂ (fun a b => g a = .ok b) as bs := by
  induction as generalizing bs with
  | nil =>
    cases answered
    exact .nil
  | cons a as ih =>
    rw [List.mapM_cons] at answered
    obtain ⟨first, head, answered⟩ := exists_of_bind answered
    obtain ⟨others, tail, answered⟩ := exists_of_bind answered
    cases answered
    exact .cons head (ih tail)

/-- Where a map has an answer, every element has one in it. -/
theorem exists_mem_of_mapM (answered : as.mapM g = .ok bs) {a : α} (mem : a ∈ as) :
    ∃ b ∈ bs, g a = .ok b := by
  induction forall₂_of_mapM answered with
  | nil => contradiction
  | @cons a' b as bs head tail ih =>
    rcases List.mem_cons.mp mem with rfl | there
    · exact ⟨b, List.mem_cons_self, head⟩
    · obtain ⟨c, listed, found⟩ := ih (mapM_eq_ok_of_forall₂ tail) there
      exact ⟨c, List.mem_cons_of_mem b listed, found⟩

theorem exists_of_mem_mapM (answered : as.mapM g = .ok bs) {b : β} (mem : b ∈ bs) :
    ∃ a ∈ as, g a = .ok b := by
  induction forall₂_of_mapM answered with
  | nil => contradiction
  | @cons a b' as bs head tail ih =>
    rcases List.mem_cons.mp mem with rfl | there
    · exact ⟨a, List.mem_cons_self, head⟩
    · obtain ⟨c, listed, found⟩ := ih (mapM_eq_ok_of_forall₂ tail) there
      exact ⟨c, List.mem_cons_of_mem a listed, found⟩

end Backjump
