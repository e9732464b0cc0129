import Backjump.OrderedMap
import Mathlib.Data.List.Nodup

/-! Look-up in ordered maps. A key leads to exactly the value it is paired with,
whatever its place, and the operations are described by what they do to the
list of pairs. -/
namespace Backjump.OrderedMap

variable {κ : Type u} {ν : Type v}

theorem mem_keys_of_mem {m : OrderedMap κ ν} {k : κ} {v : ν} (h : (k, v) ∈ m.entries) :
    k ∈ m.keys :=
  List.mem_map_of_mem h

theorem value_unique {m : OrderedMap κ ν} {k : κ} {v w : ν} (hv : (k, v) ∈ m.entries)
    (hw : (k, w) ∈ m.entries) : v = w :=
  congrArg Prod.snd (List.inj_on_of_nodup_map m.nodup hv hw rfl)

theorem entries_mapEntries {μ : Type w} (f : κ → ν → μ) (m : OrderedMap κ ν) :
    (m.mapEntries f).entries = m.entries.map fun p => (p.1, f p.1 p.2) := rfl

variable [DecidableEq κ]

theorem get?_eq_some_iff {m : OrderedMap κ ν} {k : κ} {v : ν} :
    m.get? k = some v ↔ (k, v) ∈ m.entries := by
  constructor
  · intro found
    obtain ⟨before, after, split, _⟩ := List.lookup_eq_some_iff.mp found
    simp [split]
  · intro member
    cases found : m.get? k with
    | none =>
      have absent := List.lookup_eq_none_iff.mp found (k, v) member
      simp at absent
    | some w =>
      obtain ⟨before, after, split, _⟩ := List.lookup_eq_some_iff.mp found
      have paired : (k, w) ∈ m.entries := by simp [split]
      rw [value_unique paired member]

theorem get?_eq_none_iff {m : OrderedMap κ ν} {k : κ} : m.get? k = none ↔ k ∉ m.keys := by
  constructor
  · intro missing member
    obtain ⟨⟨key, v⟩, paired, rfl⟩ := List.mem_map.mp member
    rw [get?_eq_some_iff.mpr paired] at missing
    contradiction
  · intro absent
    cases found : m.get? k with
    | none => rfl
    | some v => exact absurd (mem_keys_of_mem (get?_eq_some_iff.mp found)) absent

theorem entries_adjust (m : OrderedMap κ ν) (k : κ) (f : ν → ν) :
    (m.adjust k f).entries = m.entries.map fun p => (p.1, if p.1 = k then f p.2 else p.2) := rfl

theorem entries_erase (m : OrderedMap κ ν) (k : κ) :
    (m.erase k).entries = m.entries.filter fun p => p.1 ≠ k := by
  rw [erase, OrderedMap.filter]
  apply List.filter_congr
  intro p _
  by_cases here : p.1 = k <;> simp [here]

/-- Erasing the last pair leaves the pairs before it. -/
theorem entries_erase_last {m : OrderedMap κ ν} {before : List (κ × ν)} {k : κ} {v : ν}
    (h : m.entries = before ++ [(k, v)]) : (m.erase k).entries = before := by
  have distinct := m.nodup
  rw [h, List.map_append, List.nodup_append] at distinct
  rw [entries_erase, h, List.filter_append, List.filter_eq_self.mpr]
  · simp
  · intro p member
    have differs := distinct.2.2 p.1 (List.mem_map_of_mem member) k (by simp)
    simpa using differs

theorem entries_foldl_insert (pairs : List (κ × ν)) (m : OrderedMap κ ν)
    (distinct : (m.keys ++ pairs.map Prod.fst).Nodup) :
    (pairs.foldl (fun m p => m.insert p.1 p.2) m).entries = m.entries ++ pairs := by
  induction pairs generalizing m with
  | nil => simp
  | cons p rest ih =>
    have fresh : p.1 ∉ m := by
      rw [List.nodup_append] at distinct
      exact fun member => distinct.2.2 p.1 member p.1 (by simp) rfl
    rw [List.foldl_cons, ih, entries_insert_of_not_mem fresh]
    · simp
    · rw [keys_insert_of_not_mem fresh]
      simpa using distinct

theorem entries_ofList {pairs : List (κ × ν)} (distinct : (pairs.map Prod.fst).Nodup) :
    (ofList pairs).entries = pairs := by
  rw [ofList, entries_foldl_insert _ _ (by simpa [empty, keys] using distinct)]
  rfl

theorem ofList_entries (m : OrderedMap κ ν) : ofList m.entries = m :=
  ext (entries_ofList m.nodup)

theorem entries_insert_of_mem {m : OrderedMap κ ν} {k : κ} (h : k ∈ m) (v : ν) :
    (m.insert k v).entries = m.entries.map fun p => (p.1, if p.1 = k then v else p.2) := by
  rw [insert, dif_pos (mem_iff.mp h), entries_adjust]

theorem mem_entries_insert {m : OrderedMap κ ν} {k key : κ} {v w : ν} :
    (key, w) ∈ (m.insert k v).entries ↔ key = k ∧ w = v ∨ key ≠ k ∧ (key, w) ∈ m.entries := by
  by_cases here : k ∈ m
  · obtain ⟨⟨key', old⟩, paired, rfl⟩ := List.mem_map.mp here
    rw [entries_insert_of_mem here, List.mem_map]
    constructor
    · rintro ⟨p, member, same⟩
      cases same
      by_cases there : p.1 = key'
      · exact .inl ⟨there, if_pos there⟩
      · refine .inr ⟨there, ?_⟩
        rwa [if_neg there]
    · rintro (⟨rfl, rfl⟩ | ⟨differs, member⟩)
      · exact ⟨_, paired, by simp⟩
      · exact ⟨_, member, by simp [differs]⟩
  · rw [entries_insert_of_not_mem here, List.mem_append, List.mem_singleton, Prod.mk.injEq, or_comm]
    refine or_congr_right ⟨fun member => ⟨?_, member⟩, And.right⟩
    rintro rfl
    exact here (mem_keys_of_mem member)

theorem get?_insert_self (m : OrderedMap κ ν) (k : κ) (v : ν) : (m.insert k v).get? k = some v :=
  get?_eq_some_iff.mpr (mem_entries_insert.mpr (.inl ⟨rfl, rfl⟩))

theorem get?_insert_of_ne (m : OrderedMap κ ν) {k key : κ} (differs : key ≠ k) (v : ν) :
    (m.insert k v).get? key = m.get? key := by
  ext w
  rw [get?_eq_some_iff, get?_eq_some_iff, mem_entries_insert]
  simp [differs]

theorem mem_insert {m : OrderedMap κ ν} {k key : κ} {v : ν} :
    key ∈ m.insert k v ↔ key = k ∨ key ∈ m := by
  rw [mem_iff]
  by_cases here : k ∈ m
  · rw [keys_insert_of_mem here, ← mem_iff]
    exact ⟨.inr, fun h => h.elim (fun same => same ▸ here) id⟩
  · rw [keys_insert_of_not_mem here, List.mem_append, List.mem_singleton, or_comm, ← mem_iff]

theorem map_unless_key {m : OrderedMap κ ν} {k : κ} (h : k ∉ m) (v : ν) :
    (m.entries.map fun p => (p.1, if p.1 = k then v else p.2)) = m.entries := by
  conv_rhs => rw [← List.map_id m.entries]
  apply List.map_congr_left
  intro p member
  have differs : p.1 ≠ k := fun same => h (same ▸ List.mem_map_of_mem member)
  simp [differs]

theorem insert_insert (m : OrderedMap κ ν) (k : κ) (v w : ν) :
    (m.insert k v).insert k w = m.insert k w := by
  apply ext
  rw [entries_insert_of_mem (mem_insert.mpr (.inl rfl))]
  by_cases here : k ∈ m
  · rw [entries_insert_of_mem here, entries_insert_of_mem here, List.map_map]
    apply List.map_congr_left
    intro p _
    by_cases same : p.1 = k <;> simp [same]
  · rw [entries_insert_of_not_mem here, entries_insert_of_not_mem here, List.map_append,
      map_unless_key here]
    simp

theorem get?_mapEntries {μ : Type w} (f : κ → ν → μ) (m : OrderedMap κ ν) (k : κ) :
    (m.mapEntries f).get? k = (m.get? k).map (f k) := by
  ext x
  rw [get?_eq_some_iff, Option.map_eq_some_iff, entries_mapEntries, List.mem_map]
  constructor
  · rintro ⟨⟨key, v⟩, member, same⟩
    cases same
    exact ⟨v, get?_eq_some_iff.mpr member, rfl⟩
  · rintro ⟨v, found, rfl⟩
    exact ⟨(k, v), get?_eq_some_iff.mp found, rfl⟩

theorem mapEntries_insert {μ : Type w} (f : ν → μ) (m : OrderedMap κ ν) (k : κ) (v : ν) :
    (m.insert k v).mapEntries (fun _ => f) = (m.mapEntries fun _ => f).insert k (f v) := by
  apply ext
  rw [entries_mapEntries]
  by_cases here : k ∈ m
  · have there : k ∈ m.mapEntries fun _ => f := by rwa [mem_iff, keys_mapEntries]
    rw [entries_insert_of_mem here, entries_insert_of_mem there, entries_mapEntries, List.map_map,
      List.map_map]
    apply List.map_congr_left
    rintro ⟨key, w⟩ _
    by_cases same : key = k <;> simp [same]
  · have absent : k ∉ m.mapEntries fun _ => f := by rwa [mem_iff, keys_mapEntries]
    rw [entries_insert_of_not_mem here, entries_insert_of_not_mem absent, entries_mapEntries,
      List.map_append]
    rfl

end Backjump.OrderedMap
