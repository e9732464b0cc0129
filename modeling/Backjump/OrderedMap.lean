/-! Finite maps that keep their keys in the order in which they first came.
Writing to a key that is present keeps its place; removing it and writing it
again puts it last. Every table whose order can be seen from outside (an
assignment, the vertices of a graph, the folders of a benchmark) is one of
these. Only the order and the look-up are specified here, not the cost. -/
namespace Backjump

universe u v w

/-- Pairs in order of first insertion, no key twice. -/
structure OrderedMap (κ : Type u) (ν : Type v) where
  entries : List (κ × ν)
  nodup : (entries.map Prod.fst).Nodup
  deriving DecidableEq

namespace OrderedMap

variable {κ : Type u} {ν : Type v}

def empty : OrderedMap κ ν := ⟨[], by simp⟩

instance : Inhabited (OrderedMap κ ν) := ⟨empty⟩

theorem ext {a b : OrderedMap κ ν} (h : a.entries = b.entries) : a = b := by
  cases a; cases b; cases h; rfl

def keys (m : OrderedMap κ ν) : List κ := m.entries.map Prod.fst

def values (m : OrderedMap κ ν) : List ν := m.entries.map Prod.snd

def size (m : OrderedMap κ ν) : Nat := m.entries.length

def isEmpty (m : OrderedMap κ ν) : Bool := m.entries.isEmpty

theorem keys_nodup (m : OrderedMap κ ν) : m.keys.Nodup := m.nodup

/-- Replaces values in place; keys and their order stay. -/
def mapEntries {μ : Type w} (f : κ → ν → μ) (m : OrderedMap κ ν) : OrderedMap κ μ :=
  ⟨m.entries.map fun p => (p.1, f p.1 p.2), by
    simpa [List.map_map, Function.comp_def] using m.nodup⟩

@[simp] theorem keys_mapEntries {μ : Type w} (f : κ → ν → μ) (m : OrderedMap κ ν) :
    (m.mapEntries f).keys = m.keys := by
  simp [mapEntries, keys, List.map_map, Function.comp_def]

/-- Keeps the entries that satisfy `p`, in order. -/
def filter (p : κ → ν → Bool) (m : OrderedMap κ ν) : OrderedMap κ ν :=
  ⟨m.entries.filter fun e => p e.1 e.2,
    m.nodup.sublist (List.Sublist.map _ (List.filter_sublist))⟩

instance : Membership κ (OrderedMap κ ν) := ⟨fun m k => k ∈ m.keys⟩

theorem mem_iff {m : OrderedMap κ ν} {k : κ} : k ∈ m ↔ k ∈ m.keys := Iff.rfl

variable [DecidableEq κ]

def get? (m : OrderedMap κ ν) (k : κ) : Option ν := m.entries.lookup k

def contains (m : OrderedMap κ ν) (k : κ) : Bool := m.keys.contains k

instance (k : κ) (m : OrderedMap κ ν) : Decidable (k ∈ m) :=
  inferInstanceAs (Decidable (k ∈ m.keys))

/-- Changes the value at `k`, if there is one, in place. -/
def adjust (m : OrderedMap κ ν) (k : κ) (f : ν → ν) : OrderedMap κ ν :=
  m.mapEntries fun key value => if key = k then f value else value

@[simp] theorem keys_adjust (m : OrderedMap κ ν) (k : κ) (f : ν → ν) :
    (m.adjust k f).keys = m.keys := keys_mapEntries _ _

/-- Writes a value: in place if the key is present, last otherwise. -/
def insert (m : OrderedMap κ ν) (k : κ) (v : ν) : OrderedMap κ ν :=
  if h : k ∈ m.keys then m.adjust k fun _ => v
  else ⟨m.entries ++ [(k, v)], by
    rw [List.map_append, List.nodup_append]
    exact ⟨m.nodup, by simp, fun a ha b hb hab => h (by simp_all [keys])⟩⟩

def erase (m : OrderedMap κ ν) (k : κ) : OrderedMap κ ν := m.filter fun key _ => key != k

/-- Later pairs override earlier ones at the earlier place. -/
def ofList (pairs : List (κ × ν)) : OrderedMap κ ν :=
  pairs.foldl (fun m p => m.insert p.1 p.2) empty

/-- The same keys with the same values, in whatever order. -/
def sameEntries [DecidableEq ν] (a b : OrderedMap κ ν) : Bool :=
  a.size == b.size && a.entries.all fun p => b.get? p.1 == some p.2

theorem keys_insert_of_mem {m : OrderedMap κ ν} {k : κ} (h : k ∈ m) (v : ν) :
    (m.insert k v).keys = m.keys := by
  simp only [insert, dif_pos (mem_iff.1 h), keys_adjust]

theorem entries_insert_of_not_mem {m : OrderedMap κ ν} {k : κ} (h : k ∉ m) (v : ν) :
    (m.insert k v).entries = m.entries ++ [(k, v)] := by
  simp only [insert, dif_neg (show k ∉ m.keys from h)]

theorem keys_insert_of_not_mem {m : OrderedMap κ ν} {k : κ} (h : k ∉ m) (v : ν) :
    (m.insert k v).keys = m.keys ++ [k] := by
  simp [keys, entries_insert_of_not_mem h v]

end OrderedMap

end Backjump
