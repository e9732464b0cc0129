import Backjump.Proofs.Benchmark.Folder

/-! Going on from a saved book. A later book keeps what was completed, and what is completed
is not done again. So a part that stops after one of its saves, and is started anew from
the book saved, comes to the same end as without the stop, and saves no other books. Parts
in sequence can be resumed because each of them can. -/
namespace Backjump.Benchmark

/-- The later book has the pages of the earlier one, and its completed sheets. -/
structure Book.Extends (later earlier : Book) : Prop where
  pages : ∀ name ∈ earlier, name ∈ later
  sheets : ∀ (j : Job) (t : Sheet), earlier.sheet? j = some t → t.completed = true →
    later.sheet? j = some t

/-- The part leads from the book to its end, from each book saved on the way to the same
end, and nowhere from a book that goes beyond the end. -/
structure Suite.Resumes (b : Suite) (part : Part) (book : Book) (result : Except Fault Unit)
    (book' : Book) (saved : List Book) : Prop where
  leads : b.Leads part book result book' saved
  restarts : ∀ k ∈ saved, ∃ rest, rest ⊆ saved ∧ b.Leads part k result book' rest
  settled : result = .ok () → ∀ k : Book, k.Extends book' → b.Leads part k (.ok ()) k []
  grows : book'.Extends book
  later : ∀ k ∈ saved, k.Extends book

variable {b : Suite} {part next : Part} {book book' book'' : Book} {saved saved' : List Book}
  {result : Except Fault Unit} {j : Job} {t : Sheet} {strategy : Strategy}

namespace Book

theorem Extends.refl (book : Book) : book.Extends book := ⟨fun _ h => h, fun _ _ h _ => h⟩

theorem Extends.trans (second : book''.Extends book') (first : book'.Extends book) :
    book''.Extends book where
  pages name member := second.pages name (first.pages name member)
  sheets j t here completed := second.sheets j t (first.sheets j t here completed) completed

end Book

namespace Suite

namespace Resumes

theorem refl (b : Suite) (book : Book) : b.Resumes (fun _ s => (.ok (), s)) book (.ok ()) book [] where
  leads := .refl b book
  restarts := by simp
  settled _ k _ := .refl b k
  grows := .refl book
  later := by simp

theorem andThen (first : b.Resumes part book (.ok ()) book' saved)
    (second : b.Resumes next book' result book'' saved') :
    b.Resumes (fun e s => (part e s).andThen fun _ s => next e s) book result book''
      (saved ++ saved') where
  leads := first.leads.andThen second.leads
  restarts k member := by
    obtain early | late := List.mem_append.mp member
    · obtain ⟨rest, among, leads⟩ := first.restarts k early
      have subset := List.append_subset.mpr
        ⟨List.subset_append_of_subset_left saved' among, List.subset_append_right saved saved'⟩
      exact ⟨rest ++ saved', subset, leads.andThen second.leads⟩
    · obtain ⟨rest, among, leads⟩ := second.restarts k late
      -- A book saved by the second part goes beyond the end of the first, which is skipped.
      have skipped := first.settled rfl k (second.later k late)
      exact ⟨rest, List.subset_append_of_subset_right _ among, skipped.andThen leads⟩
  settled succeeds k beyond :=
    (first.settled rfl k (beyond.trans second.grows)).andThen (second.settled succeeds k beyond)
  grows := second.grows.trans first.grows
  later k member := by
    obtain early | late := List.mem_append.mp member
    · exact first.later k early
    · exact (second.later k late).trans first.grows

theorem andThen_error {fault : Fault} (first : b.Resumes part book (.error fault) book' saved)
    (next : Part) :
    b.Resumes (fun e s => (part e s).andThen fun _ s => next e s) book (.error fault) book' saved where
  leads := first.leads.andThen_error next
  restarts k member := by
    obtain ⟨rest, among, leads⟩ := first.restarts k member
    exact ⟨rest, among, leads.andThen_error next⟩
  settled succeeds := by contradiction
  grows := first.grows
  later := first.later

end Resumes

/-- The title of a strategy is printed, and its page is opened. -/
def openPage (strategy : Strategy) : Part := fun _ s =>
  let s := s.print
    ["", "=== " ++ Text.upperCase (labelOf solverName strategy.name) ++ " ==="]
  (.ok (), { s with ledger :=
    s.ledger.putFolders solverName strategy.name (s.ledger.folders solverName strategy.name) })

end Suite

end Backjump.Benchmark
