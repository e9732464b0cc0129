import Backjump.Benchmark.Row
import Backjump.Proofs.Benchmark.Sheet
import Backjump.Proofs.Binary64
import Backjump.Proofs.Traversal

/-! The row of a sheet. Times and memories in the range of binary64 always have an
average, so a row fails only where an average effort is beyond that range. -/
namespace Backjump.Benchmark

variable {x : Binary64} {xs : List Binary64} {places : Nat} {runs n : Int} {t : Sheet} {f : Field}

namespace Sheet

/-- An average effort is beyond the range of binary64. -/
def Overflows (t : Sheet) (runs : Int) : Prop :=
  ∃ count ∈ [t.decisions, t.conflicts, t.learned], Number.quotient? count runs = none

end Sheet

end Backjump.Benchmark
