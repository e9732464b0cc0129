import Backjump.Binary64

/-! Numbers as documents hold them: whole ones are exact, all others binary64.
Order and mean are taken exactly, and a mean is rounded once; a sum with a
binary64 number is one. -/
namespace Backjump

inductive Number where
  | whole (n : Int)
  | real (x : Binary64)
  deriving DecidableEq

namespace Number

/-- The nearest binary64 number; a whole number beyond their range has none. -/
def toBinary64? : Number → Option Binary64
  | whole n =>
    match Binary64.ofInt n with
    | .infinite _ => none
    | x => some x
  | real x => some x

/-- The nearest binary64 number, infinite beyond their range. -/
def nearest : Number → Binary64
  | whole n => .ofInt n
  | real x => x

def isNan : Number → Bool
  | whole _ => false
  | real x => x.isNan

/-- The number in units of `2 ^ -1074`, if it is finite. -/
def units? : Number → Option Int
  | whole n => some (n * Binary64.one)
  | real (.finite negative units) => some (Binary64.signedUnits negative units)
  | real _ => none

def lt (a b : Number) : Bool :=
  match a.units?, b.units? with
  | some u, some v => u < v
  | some _, none => match b with
    | real y => (Binary64.finite false 0).lt y
    | whole _ => false
  | none, some _ => match a with
    | real x => x.lt (.finite false 0)
    | whole _ => false
  | none, none => match a, b with
    | real x, real y => x.lt y
    | _, _ => false

def add? (a b : Number) : Option Number :=
  match a, b with
  | whole m, whole n => some (whole (m + n))
  | a, b => do return real ((← a.toBinary64?).add (← b.toBinary64?))

/-- The sum; exact for whole numbers. -/
def plus : Number → Number → Number
  | whole m, whole n => whole (m + n)
  | a, b => real (a.nearest.add b.nearest)

/-- The difference; exact for whole numbers. -/
def minus : Number → Number → Number
  | whole m, whole n => whole (m - n)
  | a, b => real (a.nearest.sub b.nearest)

/-- The first of the least numbers; one that compares with nothing stays if it comes first. -/
def least (first : Number) (rest : List Number) : Number :=
  rest.foldl (fun best n => if n.lt best then n else best) first

/-- The first of the greatest numbers. -/
def greatest (first : Number) (rest : List Number) : Number :=
  rest.foldl (fun best n => if best.lt n then n else best) first

/-- The infinite ones and those that are no number. -/
def special? : Number → Option Binary64
  | real (.finite _ _) => none
  | real x => some x
  | whole _ => none

def isWhole : Number → Bool
  | whole _ => true
  | real _ => false

/-- The quotient of whole numbers, rounded once; one beyond the range of binary64 has none. -/
def quotient? (num den : Int) : Option Number :=
  match Binary64.ofRatio num den with
  | .infinite _ => none
  | x => some (real x)

/-- The exact sum divided by the count. It stays whole where all numbers are and the count
divides their sum, and is rounded otherwise; special numbers outweigh all others. -/
def mean? (first : Number) (rest : List Number) : Option Number :=
  let ns := first :: rest
  match ns.filterMap special? with
  | s :: more => some (real (more.foldl Binary64.add s))
  | [] =>
    let sum := (ns.filterMap units?).foldl Int.add 0
    let count := ns.length * Binary64.one
    if ns.all isWhole && sum % count == 0 then some (whole (sum / count))
    else quotient? sum count

end Number

end Backjump
