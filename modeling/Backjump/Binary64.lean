/-! Binary64 numbers in exact integer arithmetic. A finite magnitude is a whole
number of units of `2 ^ -1074`, the smallest positive one, so sums, products
and quotients are first taken exactly and then rounded once: to at most 53
significant bits, to the nearest, a tie to the even neighbour. Magnitudes of
`2 ^ 1024` and more are infinite. Exception flags are not modelled. -/
namespace Backjump

-- Powers are the core library's, whatever else is imported.
@[default_instance 20000]
scoped instance natPow : Pow Nat Nat := instPowNat

inductive Binary64 where
  | finite (negative : Bool) (units : Nat)
  | infinite (negative : Bool)
  | nan
  deriving DecidableEq, Inhabited

/-- The quotient rounded to the nearest whole number, a tie to the even one. -/
def roundQuotient (num den : Nat) : Nat :=
  let q := num / den
  let twice := 2 * (num % den)
  if twice < den then q else if den < twice then q + 1 else q + q % 2

namespace Binary64

/-- One, in units. -/
def one : Nat := 2 ^ 1074

/-- The least magnitude, in units, that is infinite. -/
def bound : Nat := 2 ^ 2098

/-- The quotient rounded to at most 53 significant bits. -/
def roundUnits (num den : Nat) : Nat :=
  let excess := (num / den).log2 + 1 - 53
  roundQuotient num (den * 2 ^ excess) * 2 ^ excess

/-- A magnitude given as a quotient of units. -/
def ofQuotient (negative : Bool) (num den : Nat) : Binary64 :=
  let units := roundUnits num den
  if units < bound then finite negative units else infinite negative

/-- The number nearest to a quotient of integers. -/
def ofRatio (num den : Int) : Binary64 :=
  ofQuotient ((num < 0) != (den < 0)) (num.natAbs * one) den.natAbs

def ofInt (n : Int) : Binary64 := ofRatio n 1

/-- The number nearest to `significand * 10 ^ exponent`. Exponents far outside the
range of a number's magnitude give infinity or zero at once. -/
def ofDecimal (negative : Bool) (significand : Nat) (exponent : Int) : Binary64 :=
  if significand = 0 then finite negative 0
  else
    let places := (significand.log2 : Int) / 4 + exponent
    if 400 < places then infinite negative
    else if places + (significand.log2 : Int) < -800 then finite negative 0
    else if 0 ≤ exponent then
      ofQuotient negative (significand * 10 ^ exponent.toNat * one) 1
    else ofQuotient negative (significand * one) (10 ^ (-exponent).toNat)

def isNan : Binary64 → Bool
  | nan => true
  | _ => false

def negate : Binary64 → Binary64
  | finite s u => finite (!s) u
  | infinite s => infinite (!s)
  | nan => nan

/-- The signed number of units. -/
def signedUnits (negative : Bool) (units : Nat) : Int := if negative then -(units : Int) else units

def add : Binary64 → Binary64 → Binary64
  | nan, _ => nan
  | _, nan => nan
  | infinite s, infinite t => if s = t then infinite s else nan
  | infinite s, _ => infinite s
  | _, infinite t => infinite t
  | finite s u, finite t v =>
    let sum := signedUnits s u + signedUnits t v
    if sum = 0 then finite (s && t) 0 else ofQuotient (sum < 0) sum.natAbs 1

def sub (a b : Binary64) : Binary64 := add a b.negate

def mul : Binary64 → Binary64 → Binary64
  | nan, _ => nan
  | _, nan => nan
  | infinite s, infinite t => infinite (s != t)
  | infinite s, finite t v => if v = 0 then nan else infinite (s != t)
  | finite s u, infinite t => if u = 0 then nan else infinite (s != t)
  | finite s u, finite t v => ofQuotient (s != t) (u * v) one

def div : Binary64 → Binary64 → Binary64
  | nan, _ => nan
  | _, nan => nan
  | infinite _, infinite _ => nan
  | infinite s, finite t _ => infinite (s != t)
  | finite s _, infinite t => finite (s != t) 0
  | finite s u, finite t v =>
    if v = 0 then if u = 0 then nan else infinite (s != t)
    else ofQuotient (s != t) (u * one) v

/-- The order of numbers; nothing is below or above `nan`, and both zeros are one. -/
def lt : Binary64 → Binary64 → Bool
  | nan, _ => false
  | _, nan => false
  | infinite s, infinite t => s && !t
  | infinite s, finite _ _ => s
  | finite _ _, infinite t => !t
  | finite s u, finite t v => signedUnits s u < signedUnits t v

/-- Equality of numbers: `nan` differs from itself, both zeros are one. -/
def equal (a b : Binary64) : Bool := !a.isNan && !b.isNan && !lt a b && !lt b a

/-- The magnitude's encoding: exponent and fraction fields. -/
def magnitudeBits (units : Nat) : Nat :=
  if units < 2 ^ 52 then units
  else
    let shift := units.log2 - 52
    (shift + 1) * 2 ^ 52 + (units / 2 ^ shift - 2 ^ 52)

/-- The interchange encoding, 64 bits. -/
def toBits : Binary64 → Nat
  | finite s u => (if s then 2 ^ 63 else 0) + magnitudeBits u
  | infinite s => (if s then 2 ^ 63 else 0) + 0x7ff * 2 ^ 52
  | nan => 0x7ff * 2 ^ 52 + 2 ^ 51

def ofBits (bits : Nat) : Binary64 :=
  let negative := 2 ^ 63 ≤ bits % 2 ^ 64
  let exponent := bits / 2 ^ 52 % 2 ^ 11
  let fraction := bits % 2 ^ 52
  if exponent = 0x7ff then if fraction = 0 then infinite negative else nan
  else if exponent = 0 then finite negative fraction
  else finite negative ((2 ^ 52 + fraction) * 2 ^ (exponent - 1))

/-- The nearest whole number in the direction of zero, for finite numbers. -/
def truncate? : Binary64 → Option Int
  | finite s u => some (signedUnits s (u / one))
  | _ => none

end Binary64

end Backjump
