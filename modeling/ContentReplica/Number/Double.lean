/-!
# Finite binary64 numbers

`Double` is a finite binary64 number, kept as a sign, a mantissa below 2^53 and an exponent counted
from the smallest one, so that its magnitude is `mantissa * 2 ^ exponent` in units of 2^-1074.
All arithmetic is exact on natural numbers and rounded once (`Double.nearest?`), to the nearest
number and of two equally near to the one with the even mantissa. There are no infinities and no
NaN: what would be one has no result.

Comparison is by the signed magnitude (`Double.scaled`), an integer, so it is total; the two zeros
compare equal and differ only in their sign.
-/

namespace ContentReplica

/-- The canonical pairs of mantissa and exponent: the mantissa has all 53 bits unless the exponent
is the smallest. -/
def Double.Canonical (mantissa exponent : Nat) : Prop :=
  mantissa < Nat.pow 2 53 ∧ exponent ≤ 2045 ∧ (exponent = 0 ∨ Nat.pow 2 52 ≤ mantissa)

instance (m e : Nat) : Decidable (Double.Canonical m e) :=
  inferInstanceAs (Decidable (_ ∧ _))

/-- A finite binary64 number, `± mantissa * 2 ^ exponent` in units of 2^-1074. -/
structure Double where
  negative : Bool
  mantissa : Nat
  exponent : Nat
  canonical : Double.Canonical mantissa exponent
  deriving DecidableEq

namespace Double

/-- Positive zero. -/
def zero : Double := ⟨false, 0, 0, by decide⟩

instance : Inhabited Double := ⟨zero⟩

/-- The unit in which magnitudes are counted, as the denominator of a fraction. -/
def unit : Nat := Nat.pow 2 1074

/-- The absolute value in units of 2^-1074. -/
def magnitude (x : Double) : Nat := x.mantissa * Nat.pow 2 x.exponent

/-- The signed value in units of 2^-1074. -/
def scaled (x : Double) : Int := if x.negative then -(x.magnitude : Int) else x.magnitude

/-- The same number with the opposite sign. -/
def neg (x : Double) : Double := { x with negative := !x.negative }

/-- The same magnitude under the given sign. -/
def withSign (negative : Bool) (x : Double) : Double := { x with negative := negative }

/-- Whether the number is one of the two zeros. -/
def isZero (x : Double) : Bool := x.mantissa == 0

/-- The order of the represented values. -/
def order (x y : Double) : Ordering := compare x.scaled y.scaled

/-- Whether two numbers represent one value; the two zeros do. -/
def same (x y : Double) : Bool := x.scaled == y.scaled

/-! ## Rounding -/

/-- The quotient rounded to the nearest integer, a half to the even neighbour. -/
def roundHalfEven (num den : Nat) : Nat :=
  let q := num / den
  let r := num % den
  if 2 * r < den then q
  else if den < 2 * r then q + 1
  else if q % 2 = 0 then q
  else q + 1

/-- The number with a mantissa and an exponent, `none` if they are not canonical. -/
def ofParts? (mantissa exponent : Nat) : Option Double :=
  if h : Canonical mantissa exponent then some ⟨false, mantissa, exponent, h⟩ else none

/-- The number nearest to `num / den`, `none` beyond the largest finite one. -/
def nearest? (num den : Nat) : Option Double :=
  let scaled := num * unit
  let exponent := ((scaled / den).log2 + 1) - 53
  let mantissa := roundHalfEven scaled (den * Nat.pow 2 exponent)
  if mantissa = Nat.pow 2 53 then ofParts? (Nat.pow 2 52) (exponent + 1)
  else ofParts? mantissa exponent

/-- The number nearest to an integer, `none` beyond the largest finite one. -/
def ofInt? (n : Int) : Option Double :=
  (nearest? n.natAbs 1).map (withSign (n < 0))

/-- The number nearest to an integer of at most 64 bits. -/
def ofInt (n : Int) : Double := (ofInt? n).getD zero

/-- The nearest number to the product of the magnitudes. -/
def mul? (x y : Double) : Option Double :=
  (nearest? (x.magnitude * y.magnitude) (unit * unit)).map (withSign (x.negative != y.negative))

/-- The nearest number to the quotient of the magnitudes, for a divisor other than zero. -/
def div? (x y : Double) : Option Double :=
  (nearest? x.magnitude y.magnitude).map (withSign (x.negative != y.negative))

end Double

end ContentReplica
