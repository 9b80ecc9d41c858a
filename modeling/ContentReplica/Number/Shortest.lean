import ContentReplica.Number.Double

/-!
# Shortest decimal digits

`Double.shortest x` is the decimal `digits * 10 ^ exponent` with the fewest digits that rounds to
the magnitude of `x`, and of those the one nearest to it. A number rounds to `x` when it lies in
`x`'s rounding interval, whose ends belong to it exactly when the mantissa is even.

The search goes through the decimal grids with 1, 2, … 17 digits. On each only the two neighbours
of the value can be nearest, so two tests settle a grid, and the first grid with a hit wins.
-/

namespace ContentReplica

/-- A decimal number `digits * 10 ^ exponent`. -/
structure Decimal where
  digits : Nat
  exponent : Int
  deriving DecidableEq

namespace Decimal

/-- Numerator and denominator of `n * 10 ^ exponent`. -/
def fraction (n : Nat) (exponent : Int) : Nat × Nat :=
  if 0 ≤ exponent then (n * Nat.pow 10 exponent.toNat, 1)
  else (n, Nat.pow 10 (-exponent).toNat)

/-- The digits as characters, most significant first. -/
def digitChars (d : Decimal) : List Char := Nat.toDigits 10 d.digits

/-- Move trailing zeros of the digits into the exponent. -/
def normalize (d : Decimal) : Decimal := go 20 d
where
  go : Nat → Decimal → Decimal
    | 0, d => d
    | fuel + 1, d =>
      if d.digits ≠ 0 ∧ d.digits % 10 = 0 then go fuel ⟨d.digits / 10, d.exponent + 1⟩ else d

end Decimal

namespace Double

/-- The ends of the rounding interval, in quarter units of 2^-1074. Below the smallest number of a
binade the next number is only half as far. -/
def interval (x : Double) : Nat × Nat :=
  let below := if x.mantissa = Nat.pow 2 52 ∧ 0 < x.exponent then 1 else 2
  ((4 * x.mantissa - below) * Nat.pow 2 x.exponent,
    (4 * x.mantissa + 2) * Nat.pow 2 x.exponent)

/-- Whether the fraction `num / den` rounds to the magnitude of `x`. -/
def admits (x : Double) (num den : Nat) : Bool :=
  let (lo, hi) := x.interval
  let value := 4 * unit * num
  if x.mantissa % 2 = 0 then lo * den ≤ value && value ≤ hi * den
  else lo * den < value && value < hi * den

/-- The exponent of the first decimal digit of a nonzero magnitude. -/
def leadingExponent (x : Double) : Int :=
  let whole := x.magnitude / unit
  if whole ≠ 0 then (Nat.toDigits 10 whole).length - 1
  else
    match (List.range 325).find? fun k => unit ≤ x.magnitude * Nat.pow 10 k with
    | some k => -(k : Int)
    | none => -325

/-- The hit on the grid of step `10 ^ exponent`: the nearer of the two neighbours of the value that
round to it, the even one of two equally near. -/
def gridHit? (x : Double) (exponent : Int) : Option Decimal :=
  let (stepNum, stepDen) := Decimal.fraction 1 exponent
  -- the value in steps is num / den
  let num := x.magnitude * stepDen
  let den := unit * stepNum
  let low := num / den
  let hits (n : Nat) : Bool :=
    let (a, b) := Decimal.fraction n exponent
    x.admits a b
  match low ≠ 0 && hits low, hits (low + 1) with
  | true, true => some ⟨roundHalfEven num den, exponent⟩
  | true, false => some ⟨low, exponent⟩
  | false, true => some ⟨low + 1, exponent⟩
  | false, false => none

/-- The shortest decimal that rounds to the magnitude of `x`, zero for the two zeros. -/
def shortest (x : Double) : Decimal :=
  if x.isZero then ⟨0, 0⟩
  else
    let lead := x.leadingExponent
    match (List.range 17).findSome? fun (k : Nat) => x.gridHit? (lead - (k : Int)) with
    | some d => d.normalize
    | none => ⟨0, 0⟩

end Double

end ContentReplica
