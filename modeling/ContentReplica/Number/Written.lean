import ContentReplica.Number.Shortest

/-!
# Written numbers

Both ways of a number through text. `NumberFormat.write` sets out the shortest digits of a `Double`
as a format says; the two formats in use are `NumberFormat.json` and `NumberFormat.plain`.
`Double.ofDecimal?` reads a decimal correctly rounded. `Double.read?` is the grammar of a number
on its own (`+1`, `.5`, `1e3`), and `readInteger?` that of an integer.
-/

namespace ContentReplica

/-! ## Writing -/

/-- How a number is set out: which exponents of the first digit are written positionally, and
whether a positional number always has a fractional digit. -/
structure NumberFormat where
  /-- Positional notation is used for these exponents of the first digit. -/
  positional : Int → Bool
  /-- A positional number without fractional digits gets `.0`. -/
  keepsFraction : Bool

/-- JSON numbers: positional from 10^-5 up to below 10^16, with at least one fractional digit. -/
def NumberFormat.json : NumberFormat := ⟨fun e => decide (-5 ≤ e) && decide (e ≤ 15), true⟩

/-- Numbers in values sent to the database: always positional, no needless fraction. -/
def NumberFormat.plain : NumberFormat := ⟨fun _ => true, false⟩

namespace NumberFormat

/-- The digits with the decimal point after position `point` of the digits. -/
def positionalChars (f : NumberFormat) (digits : List Char) (point : Int) : List Char :=
  let tail := if f.keepsFraction then ['.', '0'] else []
  if point ≤ 0 then '0' :: '.' :: (List.replicate (-point).toNat '0' ++ digits)
  else
    let n := point.toNat
    if digits.length ≤ n then digits ++ List.replicate (n - digits.length) '0' ++ tail
    else digits.take n ++ '.' :: digits.drop n

/-- One digit, the fraction if there is one, and the signed exponent. -/
def exponentChars (digits : List Char) (lead : Int) : List Char :=
  let mantissa :=
    match digits with
    | [] => []
    | [d] => [d]
    | d :: rest => d :: '.' :: rest
  mantissa ++ 'e' :: (if lead < 0 then '-' else '+') :: Nat.toDigits 10 lead.natAbs

/-- The text of a number. -/
def write (f : NumberFormat) (x : Double) : String :=
  let d := x.shortest
  let digits := d.digitChars
  let body :=
    if x.isZero then if f.keepsFraction then ['0', '.', '0'] else ['0']
    else
      let lead : Int := d.exponent + digits.length - 1
      if f.positional lead then f.positionalChars digits (lead + 1) else exponentChars digits lead
  String.ofList (if x.negative then '-' :: body else body)

end NumberFormat

/-! ## Reading -/

/-- The value of a list of decimal digits. -/
def digitsValue (digits : List Char) : Nat :=
  digits.foldl (fun n c => 10 * n + (c.toNat - '0'.toNat)) 0

/-- Whether a character is an ASCII digit. -/
def isDigitChar (c : Char) : Bool := '0' ≤ c && c ≤ '9'

namespace Double

/-- The number nearest to `digits * 10 ^ exponent`, `none` beyond the largest finite one.
Exponents far outside the range are settled before any power is computed. -/
def ofDecimal? (digits : Nat) (exponent : Int) : Option Double :=
  if digits = 0 then some zero
  else
    let lead : Int := exponent + (Nat.toDigits 10 digits).length - 1
    if 310 < lead then none
    else if lead < -330 then some zero
    else
      let (num, den) := Decimal.fraction digits exponent
      nearest? num den

end Double

/-- The parts of a written decimal. -/
structure DecimalText where
  negative : Bool
  whole : List Char
  fraction : List Char
  exponent : Int

namespace DecimalText

/-- Split off a leading sign; `+` is allowed where `plus` says so. -/
def splitSign (plus : Bool) : List Char → Bool × List Char
  | '-' :: rest => (true, rest)
  | '+' :: rest => if plus then (false, rest) else (false, '+' :: rest)
  | cs => (false, cs)

/-- Read an exponent part up to the end of the text, zero if there is none. -/
def readExponent? : List Char → Option Int
  | [] => some 0
  | c :: rest =>
    if c = 'e' ∨ c = 'E' then
      let (negative, digits) := splitSign true rest
      if digits.isEmpty || !digits.all isDigitChar then none
      else some (if negative then -(digitsValue digits : Int) else digitsValue digits)
    else none

/-- Read a decimal on its own: an optional sign, digits with an optional point among them and at
least one digit, and an optional exponent. -/
def read? (cs : List Char) : Option DecimalText :=
  let (negative, cs) := splitSign true cs
  let whole := cs.takeWhile isDigitChar
  let rest := cs.dropWhile isDigitChar
  let (fraction, rest) :=
    match rest with
    | '.' :: more => (more.takeWhile isDigitChar, more.dropWhile isDigitChar)
    | _ => ([], rest)
  if whole.isEmpty && fraction.isEmpty then none
  else (readExponent? rest).map fun e => ⟨negative, whole, fraction, e⟩

/-- The number nearest to the written decimal, `none` beyond the largest finite one. -/
def toDouble? (t : DecimalText) : Option Double :=
  (Double.ofDecimal? (digitsValue (t.whole ++ t.fraction)) (t.exponent - t.fraction.length)).map
    (Double.withSign t.negative)

end DecimalText

/-- The finite number that a text spells on its own. -/
def Double.read? (s : String) : Option Double :=
  (DecimalText.read? s.toList).bind DecimalText.toDouble?

/-- The integer that a text spells on its own: an optional sign and at least one digit. -/
def readInteger? (s : String) : Option Int :=
  let (negative, digits) := DecimalText.splitSign true s.toList
  if digits.isEmpty || !digits.all isDigitChar then none
  else some (if negative then -(digitsValue digits : Int) else digitsValue digits)

/-- The bounds of a signed 64-bit integer. -/
def isInt64 (n : Int) : Bool := decide (-9223372036854775808 ≤ n) && decide (n ≤ 9223372036854775807)

/-- The bounds of a signed 32-bit integer. -/
def isInt32 (n : Int) : Bool := decide (-2147483648 ≤ n) && decide (n ≤ 2147483647)

end ContentReplica
