import ContentReplica.Json

/-!
# Reading JSON text

`Json.parse?` reads one value with nothing but blanks around it. The reader works on the list of
characters and is bounded by its length, since every call that goes deeper has read a character.

A number without fraction and exponent that fits 64 bits is an integer; any other is a binary64
number, and so is `-0`. Its leading digits that fit 64 bits are rounded to a binary64 number and
then scaled by a power of ten, one rounding a step (`JsonNumber.scale?`).
-/

namespace ContentReplica

/-! ## Numbers -/

namespace JsonNumber

/-- Append digits to a significand as long as it fits 64 bits; the result counts those taken. -/
def takeDigits : Nat → List Char → Nat × Nat
  | significand, [] => (significand, 0)
  | significand, c :: rest =>
    let next := 10 * significand + (c.toNat - '0'.toNat)
    if next < Nat.pow 2 64 then
      let (s, n) := takeDigits next rest
      (s, n + 1)
    else (significand, 0)

/-- The power of ten as binary64, for exponents up to 308. -/
def powerOfTen (n : Nat) : Double := Double.ofInt (Nat.pow 10 n)

/-- Scale by a power of ten. Below 10^-308 the division is done in several steps. -/
def scale? : Nat → Double → Int → Option Double
  | 0, _, _ => none
  | fuel + 1, x, exponent =>
    if exponent.natAbs ≤ 308 then
      if 0 ≤ exponent then x.mul? (powerOfTen exponent.natAbs)
      else x.div? (powerOfTen exponent.natAbs)
    else if x.isZero then some x
    else if 0 ≤ exponent then none
    else (x.div? (powerOfTen 308)).bind fun y => scale? fuel y (exponent + 308)

/-- The binary64 number of the parts of a literal, `none` beyond the largest finite one. Three
steps of 10^-308 reach zero from any significand. -/
def ofParts? (negative : Bool) (whole fraction : List Char) (exponent : Int) : Option Double :=
  let (s, taken) := takeDigits 0 whole
  let (s, fractionTaken) := takeDigits s fraction
  let exponent := exponent + (whole.length - taken : Nat) - fractionTaken
  (scale? 5 (Double.ofInt s) exponent).map (Double.withSign negative)

/-- The number of an integer literal. -/
def ofDigits? (negative : Bool) (digits : List Char) : Option JsonNumber :=
  let n := digitsValue digits
  if negative then
    if n ≠ 0 ∧ n ≤ Nat.pow 2 63 then some (.int (-(n : Int)))
    else (ofParts? true digits [] 0).map .double
  else if n < Nat.pow 2 64 then some (.int n)
  else (ofParts? false digits [] 0).map .double

end JsonNumber

namespace Json

/-- Whether a character may stand between the tokens. -/
def isBlank (c : Char) : Bool := c = ' ' || c = '\n' || c = '\t' || c = '\r'

/-- The rest of the text after blanks. -/
def skipBlanks (cs : List Char) : List Char := cs.dropWhile isBlank

/-- Read a fraction if there is one: a point and at least one digit. -/
def readFraction? : List Char → Option (List Char × List Char)
  | '.' :: rest =>
    let digits := rest.takeWhile isDigitChar
    if digits.isEmpty then none else some (digits, rest.dropWhile isDigitChar)
  | cs => some ([], cs)

/-- Read an exponent if there is one. -/
def readExponent? : List Char → Option (Option Int × List Char)
  | [] => some (none, [])
  | c :: rest =>
    if c = 'e' ∨ c = 'E' then
      let (negative, rest) := DecimalText.splitSign true rest
      let digits := rest.takeWhile isDigitChar
      if digits.isEmpty then none
      else
        let n : Int := digitsValue digits
        some (some (if negative then -n else n), rest.dropWhile isDigitChar)
    else some (none, c :: rest)

/-- Read a number: no sign but `-`, no leading zeros. -/
def readNumber? (cs : List Char) : Option (JsonNumber × List Char) := do
  let (negative, cs) := DecimalText.splitSign false cs
  let whole := cs.takeWhile isDigitChar
  let rest := cs.dropWhile isDigitChar
  guard (whole ≠ [] ∧ (whole.head? = some '0' → whole.length = 1))
  let (fraction, rest) ← readFraction? rest
  let (exponent, rest) ← readExponent? rest
  if fraction.isEmpty && exponent.isNone then
    return (← JsonNumber.ofDigits? negative whole, rest)
  else
    return (.double (← JsonNumber.ofParts? negative whole fraction (exponent.getD 0)), rest)

/-! ## Strings -/

/-- The value of a hexadecimal digit. -/
def hexValue? (c : Char) : Option Nat :=
  if '0' ≤ c ∧ c ≤ '9' then some (c.toNat - '0'.toNat)
  else if 'a' ≤ c ∧ c ≤ 'f' then some (c.toNat - 'a'.toNat + 10)
  else if 'A' ≤ c ∧ c ≤ 'F' then some (c.toNat - 'A'.toNat + 10)
  else none

/-- Read four hexadecimal digits. -/
def readUnit? : List Char → Option (Nat × List Char)
  | a :: b :: c :: d :: rest => do
    let a ← hexValue? a
    let b ← hexValue? b
    let c ← hexValue? c
    let d ← hexValue? d
    return (((a * 16 + b) * 16 + c) * 16 + d, rest)
  | _ => none

/-- Read the character after a backslash; two units written one after the other may form one
character, and a unit of such a pair alone is refused. -/
def readEscape? : List Char → Option (Char × List Char)
  | '"' :: rest => some ('"', rest)
  | '\\' :: rest => some ('\\', rest)
  | '/' :: rest => some ('/', rest)
  | 'b' :: rest => some ('\x08', rest)
  | 'f' :: rest => some ('\x0c', rest)
  | 'n' :: rest => some ('\n', rest)
  | 'r' :: rest => some ('\r', rest)
  | 't' :: rest => some ('\t', rest)
  | 'u' :: rest => do
    let (unit, rest) ← readUnit? rest
    if 0xD800 ≤ unit ∧ unit < 0xDC00 then
      match rest with
      | '\\' :: 'u' :: rest =>
        let (low, rest) ← readUnit? rest
        guard (0xDC00 ≤ low ∧ low < 0xE000)
        return (Char.ofNat (0x10000 + (unit - 0xD800) * 0x400 + (low - 0xDC00)), rest)
      | _ => none
    else
      guard (¬ (0xDC00 ≤ unit ∧ unit < 0xE000))
      return (Char.ofNat unit, rest)
  | _ => none

/-- Read the characters of a string up to its closing quote. -/
def readChars? : Nat → List Char → List Char → Option (String × List Char)
  | 0, _, _ => none
  | _ + 1, _, [] => none
  | fuel + 1, acc, c :: rest =>
    if c = '"' then some (String.ofList acc.reverse, rest)
    else if c = '\\' then (readEscape? rest).bind fun (d, rest) => readChars? fuel (d :: acc) rest
    else if c.toNat < 0x20 then none
    else readChars? fuel (c :: acc) rest

/-! ## Values -/

mutual

/-- Read a value. -/
def readValue? : Nat → List Char → Option (Json × List Char)
  | 0, _ => none
  | fuel + 1, cs =>
    match skipBlanks cs with
    | 'n' :: 'u' :: 'l' :: 'l' :: rest => some (.null, rest)
    | 't' :: 'r' :: 'u' :: 'e' :: rest => some (.bool true, rest)
    | 'f' :: 'a' :: 'l' :: 's' :: 'e' :: rest => some (.bool false, rest)
    | '"' :: rest => (readChars? (rest.length + 1) [] rest).map fun (s, rest) => (.str s, rest)
    | '[' :: rest =>
      match skipBlanks rest with
      | ']' :: rest => some (.arr [], rest)
      | rest => (readItems? fuel rest).map fun (items, rest) => (.arr items, rest)
    | '\x7b' :: rest =>
      match skipBlanks rest with
      | '\x7d' :: rest => some (.obj [], rest)
      | rest => (readMembers? fuel [] rest).map fun (members, rest) => (.obj members, rest)
    | rest => (readNumber? rest).map fun (n, rest) => (.num n, rest)

/-- Read the items of an array and its closing bracket. -/
def readItems? : Nat → List Char → Option (List Json × List Char)
  | 0, _ => none
  | fuel + 1, cs =>
    (readValue? fuel cs).bind fun (x, rest) =>
      match skipBlanks rest with
      | ',' :: rest => (readItems? fuel rest).map fun (xs, rest) => (x :: xs, rest)
      | ']' :: rest => some ([x], rest)
      | _ => none

/-- Read the members of an object and its closing brace. -/
def readMembers? :
    Nat → List (String × Json) → List Char → Option (List (String × Json) × List Char)
  | 0, _, _ => none
  | fuel + 1, acc, cs =>
    match skipBlanks cs with
    | '"' :: rest =>
      (readChars? (rest.length + 1) [] rest).bind fun (key, rest) =>
        match skipBlanks rest with
        | ':' :: rest =>
          (readValue? fuel rest).bind fun (x, rest) =>
            let acc := Entries.insert key x acc
            match skipBlanks rest with
            | ',' :: rest => readMembers? fuel acc rest
            | '\x7d' :: rest => some (acc, rest)
            | _ => none
        | _ => none
    | _ => none

end

/-- Read a text that holds one value. -/
def parse? (text : String) : Option Json :=
  let cs := text.toList
  (readValue? (2 * cs.length + 2) cs).bind fun (value, rest) =>
    if (skipBlanks rest).isEmpty then some value else none

end Json

end ContentReplica
