import ContentReplica.Json.Parser
import ContentReplica.Text.Split

/-!
# TOML scalars

The strings, numbers, booleans and dates of TOML 1.0, read to JSON values. A date or time becomes an
object that holds its text, since JSON has none of its own, and a decimal that is not finite counts
as zero.
-/

namespace ContentReplica.Toml

/-! ## Characters -/

/-- Whether a character is a blank within a line. -/
def isBlank (c : Char) : Bool := c = ' ' || c = '\t'

/-- The text after blanks within a line. -/
def skipBlanks (cs : List Char) : List Char := cs.dropWhile isBlank

/-- Whether a character may stand in a comment or, quotes apart, in a string. -/
def isText (c : Char) : Bool := c = '\t' || (0x20 ≤ c.toNat && c.toNat ≠ 0x7F)

/-- The text after a line break, if it begins with one. -/
def lineBreak? : List Char → Option (List Char)
  | '\n' :: rest => some rest
  | '\r' :: '\n' :: rest => some rest
  | _ => none

/-! ## Strings -/

/-- The value of hexadecimal digits. -/
def hexNumber? (digits : List Char) : Option Nat :=
  digits.foldlM (fun n c => (Json.hexValue? c).map (16 * n + ·)) 0

/-- The character with the given number, if there is one. -/
def scalar? (n : Nat) : Option Char := if n.isValidChar then some (Char.ofNat n) else none

/-- The character that a number of hexadecimal digits stand for. -/
def readCode? (digits : Nat) (cs : List Char) : Option (Char × List Char) :=
  if cs.length < digits then none
  else
    (hexNumber? (cs.take digits)).bind fun n =>
      (scalar? n).map fun c => (c, cs.drop digits)

/-- The character after a backslash. -/
def readEscape? : List Char → Option (Char × List Char)
  | '"' :: rest => some ('"', rest)
  | '\\' :: rest => some ('\\', rest)
  | 'b' :: rest => some ('\x08', rest)
  | 'f' :: rest => some ('\x0c', rest)
  | 'n' :: rest => some ('\n', rest)
  | 'r' :: rest => some ('\r', rest)
  | 't' :: rest => some ('\t', rest)
  | 'u' :: rest => readCode? 4 rest
  | 'U' :: rest => readCode? 8 rest
  | _ => none

/-- The text of a string on one line up to its closing quote; only in double quotes does a backslash
stand for something else. -/
def readLine? (quote : Char) : Nat → List Char → List Char → Option (String × List Char)
  | 0, _, _ => none
  | _ + 1, _, [] => none
  | fuel + 1, acc, c :: rest =>
    if c = quote then some (String.ofList acc.reverse, rest)
    else if c = '\\' ∧ quote = '"' then
      (readEscape? rest).bind fun (d, rest) => readLine? quote fuel (d :: acc) rest
    else if isText c then readLine? quote fuel (c :: acc) rest
    else none

/-- The text after the line breaks and blanks that follow a backslash at the end of a line. -/
def skipLines : Nat → List Char → List Char
  | 0, cs => cs
  | fuel + 1, cs =>
    match lineBreak? (skipBlanks cs) with
    | some rest => skipLines fuel rest
    | none => skipBlanks cs

/-- The text of a string on several lines up to its closing quotes, of which two more may belong to
the text. -/
def readLines? (quote : Char) : Nat → List Char → List Char → Option (String × List Char)
  | 0, _, _ => none
  | _ + 1, _, [] => none
  | fuel + 1, acc, c :: rest =>
    if c = quote then
      let quotes := ((c :: rest).takeWhile (· = quote)).length
      if quotes < 3 then
        readLines? quote fuel (List.replicate quotes quote ++ acc) ((c :: rest).drop quotes)
      else
        let kept := min quotes 5
        some (String.ofList (List.replicate (kept - 3) quote ++ acc).reverse,
          (c :: rest).drop kept)
    else if c = '\\' ∧ quote = '"' then
      match lineBreak? (skipBlanks rest) with
      | some next => readLines? quote fuel acc (skipLines next.length next)
      | none => (readEscape? rest).bind fun (d, rest) => readLines? quote fuel (d :: acc) rest
    else
      match lineBreak? (c :: rest) with
      | some next => readLines? quote fuel ('\n' :: acc) next
      | none => if isText c then readLines? quote fuel (c :: acc) rest else none

/-- Read a string on one line. -/
def readPlainString? : List Char → Option (String × List Char)
  | '"' :: rest => readLine? '"' (rest.length + 1) [] rest
  | '\x27' :: rest => readLine? '\x27' (rest.length + 1) [] rest
  | _ => none

/-- Read a string. A line break right after three opening quotes does not count. -/
def readString? : List Char → Option (String × List Char)
  | '"' :: '"' :: '"' :: rest =>
    readLines? '"' (rest.length + 1) [] ((lineBreak? rest).getD rest)
  | '\x27' :: '\x27' :: '\x27' :: rest =>
    readLines? '\x27' (rest.length + 1) [] ((lineBreak? rest).getD rest)
  | cs => readPlainString? cs

/-! ## Numbers -/

/-- Digits without the underscores between them. -/
def digits? (isDigit : Char → Bool) (cs : List Char) : Option (List Char) :=
  let groups := Text.pieces '_' cs
  if groups.all fun g => !g.isEmpty && g.all isDigit then some groups.flatten else none

/-- Digits without a needless zero in front. -/
def wholeDigits? (cs : List Char) : Option (List Char) :=
  (digits? isDigitChar cs).filter fun ds => ds.length = 1 || ds.head? != some '0'

/-- An integer of 64 bits. -/
def integer? (n : Int) : Option Json := if isInt64 n then some (.int n) else none

/-- The value of digits in a base. -/
def basedNumber? (base : Nat) (cs : List Char) : Option Json := do
  let isDigit (c : Char) : Bool :=
    match Json.hexValue? c with
    | some d => d < base
    | none => false
  let ds ← digits? isDigit cs
  integer? (ds.foldl (fun n c => base * n + (Json.hexValue? c).getD 0) 0 : Nat)

/-- A decimal, given by its digits before and after the point and its exponent. Beyond the largest
number only negative decimals are read. -/
def decimal? (negative : Bool) (whole fraction : List Char) (exponent : Int) : Option Json :=
  let t : DecimalText := ⟨negative, whole, fraction, exponent⟩
  match t.toDouble? with
  | some x => some (.num (.double x))
  | none => if negative then some (.num (.double .zero)) else none

/-- The exponent of a decimal. -/
def exponent? (cs : List Char) : Option Int := do
  let (negative, cs) := DecimalText.splitSign true cs
  let n := digitsValue (← digits? isDigitChar cs)
  return if negative then -(n : Int) else n

/-- A number in the decimal notation, without its sign. -/
def unsignedNumber? (negative : Bool) (cs : List Char) : Option Json := do
  let isExponent (c : Char) : Bool := c = 'e' || c = 'E'
  let mantissa := cs.takeWhile fun c => !isExponent c
  let whole ← wholeDigits? (mantissa.takeWhile (· ≠ '.'))
  let fraction? := mantissa.dropWhile (· ≠ '.')
  let exponentPart := cs.dropWhile fun c => !isExponent c
  if fraction?.isEmpty && exponentPart.isEmpty then
    integer? (if negative then -(digitsValue whole : Int) else digitsValue whole)
  else
    let fraction ← if fraction?.isEmpty then some [] else digits? isDigitChar (fraction?.drop 1)
    let exponent ← if exponentPart.isEmpty then some 0 else exponent? (exponentPart.drop 1)
    decimal? negative whole fraction exponent

/-- A number. -/
def number? (cs : List Char) : Option Json :=
  match cs with
  | '0' :: 'x' :: rest => basedNumber? 16 rest
  | '0' :: 'o' :: rest => basedNumber? 8 rest
  | '0' :: 'b' :: rest => basedNumber? 2 rest
  | _ =>
    let (negative, rest) := DecimalText.splitSign true cs
    if rest = "inf".toList ∨ rest = "nan".toList then some (.num (.double .zero))
    else unsignedNumber? negative rest

/-! ## Dates and times -/

/-- The number that exactly so many digits stand for. -/
def fixedDigits? (count : Nat) (cs : List Char) : Option (Nat × List Char) :=
  let ds := cs.take count
  if ds.length = count ∧ ds.all isDigitChar then some (digitsValue ds, cs.drop count) else none

/-- The text after an expected character. -/
def expect? (c : Char) : List Char → Option (List Char)
  | d :: rest => if d = c then some rest else none
  | [] => none

/-- The number of days of a month. -/
def daysIn (year month : Nat) : Nat :=
  if month = 2 then
    if year % 4 = 0 ∧ (year % 100 ≠ 0 ∨ year % 400 = 0) then 29 else 28
  else if [4, 6, 9, 11].contains month then 30
  else 31

/-- The text after a date. -/
def afterDate? (cs : List Char) : Option (List Char) := do
  let (year, cs) ← fixedDigits? 4 cs
  let (month, cs) ← fixedDigits? 2 (← expect? '-' cs)
  let (day, cs) ← fixedDigits? 2 (← expect? '-' cs)
  guard (1 ≤ month ∧ month ≤ 12 ∧ 1 ≤ day ∧ day ≤ daysIn year month)
  return cs

/-- The text after a time of day, with or without a fraction of a second. -/
def afterTime? (cs : List Char) : Option (List Char) := do
  let (hour, cs) ← fixedDigits? 2 cs
  let (minute, cs) ← fixedDigits? 2 (← expect? ':' cs)
  let (second, cs) ← fixedDigits? 2 (← expect? ':' cs)
  guard (hour ≤ 23 ∧ minute ≤ 59 ∧ second ≤ 60)
  match cs with
  | '.' :: rest =>
    guard (!(rest.takeWhile isDigitChar).isEmpty)
    return rest.dropWhile isDigitChar
  | _ => return cs

/-- Whether a text is a distance from universal time, or nothing. -/
def isOffset (cs : List Char) : Bool :=
  match cs with
  | [] | ['Z'] | ['z'] => true
  | sign :: rest =>
    (sign = '+' || sign = '-') && Option.isSome do
      let (hour, rest) ← fixedDigits? 2 rest
      let (minute, rest) ← fixedDigits? 2 (← expect? ':' rest)
      guard (hour ≤ 23 ∧ minute ≤ 59 ∧ rest.isEmpty)

/-- Whether a text is a time of day after a date. -/
def isTimeOfDate (cs : List Char) : Bool :=
  match afterTime? cs with
  | some rest => isOffset rest
  | none => false

/-- Whether a text is a date, a time of day, or both. -/
def isMoment (cs : List Char) : Bool :=
  match afterDate? cs with
  | some [] => true
  | some (separator :: rest) =>
    (separator = 'T' || separator = 't' || separator = ' ') && isTimeOfDate rest
  | none => afterTime? cs == some []

/-- A date or time. -/
def moment? (cs : List Char) : Option Json :=
  if isMoment cs then some (.obj [("datetime", .str (String.ofList cs))]) else none

/-! ## Words -/

/-- A boolean, a number or a date. -/
def word? (cs : List Char) : Option Json :=
  if cs = "true".toList then some (.bool true)
  else if cs = "false".toList then some (.bool false)
  else (number? cs).or (moment? cs)

/-- Whether a character ends a word. -/
def endsWord (c : Char) : Bool := " \t\r\n,]#\x7d".toList.contains c

/-- Read a boolean, a number or a date; between a date and a time there may be a blank. -/
def readWord? (cs : List Char) : Option (Json × List Char) :=
  let word := cs.takeWhile fun c => !endsWord c
  let rest := cs.dropWhile fun c => !endsWord c
  let time := (rest.drop 1).takeWhile fun c => !endsWord c
  if rest.head? = some ' ' ∧ afterDate? word = some [] ∧ isTimeOfDate time then
    (moment? (word ++ ' ' :: time)).map fun x => (x, (rest.drop 1).drop time.length)
  else (word? word).map fun x => (x, rest)

end ContentReplica.Toml
