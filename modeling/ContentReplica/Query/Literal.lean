import ContentReplica.Error
import ContentReplica.Sql.Value

/-!
# Literals in queries

The raw texts of a query become values here. `Literal.sniff` reads a text for what it looks like,
`Literal.read` for a column: a text or date column takes the text as it is, other columns take what
the text was sniffed to, if that is of their kind. `Literal.pattern` is the pattern of a wildcard
search: `*` stands for any run of characters and every other character for itself, anywhere in the
text.
-/

namespace ContentReplica.Literal

/-- The value that a text looks like: a boolean, an integer, a decimal, or else a text. -/
def sniff (raw : String) : Value :=
  if raw = "true" then .bool true
  else if raw = "false" then .bool false
  else
    match (readInteger? raw).filter isInt64 with
    | some n => .int n
    | none =>
      match Double.read? raw with
      | some x => .float x
      | none => .text raw

/-- The value that a text stands for in a column of a type. -/
def read (path raw : String) : SqlType → Except QueryFault Value
  | .text | .date => .ok (.text raw)
  | .integer =>
    match sniff raw with
    | .int n => .ok (.int n)
    | _ => .error (.expects path "an integer" raw)
  | .decimal =>
    match sniff raw with
    | .int n => .ok (.int n)
    | .float x => .ok (.float x)
    | _ => .error (.expects path "a number" raw)
  | .boolean =>
    match sniff raw with
    | .bool b => .ok (.bool b)
    | _ => .error (.expects path "true or false" raw)
  | .array element => read path raw element
  | .point | .jsonb => .error (.notFilterable path)

/-- One character of a wildcard search as it stands in the pattern. -/
def patternChars (c : Char) : List Char :=
  if c = '%' ∨ c = '_' ∨ c = '\\' then ['\\', c]
  else if c = '*' then ['%']
  else [c]

/-- The pattern of a wildcard search, which holds anywhere in the text. -/
def pattern (raw : String) : String :=
  String.ofList ('%' :: (raw.toList.flatMap patternChars ++ ['%']))

end ContentReplica.Literal
