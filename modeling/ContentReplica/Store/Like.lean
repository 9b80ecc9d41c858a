import ContentReplica.Text.LowerCase

/-!
# Patterns

`Like.holds text pattern` decides whether a text matches a pattern, upper and lower case alike: `%`
stands for any run of characters, `_` for one character, and a backslash makes the character after
it literal. The decision goes through the tokens of the pattern and keeps, for every beginning of
the text, whether the tokens so far match it.

The truth values stand in a row. Rows are read and written by index and the text is read by index,
and an index outside ends the decision without an answer (`Like.decide?`).
-/

namespace ContentReplica.Like

/-- A token of a pattern. -/
inductive Token where
  /-- Any run of characters. -/
  | any
  /-- One character. -/
  | one
  | lit (c : Char)
  deriving DecidableEq

/-- The tokens of a pattern; a backslash at the end stands for itself. -/
def tokens : List Char → List Token
  | [] => []
  | '%' :: rest => .any :: tokens rest
  | '_' :: rest => .one :: tokens rest
  | ['\\'] => [.lit '\\']
  | '\\' :: c :: rest => .lit c :: tokens rest
  | c :: rest => .lit c :: tokens rest

/-! ## Rows

Entry `j` of a row tells whether the tokens so far match the first `j` characters; a row has one
entry more than the text has characters. -/

/-- The item in front of index `j`. -/
def before? {α : Type} (items : Array α) : Nat → Option α
  | 0 => none
  | j + 1 => items[j]?

/-- A row with entry `j` written. -/
def write? (row : Array Bool) (j : Nat) (b : Bool) : Option (Array Bool) :=
  if j < row.size then some (row.setIfInBounds j b) else none

/-- A row with `count` entries from index `j` on written one after the other. An entry is computed
from the one written last and its index. -/
def fill? (entry : Bool → Nat → Option Bool) (last : Bool) (j : Nat) :
    Nat → Array Bool → Option (Array Bool)
  | 0, row => some row
  | count + 1, row => do
    let b ← entry last j
    let row ← write? row j b
    fill? entry b (j + 1) count row

/-- A row of which no entry holds. -/
def blank (text : Array Char) : Array Bool := Array.replicate (text.size + 1) false

/-- The row before any token: only the empty beginning is matched. -/
def start? (text : Array Char) : Option (Array Bool) := write? (blank text) 0 true

/-- The row after a token. -/
def step? (text : Array Char) (row : Array Bool) : Token → Option (Array Bool)
  | .any => fill? (fun reached j => do return reached || (← row[j]?)) false 0 (text.size + 1)
    (blank text)
  | .one => fill? (fun _ j => before? row j) false 1 text.size (blank text)
  | .lit c => fill? (fun _ j => do
      if ← before? row j then return (← before? text j) == c else return false)
    false 1 text.size (blank text)

/-- Whether tokens match a whole text. -/
def matchTokens? (text : Array Char) (ts : List Token) : Option Bool := do
  let row ← start? text
  let row ← ts.foldlM (step? text) row
  row[text.size]?

/-- The answer whether a text matches a pattern, upper and lower case alike. -/
def decide? (text pattern : String) : Option Bool :=
  matchTokens? (Text.lowerChars text.toList).toArray (tokens (Text.lowerChars pattern.toList))

/-- Whether a text matches a pattern, upper and lower case alike. -/
def holds (text pattern : String) : Bool := (decide? text pattern).getD false

end ContentReplica.Like
