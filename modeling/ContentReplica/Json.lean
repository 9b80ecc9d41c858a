import ContentReplica.SortedMap
import ContentReplica.Number.Written

/-!
# JSON values

The content source and the queries speak JSON, so it is a value type of the library. A number
remembers whether it was written as an integer of at most 64 bits or as a binary64 number. The
members of an object are in increasing key order with one member a key; `Json.mkObj` and
`Json.insert` keep them so.

`Json.same` is equality of the represented values: the two zeros of binary64 are one value, while
the integer 1 and the number 1.0 are two.
-/

namespace ContentReplica

/-- A JSON number. -/
inductive JsonNumber where
  /-- An integer from -2^63 up to below 2^64. -/
  | int (value : Int)
  | double (value : Double)
  deriving DecidableEq, Inhabited

namespace JsonNumber

/-- Whether two numbers are the same kind and value. -/
def same : JsonNumber → JsonNumber → Bool
  | .int a, .int b => a == b
  | .double x, .double y => x.same y
  | _, _ => false

/-- The number as binary64, rounded if it has to be. -/
def toDouble : JsonNumber → Double
  | .int n => .ofInt n
  | .double x => x

/-- The text of the number. -/
def write : JsonNumber → String
  | .int n => toString n
  | .double x => NumberFormat.json.write x

end JsonNumber

/-- A JSON value. -/
inductive Json where
  | null
  | bool (value : Bool)
  | num (value : JsonNumber)
  | str (value : String)
  | arr (items : List Json)
  | obj (members : List (String × Json))
  deriving Inhabited

namespace Json

/-- An integer as a JSON value. -/
def int (n : Int) : Json := .num (.int n)

/-- A count as a JSON value. -/
def nat (n : Nat) : Json := .num (.int n)

/-- The object with the given members; of two with one key the later counts. -/
def mkObj (members : List (String × Json)) : Json :=
  .obj (members.foldl (fun acc e => Entries.insert e.1 e.2 acc) [])

/-- A text or null. -/
def ofText? : Option String → Json
  | some s => .str s
  | none => .null

/-- The member of an object under a key. -/
def get? : Json → String → Option Json
  | .obj members, key => Entries.get? members key
  | _, _ => none

/-- Whether the value is null. -/
def isNull : Json → Bool
  | .null => true
  | _ => false

mutual

/-- Whether two values represent the same data. -/
def same : Json → Json → Bool
  | .null, .null => true
  | .bool a, .bool b => a == b
  | .num a, .num b => a.same b
  | .str a, .str b => a == b
  | .arr xs, .arr ys => sameItems xs ys
  | .obj xs, .obj ys => sameMembers xs ys
  | _, _ => false

/-- Whether two arrays represent the same data. -/
def sameItems : List Json → List Json → Bool
  | [], [] => true
  | x :: xs, y :: ys => same x y && sameItems xs ys
  | _, _ => false

/-- Whether two member lists represent the same data. -/
def sameMembers : List (String × Json) → List (String × Json) → Bool
  | [], [] => true
  | (k, x) :: xs, (l, y) :: ys => k == l && same x y && sameMembers xs ys
  | _, _ => false

end

end Json

end ContentReplica
