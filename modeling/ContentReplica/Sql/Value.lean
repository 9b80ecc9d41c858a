import ContentReplica.Json.Printer
import ContentReplica.Text.Replace

/-!
# Column types and values

`SqlType` is the type of a column and `Value` what a cell holds. A value is sent to the database as
a text (`Value.toText?`, no text for NULL) and appears in query results as JSON (`Value.toJson`).

`Value.compare?` orders values of comparable kinds, an integer and a number by the integer rounded
to binary64; `Value.equals` is equality as conditions use it, where NULL equals nothing.
-/

namespace ContentReplica

/-- The type of a column. -/
inductive SqlType where
  | text
  | integer
  | decimal
  | date
  | point
  | boolean
  | jsonb
  | array (element : SqlType)
  deriving DecidableEq, Inhabited

namespace SqlType

/-- The type as it is written in definitions and casts. -/
def ddl : SqlType → String
  | text => "text"
  | integer => "integer"
  | decimal => "numeric"
  | date => "timestamptz"
  | point => "point"
  | boolean => "boolean"
  | jsonb => "jsonb"
  | array element => element.ddl ++ "[]"

/-- Whether the type is an array type. -/
def isArray : SqlType → Bool
  | array _ => true
  | _ => false

/-- The array type over this type; an array type stays as it is. -/
def arrayOf : SqlType → SqlType
  | array element => array element
  | type => array type

/-- Whether values of the type have an order. -/
def isOrderable : SqlType → Bool
  | text | integer | decimal | date | boolean => true
  | _ => false

end SqlType

/-- What a cell of a table holds. -/
inductive Value where
  | null
  | bool (value : Bool)
  | int (value : Int)
  | float (value : Double)
  | text (value : String)
  | json (value : Json)
  | point (lon lat : Double)
  | array (items : List Value)
  deriving Inhabited

namespace Value

/-- Whether the value is NULL. -/
def isNull : Value → Bool
  | null => true
  | _ => false

/-- The text of a text value. -/
def asText? : Value → Option String
  | text s => some s
  | _ => none

/-- A text or NULL. -/
def ofText? : Option String → Value
  | some s => text s
  | none => null

/-- An element of an array literal: between quotes, its backslashes escaped and then its quotes. -/
def quoteElement (s : String) : String :=
  "\"" ++ String.ofList (Text.replaced '"' ['\\', '"'] (Text.replaced '\\' ['\\', '\\'] s.toList))
    ++ "\""

mutual

/-- The text sent to the database, none for NULL. -/
def toText? : Value → Option String
  | null => none
  | bool b => some (if b then "true" else "false")
  | int n => some (toString n)
  | float x => some (NumberFormat.plain.write x)
  | text s => some s
  | json v => some v.render
  | point lon lat =>
    some ("(" ++ NumberFormat.plain.write lon ++ "," ++ NumberFormat.plain.write lat ++ ")")
  | array items => some ("\x7b" ++ ",".intercalate (elementTexts items) ++ "\x7d")

/-- The elements of an array literal. -/
def elementTexts : List Value → List String
  | [] => []
  | v :: rest =>
    (match v.toText? with
      | none => "NULL"
      | some s => quoteElement s) :: elementTexts rest

end

mutual

/-- The value as it appears in query results. -/
def toJson : Value → Json
  | null => .null
  | bool b => .bool b
  | int n => .int n
  | float x => .num (.double x)
  | text s => .str s
  | json v => v
  | point lon lat => .obj [("lat", .num (.double lat)), ("lon", .num (.double lon))]
  | array items => .arr (toJsonList items)

/-- The items of an array as they appear in query results. -/
def toJsonList : List Value → List Json
  | [] => []
  | v :: rest => v.toJson :: toJsonList rest

end

/-- The order of two values, none if they are not comparable. -/
def compare? : Value → Value → Option Ordering
  | int a, int b => some (compare a b)
  | int a, float y => some ((Double.ofInt a).order y)
  | float x, int b => some (x.order (Double.ofInt b))
  | float x, float y => some (x.order y)
  | text a, text b => some (compare a b)
  | bool a, bool b => some (compare a.toNat b.toNat)
  | _, _ => none

mutual

/-- Equality in conditions: numbers by value, documents and points by content, NULL never. -/
def equals : Value → Value → Bool
  | json a, json b => a.same b
  | point lon lat, point lon' lat' => lon.same lon' && lat.same lat'
  | array xs, array ys => equalsAll xs ys
  | int a, int b => a == b
  | int a, float y => (Double.ofInt a).same y
  | float x, int b => x.same (Double.ofInt b)
  | float x, float y => x.same y
  | text a, text b => a == b
  | bool a, bool b => a == b
  | _, _ => false

/-- Equality of arrays, element by element. -/
def equalsAll : List Value → List Value → Bool
  | [], [] => true
  | x :: xs, y :: ys => equals x y && equalsAll xs ys
  | _, _ => false

end

end Value

end ContentReplica
