import ContentReplica.Json.Decoder
import ContentReplica.Sql.Call
import ContentReplica.Sql.Statement

/-!
# JSON forms of values and definitions

The JSON in which values, columns, conditions, definitions and calls are exchanged. A record is an
object of its fields, a variant its name or an object with that one member. `encode` writes the
members of a record in a fixed order, so the text can be hashed; `decode?` refuses what has another
form. Names are taken as they are.
-/

namespace ContentReplica

open Json (Record)

/-- A variant that carries data. -/
def Json.variant (name : String) (payload : Json) : Json := .obj [(name, payload)]

/-! ## Names and types -/

namespace Ident

/-- A name from its JSON form. -/
def decode? (j : Json) : Option Ident := j.text?.map Ident.mk

/-- A name in JSON. -/
def encode (i : Ident) : Json := .str i.text

end Ident

namespace QualifiedName

/-- A qualified name from its JSON form. -/
def decode? (j : Json) : Option QualifiedName := do
  let r ← j.record? ["schema", "name"]
  return ⟨← r.field? "schema" Ident.decode?, ← r.field? "name" Ident.decode?⟩

/-- A qualified name in JSON. -/
def encode (q : QualifiedName) : Json :=
  .obj [("schema", q.namespaceName.encode), ("name", q.name.encode)]

end QualifiedName

namespace SqlType

/-- The type of a plain name. -/
def ofName? : String → Option SqlType
  | "Text" => some .text
  | "Integer" => some .integer
  | "Decimal" => some .decimal
  | "Date" => some .date
  | "Point" => some .point
  | "Boolean" => some .boolean
  | "Jsonb" => some .jsonb
  | _ => none

/-- A type from its JSON form. -/
def decode? : Json → Option SqlType
  | .str name => ofName? name
  | .obj [(name, payload)] =>
    if name = "Array" then (decode? payload).map array
    else if payload.isNull then ofName? name
    else none
  | _ => none

/-- A type in JSON. -/
def encode : SqlType → Json
  | text => .str "Text"
  | integer => .str "Integer"
  | decimal => .str "Decimal"
  | date => .str "Date"
  | point => .str "Point"
  | boolean => .str "Boolean"
  | jsonb => .str "Jsonb"
  | array element => .variant "Array" element.encode

end SqlType

/-! ## Values -/

namespace Value

/-- A point from its JSON form. -/
def decodePoint? (j : Json) : Option Value := do
  let r ← j.record? ["lon", "lat"]
  return .point (← r.field? "lon" Json.double?) (← r.field? "lat" Json.double?)

mutual

/-- A value from its JSON form. -/
def decode? : Json → Option Value
  | .str "Null" => some .null
  | .obj [("Null", .null)] => some .null
  | .obj [("Bool", j)] => j.bool?.map .bool
  | .obj [("Int", j)] => j.int64?.map .int
  | .obj [("Float", j)] => j.double?.map .float
  | .obj [("Text", j)] => j.text?.map .text
  | .obj [("Json", j)] => some (.json j)
  | .obj [("Point", j)] => decodePoint? j
  | .obj [("Array", .arr items)] => (decodeAll? items).map .array
  | _ => none

/-- Values from their JSON forms. -/
def decodeAll? : List Json → Option (List Value)
  | [] => some []
  | j :: rest => do return (← decode? j) :: (← decodeAll? rest)

end

mutual

/-- A value in JSON. -/
def encode : Value → Json
  | null => .str "Null"
  | bool b => .variant "Bool" (.bool b)
  | int n => .variant "Int" (.int n)
  | float x => .variant "Float" (.num (.double x))
  | text s => .variant "Text" (.str s)
  | json j => .variant "Json" j
  | point lon lat => .variant "Point" (.obj [("lon", .num (.double lon)), ("lat", .num (.double lat))])
  | array items => .variant "Array" (.arr (encodeAll items))

/-- Values in JSON. -/
def encodeAll : List Value → List Json
  | [] => []
  | v :: rest => v.encode :: encodeAll rest

end

/-- A list of values from its JSON form. -/
def decodeList? (j : Json) : Option (List Value) := j.list? decode?

/-- Rows of values from their JSON form. -/
def decodeRows? (j : Json) : Option (List (List Value)) := j.list? decodeList?

end Value

/-! ## Columns and conditions -/

namespace ColumnDef

/-- A column from its JSON form. -/
def decode? (j : Json) : Option ColumnDef := do
  let r ← j.record? ["name", "ty", "primary_key", "not_null"]
  return ⟨← r.field? "name" Ident.decode?, ← r.field? "ty" SqlType.decode?,
    ← r.field? "primary_key" Json.bool?, ← r.field? "not_null" Json.bool?⟩

end ColumnDef

namespace ColumnRef

/-- A column reference from its JSON form. -/
def decode? (j : Json) : Option ColumnRef := do
  let r ← j.record? ["name", "ty"]
  return ⟨← r.field? "name" Ident.decode?, ← r.field? "ty" SqlType.decode?⟩

/-- A column reference in JSON. -/
def encode (c : ColumnRef) : Json := .obj [("name", c.name.encode), ("ty", c.type.encode)]

end ColumnRef

namespace CompareOp

/-- An operator from its JSON form. -/
def decode? (j : Json) : Option CompareOp :=
  match j.unitVariant? with
  | some "Eq" => some .eq
  | some "Ne" => some .ne
  | some "Lt" => some .lt
  | some "Lte" => some .lte
  | some "Gt" => some .gt
  | some "Gte" => some .gte
  | _ => none

/-- The name of an operator. -/
def name : CompareOp → String
  | eq => "Eq"
  | ne => "Ne"
  | lt => "Lt"
  | lte => "Lte"
  | gt => "Gt"
  | gte => "Gte"

end CompareOp

namespace Predicate

/-- A column and a list of values. -/
def decodeMembership? (j : Json) : Option (ColumnRef × List Value) := do
  let r ← j.record? ["column", "values"]
  return (← r.field? "column" ColumnRef.decode?, ← r.field? "values" Value.decodeList?)

/-- A comparison from its JSON form. -/
def decodeCompare? (j : Json) : Option Predicate := do
  let r ← j.record? ["column", "op", "value"]
  return .compare (← r.field? "column" ColumnRef.decode?) (← r.field? "op" CompareOp.decode?)
    (← r.field? "value" Value.decode?)

/-- A pattern match from its JSON form. -/
def decodeMatches? (j : Json) : Option Predicate := do
  let r ← j.record? ["column", "pattern"]
  return .matches (← r.field? "column" ColumnRef.decode?) (← r.field? "pattern" Json.text?)

mutual

/-- A condition from its JSON form. -/
def decode? : Json → Option Predicate
  | .obj [("Compare", j)] => decodeCompare? j
  | .obj [("IsNull", j)] => (ColumnRef.decode? j).map .isNull
  | .obj [("IsNotNull", j)] => (ColumnRef.decode? j).map .isNotNull
  | .obj [("Matches", j)] => decodeMatches? j
  | .obj [("ContainsAll", j)] => (decodeMembership? j).map fun (c, vs) => .containsAll c vs
  | .obj [("AnyOf", j)] => (decodeMembership? j).map fun (c, vs) => .anyOf c vs
  | .obj [("NoneOf", j)] => (decodeMembership? j).map fun (c, vs) => .noneOf c vs
  | .obj [("And", .arr parts)] => (decodeAll? parts).map .and
  | _ => none

/-- Conditions from their JSON forms. -/
def decodeAll? : List Json → Option (List Predicate)
  | [] => some []
  | j :: rest => do return (← decode? j) :: (← decodeAll? rest)

end

/-- A column and values in JSON. -/
def encodeMembership (c : ColumnRef) (values : List Value) : Json :=
  .obj [("column", c.encode), ("values", .arr (values.map Value.encode))]

mutual

/-- A condition in JSON. -/
def encode : Predicate → Json
  | compare c op v =>
    .variant "Compare" (.obj [("column", c.encode), ("op", .str op.name), ("value", v.encode)])
  | isNull c => .variant "IsNull" c.encode
  | isNotNull c => .variant "IsNotNull" c.encode
  | «matches» c pattern =>
    .variant "Matches" (.obj [("column", c.encode), ("pattern", .str pattern)])
  | containsAll c vs => .variant "ContainsAll" (encodeMembership c vs)
  | anyOf c vs => .variant "AnyOf" (encodeMembership c vs)
  | noneOf c vs => .variant "NoneOf" (encodeMembership c vs)
  | and parts => .variant "And" (.arr (encodeAll parts))

/-- Conditions in JSON. -/
def encodeAll : List Predicate → List Json
  | [] => []
  | p :: rest => p.encode :: encodeAll rest

end

end Predicate

/-! ## Definitions -/

namespace TableDef

/-- A table from its JSON form. -/
def decode? (j : Json) : Option TableDef := do
  let r ← j.record? ["name", "columns"]
  return ⟨← r.field? "name" QualifiedName.decode?, ← r.field? "columns" (Json.list? ColumnDef.decode?)⟩

end TableDef

namespace IndexDef

/-- An index from its JSON form. -/
def decode? (j : Json) : Option IndexDef := do
  let r ← j.record? ["name", "table", "columns", "unique"]
  return ⟨← r.field? "name" Ident.decode?, ← r.field? "table" QualifiedName.decode?,
    ← r.field? "columns" (Json.list? Ident.decode?), ← r.field? "unique" Json.bool?⟩

end IndexDef

namespace TriggerDef

/-- A delete trigger from its JSON form. -/
def decode? (j : Json) : Option TriggerDef := do
  let r ← j.record? ["table", "con_tables"]
  return ⟨← r.field? "table" QualifiedName.decode?,
    ← r.field? "con_tables" (Json.list? Ident.decode?)⟩

end TriggerDef

namespace ViewDef

/-- A view from its JSON form. -/
def decode? (j : Json) : Option ViewDef := do
  let r ← j.record? ["name", "function", "locale", "unique_key"]
  return ⟨← r.field? "name" QualifiedName.decode?, ← r.field? "function" QualifiedName.decode?,
    ← r.field? "locale" Json.text?, ← r.field? "unique_key" Ident.decode?⟩

/-- A view in JSON. -/
def encode (v : ViewDef) : Json :=
  .obj [("name", v.name.encode), ("function", v.function.encode), ("locale", .str v.locale),
    ("unique_key", v.uniqueKey.encode)]

end ViewDef

/-! ## Calls -/

namespace QuerySource

/-- A source from its JSON form. -/
def decode? : Json → Option QuerySource
  | .obj [("Function", j)] => (QualifiedName.decode? j).map .function
  | .obj [("View", j)] => (QualifiedName.decode? j).map .view
  | _ => none

/-- A source in JSON. -/
def encode : QuerySource → Json
  | function name => .variant "Function" name.encode
  | view name => .variant "View" name.encode

end QuerySource

namespace OrderTerm

/-- An order term from its JSON form. -/
def decode? (j : Json) : Option OrderTerm := do
  let r ← j.record? ["column", "descending"]
  return ⟨← r.field? "column" Ident.decode?, ← r.field? "descending" Json.bool?⟩

/-- An order term in JSON. -/
def encode (t : OrderTerm) : Json :=
  .obj [("column", t.column.encode), ("descending", .bool t.descending)]

end OrderTerm

namespace QueryCall

/-- A call from its JSON form. -/
def decode? (j : Json) : Option QueryCall := do
  let r ← j.record? ["source", "locale", "filters", "order", "skip", "take"]
  return ⟨← r.field? "source" QuerySource.decode?, ← r.field? "locale" Json.text?,
    ← r.field? "filters" (Json.list? Predicate.decode?),
    ← r.field? "order" (Json.list? OrderTerm.decode?), ← r.field? "skip" (Json.nat? 64),
    ← r.field? "take" (Json.nat? 64)⟩

/-- A call in JSON. -/
def encode (c : QueryCall) : Json :=
  .obj [("source", c.source.encode), ("locale", .str c.locale),
    ("filters", .arr (c.filters.map Predicate.encode)),
    ("order", .arr (c.order.map OrderTerm.encode)), ("skip", .nat c.skip), ("take", .nat c.take)]

end QueryCall

namespace QueryPage

/-- A page from its JSON form. -/
def decode? (j : Json) : Option QueryPage := do
  let r ← j.record? ["count", "items"]
  return ⟨← r.field? "count" (Json.nat? 64), ← r.field? "items" some⟩

/-- A page in JSON. -/
def encode (p : QueryPage) : Json := .obj [("count", .nat p.count), ("items", p.items)]

end QueryPage

end ContentReplica
