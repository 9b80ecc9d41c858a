import ContentReplica.Error
import ContentReplica.Json.Decoder
import ContentReplica.Sql.Value

/-!
# Payload values as column values

`Value.ofPayload` turns a JSON value of a record into the value of its column, or says why it does not
fit. Null becomes NULL in every column. An integer column holds 32 bits; a decimal column keeps the
difference between integers and other numbers.
-/

namespace ContentReplica

/-- The payload as binary64, if it is a number. -/
def Json.number? : Json → Option Double
  | .num n => some n.toDouble
  | _ => none

namespace Value

/-- The point of a payload with a latitude and a longitude. -/
def pointOf? (payload : Json) : Option Value := do
  let lat ← (payload.get? "lat").bind Json.number?
  let lon ← (payload.get? "lon").bind Json.number?
  return .point lon lat

/-- The value of a scalar column. A lenient column keeps the JSON text of what is no text. -/
def scalarOfPayload (lenient : Bool) (type : SqlType) (payload : Json) : Except ValueFault Value :=
  match type, payload with
  | .text, .str s => .ok (.text s)
  | .text, other => if lenient then .ok (.text other.render) else .error (.expected "text" other)
  | .integer, other =>
    match other.int64? with
    | some n => if isInt32 n then .ok (.int n) else .error (.integerRange n)
    | none => .error (.expected "integer" other)
  | .decimal, .num n =>
    match (Json.num n).int64? with
    | some i => .ok (.int i)
    | none => .ok (.float n.toDouble)
  | .decimal, other => .error (.expected "number" other)
  | .date, .str s => .ok (.text s)
  | .date, other => .error (.expected "date string" other)
  | .boolean, .bool b => .ok (.bool b)
  | .boolean, other => .error (.expected "boolean" other)
  | .point, other =>
    match pointOf? other with
    | some p => .ok p
    | none => .error (.expected "location" other)
  | .jsonb, other => .ok (.json other)
  | .array _, other => .error (.expected "array" other)

/-- The value of a column for a payload. -/
def ofPayload (lenient : Bool) : SqlType → Json → Except ValueFault Value
  | _, .null => .ok .null
  | .array element, .arr items => .array <$> items.mapM (ofPayload lenient element)
  | type, payload => scalarOfPayload lenient type payload

end Value

end ContentReplica
