import ContentReplica.Json

/-!
# Decoding JSON into domain types

Readers of JSON values, `none` where the value has another form. A record is written as an object
whose unknown members are ignored, or as the array of its fields in order (`Json.record?`). A member
of an enumeration is written as its name, one that carries data as an object with that one member
(`Json.variant?`).
-/

namespace ContentReplica.Json

/-! ## Plain values -/

/-- A text. -/
def text? : Json → Option String
  | .str s => some s
  | _ => none

/-- A truth value. -/
def bool? : Json → Option Bool
  | .bool b => some b
  | _ => none

/-- An integer within bounds that a test accepts. -/
def int? (accepts : Int → Bool) : Json → Option Int
  | .num (.int n) => if accepts n then some n else none
  | _ => none

/-- A signed 64-bit integer. -/
def int64? : Json → Option Int := int? isInt64

/-- A count of at most the given number of bits. -/
def nat? (bits : Nat) : Json → Option Nat
  | .num (.int n) => if 0 ≤ n ∧ n.toNat < Nat.pow 2 bits then some n.toNat else none
  | _ => none

/-- A binary64 number; integers are rounded to one. -/
def double? : Json → Option Double
  | .num n => some n.toDouble
  | _ => none

/-- A list of values of one kind. -/
def list? {α : Type} (decode : Json → Option α) : Json → Option (List α)
  | .arr items => items.mapM decode
  | _ => none

/-- A value or null. -/
def option? {α : Type} (decode : Json → Option α) : Json → Option (Option α)
  | .null => some none
  | x => (decode x).map some

/-- A map from texts to values of one kind. -/
def map? {α : Type} (decode : Json → Option α) : Json → Option (SortedMap String α)
  | .obj members => (members.mapM fun e => (decode e.2).map (e.1, ·)).map SortedMap.ofList
  | _ => none

/-- A pair, written as an array of two. -/
def pair? {α β : Type} (first : Json → Option α) (second : Json → Option β) :
    Json → Option (α × β)
  | .arr [a, b] => do return (← first a, ← second b)
  | _ => none

/-! ## Records and variants -/

/-- The fields of a record that are present. -/
abbrev Record := List (String × Json)

/-- The fields of a record with the given field names, from an object or from an array in their
order. -/
def record? (names : List String) : Json → Option Record
  | .obj members => some members
  | .arr items => if items.length ≤ names.length then some (names.zip items) else none
  | _ => none

namespace Record

/-- A field of a record, if it is present. -/
def find? (r : Record) (name : String) : Option Json :=
  (List.find? (fun e => e.1 == name) r).map Prod.snd

/-- A field that has to be present. -/
def field? {α : Type} (r : Record) (name : String) (decode : Json → Option α) : Option α :=
  (r.find? name).bind decode

/-- A field with a default in case it is absent; null is not absent. -/
def fieldD? {α : Type} (r : Record) (name : String) (decode : Json → Option α) (default : α) :
    Option α :=
  match r.find? name with
  | some x => decode x
  | none => some default

/-- A field that may be absent or null. -/
def optional? {α : Type} (r : Record) (name : String) (decode : Json → Option α) :
    Option (Option α) :=
  r.fieldD? name (option? decode) none

end Record

/-- The name of a variant and what it carries. -/
def variant? : Json → Option (String × Option Json)
  | .str name => some (name, none)
  | .obj [(name, payload)] => some (name, some payload)
  | _ => none

/-- The name of a variant that carries nothing. -/
def unitVariant? (j : Json) : Option String :=
  match variant? j with
  | some (name, none) => some name
  | some (name, some .null) => some name
  | _ => none

end ContentReplica.Json
