import ContentReplica.Plan

/-!
# The SQL body of a plan

`Plan.body` is one `SELECT` over the root table at the default locale. The row `lc` holds the
requested, the fallback and the default locale; a localized value is the first of the three that is
not NULL, reached by two self joins that only nodes with localized fields below them get. The
document of a link is a subquery; a link table is aggregated in the order of `position`.

Every table that is read gets an alias of its own, numbered as the text is written.
-/

namespace ContentReplica.Plan

/-- The arguments of one object constructor are limited, so an object of more pairs is put together
from several. -/
def pairsPerObject : Nat := 40

/-- Cut a list into parts of a given size, none if it is empty. -/
def chunks {α : Type} (size : Nat) (xs : List α) : List (List α) := go xs.length xs
where
  go : Nat → List α → List (List α)
    | 0, _ => []
    | fuel + 1, xs => if xs.isEmpty then [] else xs.take size :: go fuel (xs.drop size)

/-- The next alias. -/
def freshAlias (letter : String) : StateM Nat String := do
  let n ← get
  set (n + 1)
  return letter ++ toString n

/-- The joins that add the requested and the fallback row of a record. -/
def localeJoins (node : PlanNode) (a : String) : String :=
  if node.hasLocalized then
    let table := node.source.table.quoted
    s!" LEFT JOIN {table} {a}_r ON {a}_r.\"sys_id\" = {a}.\"sys_id\" AND {a}_r.\"locale\" = lc.req" ++
      s!" LEFT JOIN {table} {a}_f ON {a}_f.\"sys_id\" = {a}.\"sys_id\" AND {a}_f.\"locale\" = lc.fb"
  else ""

/-- The column of a field, resolved by locale where the field is localized. -/
def columnSql (nodeLocalized : Bool) (a : String) (c : PlanColumn) : String :=
  let column := c.column.quoted
  if nodeLocalized && c.localized then s!"COALESCE({a}_r.{column}, {a}_f.{column}, {a}.{column})"
  else s!"{a}.{column}"

/-- The JSON form of a plain column. -/
def valueSql (e : String) : SqlType → String
  | .point =>
    s!"CASE WHEN {e} IS NULL THEN NULL ELSE jsonb_build_object('lat', ({e})[1], 'lon', ({e})[0]) END"
  | .jsonb => e
  | _ => s!"to_jsonb({e})"

/-- The identity of a record as a document. -/
def stubSql (id : String) : String :=
  s!"jsonb_build_object('sys', jsonb_build_object('id', {id}))"

/-- An object of keys and expressions. -/
def objectSql (pairs : List (String × String)) : String :=
  if pairs.isEmpty then "'\x7b\x7d'::jsonb"
  else
    " || ".intercalate <| (chunks pairsPerObject pairs).map fun chunk =>
      "jsonb_build_object("
        ++ ", ".intercalate (chunk.map fun (k, v) => quoteLiteral k ++ ", " ++ v) ++ ")"

/-- The system part of a document. -/
def sysSql (source : NodeSource) (a : String) : String :=
  let kind := match source.kind with
    | .entry => "Entry"
    | .asset => "Asset"
  let contentType := match source.kind with
    | .entry => [("contentType", stubSql (quoteLiteral source.contentType))]
    | .asset => []
  objectSql <|
    [("id", s!"{a}.\"sys_id\""), ("type", quoteLiteral kind)] ++ contentType
      ++ [("createdAt", s!"{a}.\"created_at\""), ("updatedAt", s!"{a}.\"updated_at\""),
        ("version", s!"{a}.\"version\""), ("locale", "lc.req")]

/-- An alias for the edges of the record under the alias `o`, and the condition that selects them in
the nearest locale that has any. -/
def edgesSql (o : String) (localized : Bool) (linkTable : QualifiedName) :
    StateM Nat (String × String) := do
  let c ← freshAlias "c"
  let table := linkTable.quoted
  let locale ←
    if localized then do
      let p ← freshAlias "c"
      pure <| s!"(SELECT {p}.\"locale\" FROM {table} {p} WHERE {p}.\"owner_sys_id\" = {o}.\"sys_id\"" ++
        s!" AND {p}.\"locale\" IN (lc.req, lc.fb, lc.def)" ++
        s!" ORDER BY array_position(ARRAY[lc.req, lc.fb, lc.def], {p}.\"locale\") LIMIT 1)"
    else pure "lc.def"
  return (c, s!"WHERE {c}.\"owner_sys_id\" = {o}.\"sys_id\" AND {c}.\"locale\" = {locale})")

mutual

/-- The document of a node. -/
def documentSql (a : String) : PlanNode → StateM Nat String
  | .mk source localized fields => do
    let pairs ← fieldsSql localized a fields
    return "jsonb_build_object('sys', " ++ sysSql source a ++ ", 'fields', " ++ objectSql pairs ++ ")"

/-- The keys and expressions of fields. -/
def fieldsSql (localized : Bool) (a : String) : List PlanField → StateM Nat (List (String × String))
  | [] => return []
  | .value c type :: rest => do
    let more ← fieldsSql localized a rest
    return (c.fieldId, valueSql (columnSql localized a c) type) :: more
  | .link c target :: rest => do
    let value ← linkSql (columnSql localized a c) target
    let more ← fieldsSql localized a rest
    return (c.fieldId, value) :: more
  | .links c linkTable target :: rest => do
    let value ← linksSql a c.localized linkTable target
    let more ← fieldsSql localized a rest
    return (c.fieldId, value) :: more

/-- A single link, given the expression of the target's identity. -/
def linkSql (id : String) : LinkPlan → StateM Nat String
  | .stub =>
    let stub := stubSql id
    return s!"CASE WHEN {id} IS NULL THEN NULL ELSE {stub} END"
  | .expand node => do
    let a ← freshAlias "t"
    let json ← documentSql a node
    let table := node.source.table.quoted
    let joins := localeJoins node a
    return s!"(SELECT {json} FROM {table} {a}{joins} WHERE {a}.\"sys_id\" = {id}" ++
      s!" AND {a}.\"locale\" = lc.def)"

/-- An array of links of the record under the alias `o`. -/
def linksSql (o : String) (localized : Bool) (linkTable : QualifiedName) :
    LinkPlan → StateM Nat String
  | .stub => do
    let (c, condition) ← edgesSql o localized linkTable
    let table := linkTable.quoted
    let stub := stubSql s!"{c}.\"target_sys_id\""
    return s!"(SELECT COALESCE(jsonb_agg({stub} ORDER BY {c}.\"position\"), '[]'::jsonb)" ++
      s!" FROM {table} {c} {condition}"
  | .expand node => do
    let (c, condition) ← edgesSql o localized linkTable
    let a ← freshAlias "t"
    let json ← documentSql a node
    let table := linkTable.quoted
    let child := node.source.table.quoted
    let joins := localeJoins node a
    return s!"(SELECT COALESCE(jsonb_agg({json} ORDER BY {c}.\"position\"), '[]'::jsonb)" ++
      s!" FROM {table} {c} JOIN {child} {a} ON {a}.\"sys_id\" = {c}.\"target_sys_id\"" ++
      s!" AND {a}.\"locale\" = lc.def{joins} {condition}"

end

/-- The body of the query function. -/
def body (p : Plan) : String :=
  let text : StateM Nat String := do
    let a ← freshAlias "t"
    let columns := p.root.fields.filterMap fun
      | .value c _ => some (columnSql p.root.hasLocalized a c)
      | .link c _ => some (columnSql p.root.hasLocalized a c)
      | .links .. => none
    let json ← documentSql a p.root
    let select := ", ".intercalate <|
      [s!"{a}.\"sys_id\"", "lc.req", s!"{a}.\"version\"", s!"{a}.\"created_at\"",
        s!"{a}.\"updated_at\""] ++ columns ++ [json]
    let locales := p.locales.quoted
    let table := p.root.source.table.quoted
    let joins := localeJoins p.root a
    return s!"WITH lc AS (SELECT l.\"code\" AS req, COALESCE(l.\"fallback_code\", d.\"code\") AS fb," ++
      s!" d.\"code\" AS def FROM {locales} l CROSS JOIN {locales} d" ++
      s!" WHERE d.\"is_default\" AND l.\"code\" = _locale)" ++
      s!" SELECT {select} FROM {table} {a} CROSS JOIN lc{joins} WHERE {a}.\"locale\" = lc.def"
  (text.run 0).1

end ContentReplica.Plan
