import ContentReplica.Sql.Statement
import ContentReplica.Sql.Wire

/-!
# Statements in JSON

The JSON form in which the statements of a script are given: an object with the kind of the
statement and the parts that the kind asks for.
-/

namespace ContentReplica.Statement

/-- A part of a statement. -/
def part {α : Type} (j : Json) (name : String) (decode : Json → Option α) : Except Error α :=
  match (j.get? name).bind decode with
  | some x => .ok x
  | none => .error .serialization

/-- The table, columns and rows that a statement brings in. -/
def decodeRows (j : Json) :
    Except Error (QualifiedName × List ColumnDef × List (List Value)) := do
  return (← part j "table" QualifiedName.decode?, ← part j "columns" (·.list? ColumnDef.decode?),
    ← part j "rows" Value.decodeRows?)

/-- A statement from its JSON form. -/
def decode (j : Json) : Except Error Statement := do
  let ident (name : String) : Except Error Ident := part j name Ident.decode?
  match ← part j "kind" Json.text? with
  | "create_schema" => return .createNamespace (← ident "name")
  | "drop_schema" => return .dropNamespace (← ident "name")
  | "swap_schemas" =>
    return .swapNamespaces (← ident "live") (← ident "shadow") (← ident "retired")
  | "create_table" => return .createTable (← part j "table" TableDef.decode?)
  | "create_index" => return .createIndex (← part j "index" IndexDef.decode?)
  | "create_delete_trigger" => return .createDeleteTrigger (← part j "trigger" TriggerDef.decode?)
  | "create_materialized_view" => return .createView (← part j "view" ViewDef.decode?)
  | "refresh_materialized_view" =>
    return .refreshView (← part j "name" QualifiedName.decode?) (← part j "concurrently" Json.bool?)
  | "upsert" => do
    let (table, columns, rows) ← decodeRows j
    return .upsert table columns rows (← ident "conflict")
  | "insert" => do
    let (table, columns, rows) ← decodeRows j
    return .insert table columns rows
  | "copy_in" => do
    let (table, columns, rows) ← decodeRows j
    return .copyIn table columns rows
  | "delete" =>
    return .delete (← part j "table" QualifiedName.decode?) (← part j "predicate" Predicate.decode?)
  | "save_sync_token" => return .saveSyncToken (← ident "schema") (← part j "token" Json.text?)
  | other => throw (.internal ("unknown statement kind " ++ other))

end ContentReplica.Statement
