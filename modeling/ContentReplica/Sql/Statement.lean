import ContentReplica.Plan.Body

/-!
# Statements

`Statement` is one statement that changes the database. `Statement.render` writes it: definitions as
plain text, changes of rows as templates with their values bound. Rows are inserted in chunks of
`rowsPerStatement`; a bulk copy renders its command only, the rows being sent beside it.
-/

namespace ContentReplica

/-- The rows of one statement at most. -/
def rowsPerStatement : Nat := 500

/-- A statement that changes the database. -/
inductive Statement where
  | createNamespace (name : Ident)
  | dropNamespace (name : Ident)
  /-- Promote `shadow` to `live`; the former live namespace is retired and dropped. -/
  | swapNamespaces (live shadow retired : Ident)
  | createTable (table : TableDef)
  | createIndex (index : IndexDef)
  | createDeleteTrigger (trigger : TriggerDef)
  | createFunction (plan : Plan)
  | createView (view : ViewDef)
  | refreshView (name : QualifiedName) (concurrently : Bool)
  /-- Insert rows, or overwrite the given columns of a row with the same key. -/
  | upsert (table : QualifiedName) (columns : List ColumnDef) (rows : List (List Value))
      (conflict : Ident)
  | insert (table : QualifiedName) (columns : List ColumnDef) (rows : List (List Value))
  | copyIn (table : QualifiedName) (columns : List ColumnDef) (rows : List (List Value))
  | delete (table : QualifiedName) (predicate : Predicate)
  | saveSyncToken (namespaceName : Ident) (token : String)

namespace Statement

/-- The name of the kind of a statement. -/
def kind : Statement → String
  | createNamespace _ => "create_schema"
  | dropNamespace _ => "drop_schema"
  | swapNamespaces .. => "swap_schemas"
  | createTable _ => "create_table"
  | createIndex _ => "create_index"
  | createDeleteTrigger _ => "create_delete_trigger"
  | createFunction _ => "create_function"
  | createView _ => "create_materialized_view"
  | refreshView .. => "refresh_materialized_view"
  | upsert .. => "upsert"
  | insert .. => "insert"
  | copyIn .. => "copy_in"
  | delete .. => "delete"
  | saveSyncToken .. => "save_sync_token"

/-- The namespace that a statement writes to, the live one of a swap. -/
def target : Statement → Ident
  | createNamespace name => name
  | dropNamespace name => name
  | swapNamespaces live _ _ => live
  | createTable t => t.name.namespaceName
  | createIndex i => i.table.namespaceName
  | createDeleteTrigger t => t.table.namespaceName
  | createFunction p => p.function.namespaceName
  | createView v => v.name.namespaceName
  | refreshView name _ => name.namespaceName
  | upsert table _ _ _ => table.namespaceName
  | insert table _ _ => table.namespaceName
  | copyIn table _ _ => table.namespaceName
  | delete table _ => table.namespaceName
  | saveSyncToken name _ => name

/-- All namespaces that a statement may change. -/
def writes : Statement → List Ident
  | swapNamespaces live shadow retired => [live, shadow, retired]
  | s => [s.target]

/-- The rows that a bulk copy sends. -/
def copiedRows? : Statement → Option (List (List Value))
  | copyIn _ _ rows => some rows
  | _ => none

/-! ## Rendering -/

/-- A statement without values. -/
def plain (sql : String) : Rendered := ⟨sql, []⟩

/-- One row as a tuple of values, each bound with the type of its column. -/
def tuple (columns : List ColumnDef) (row : List Value) : Template :=
  .text "(" ::
    (Template.join ", " ((row.zip columns).map fun (v, c) => Template.value v c.type)
      ++ Template.lit ")")

/-- An insertion of some rows. -/
def insertTemplate (table : QualifiedName) (columns : List ColumnDef) (ending : String)
    (rows : List (List Value)) : Template :=
  .text ("INSERT INTO " ++ table.quoted ++ " (" ++ Ident.quotedList (columns.map ColumnDef.name)
      ++ ") VALUES ")
    :: (Template.join ", " (rows.map (tuple columns)) ++ Template.lit ending)

/-- Insertions of rows, in chunks. -/
def renderInsert (table : QualifiedName) (columns : List ColumnDef) (rows : List (List Value))
    (ending : String) : List Rendered :=
  (Plan.chunks rowsPerStatement rows).map fun chunk =>
    (insertTemplate table columns ending chunk).render

/-- What an upsert does with a row whose key is already there. -/
def conflictClause (columns : List ColumnDef) (conflict : Ident) : String :=
  let updates := (columns.filter fun c => c.name ≠ conflict).map fun c =>
    c.name.quoted ++ " = EXCLUDED." ++ c.name.quoted
  if updates.isEmpty then " ON CONFLICT (" ++ conflict.quoted ++ ") DO NOTHING"
  else " ON CONFLICT (" ++ conflict.quoted ++ ") DO UPDATE SET " ++ ", ".intercalate updates

/-- The function of a delete trigger and the trigger itself. The link tables are looked up in the
namespace of the table that fires, so the trigger survives a renaming. -/
def renderTrigger (t : TriggerDef) : List Rendered :=
  let function : QualifiedName := ⟨t.table.namespaceName, t.table.name.withSuffix "_cascade"⟩
  let deletes := " ".intercalate <| t.linkTables.map fun link =>
    "EXECUTE format('DELETE FROM %I.%I WHERE owner_id = $1', TG_TABLE_SCHEMA, "
      ++ quoteLiteral link.text ++ ") USING OLD.id;"
  [plain ("CREATE OR REPLACE FUNCTION " ++ function.quoted
      ++ "() RETURNS trigger LANGUAGE plpgsql AS $$ BEGIN " ++ deletes ++ " RETURN OLD; END $$"),
    plain ("DROP TRIGGER IF EXISTS " ++ function.name.quoted ++ " ON " ++ t.table.quoted),
    plain ("CREATE TRIGGER " ++ function.name.quoted ++ " AFTER DELETE ON " ++ t.table.quoted
      ++ " FOR EACH ROW EXECUTE FUNCTION " ++ function.quoted ++ "()")]

/-- Drop a namespace with everything in it. -/
def renderDrop (name : Ident) : Rendered :=
  plain ("DROP SCHEMA IF EXISTS " ++ name.quoted ++ " CASCADE")

/-- The definition of a query function. -/
def renderFunction (p : Plan) : Rendered :=
  let columns := p.outputColumns.map fun c => c.name.quoted ++ " " ++ c.type.ddl
  plain ("CREATE OR REPLACE FUNCTION " ++ p.function.quoted ++ "(_locale text) RETURNS TABLE ("
    ++ ", ".intercalate columns ++ ") LANGUAGE sql STABLE BEGIN ATOMIC " ++ p.body ++ "; END")

/-- The statement as it is sent to the database, in one text or several. -/
def render : Statement → List Rendered
  | createNamespace name => [plain ("CREATE SCHEMA IF NOT EXISTS " ++ name.quoted)]
  | dropNamespace name => [renderDrop name]
  | swapNamespaces live shadow retired =>
    [renderDrop retired,
      plain ("DO $$ BEGIN IF EXISTS (SELECT 1 FROM pg_namespace WHERE nspname = "
        ++ quoteLiteral live.text ++ ") THEN ALTER SCHEMA " ++ live.quoted ++ " RENAME TO "
        ++ retired.quoted ++ "; END IF; END $$"),
      plain ("ALTER SCHEMA " ++ shadow.quoted ++ " RENAME TO " ++ live.quoted),
      renderDrop retired]
  | createTable t =>
    [plain ("CREATE TABLE IF NOT EXISTS " ++ t.name.quoted ++ " ("
      ++ ", ".intercalate (t.columns.map ColumnDef.ddl) ++ ")")]
  | createIndex i =>
    [plain ("CREATE " ++ (if i.unique then "UNIQUE " else "") ++ "INDEX IF NOT EXISTS "
      ++ i.name.quoted ++ " ON " ++ i.table.quoted ++ " (" ++ Ident.quotedList i.columns ++ ")")]
  | createDeleteTrigger t => renderTrigger t
  | createFunction p => [renderFunction p]
  | createView v =>
    [plain ("CREATE MATERIALIZED VIEW IF NOT EXISTS " ++ v.name.quoted ++ " AS SELECT * FROM "
        ++ v.function.quoted ++ "(" ++ quoteLiteral v.locale ++ ") WITH DATA"),
      plain ("CREATE UNIQUE INDEX IF NOT EXISTS " ++ (v.name.name.withSuffix "_key").quoted ++ " ON "
        ++ v.name.quoted ++ " (" ++ v.uniqueKey.quoted ++ ")")]
  | refreshView name concurrently =>
    [plain ("REFRESH MATERIALIZED VIEW " ++ (if concurrently then "CONCURRENTLY " else "")
      ++ name.quoted)]
  | upsert table columns rows conflict =>
    renderInsert table columns rows (conflictClause columns conflict)
  | insert table columns rows => renderInsert table columns rows ""
  | copyIn table columns _ =>
    [plain ("COPY " ++ table.quoted ++ " (" ++ Ident.quotedList (columns.map ColumnDef.name)
      ++ ") FROM STDIN WITH (FORMAT csv)")]
  | delete table predicate =>
    [Template.render (.text ("DELETE FROM " ++ table.quoted ++ " WHERE ")
      :: predicate.template none)]
  | saveSyncToken name token =>
    [Template.render (.text ("INSERT INTO " ++ name.quoted ++ "." ++ syncTokenTable.quoted
        ++ " (\"id\", \"token\", \"updated_at\") VALUES (0, ")
      :: (Template.value (.text token) .text
        ++ Template.lit (", now()) ON CONFLICT (\"id\") DO UPDATE SET \"token\" = EXCLUDED.\"token\","
          ++ " \"updated_at\" = EXCLUDED.\"updated_at\"")))]

end Statement

end ContentReplica
