import ContentReplica.Schema.Compiler
import ContentReplica.Sql.Statement

/-!
# Statements that set up a schema

`Schema.ddl` lists the statements that create a compiled schema in a namespace: the tables of the
sync token and of the locales, the tables of assets and content types with their indexes and link
tables, the delete triggers, and the rows of the locales.
-/

namespace ContentReplica.Schema

/-- The columns of the table that holds the sync token. -/
def syncTokenColumns : List ColumnDef :=
  [.key Column.id .integer, .required Column.token .text, .optional Column.updatedAt .date]

/-- The columns of the table of locales. -/
def localeColumns : List ColumnDef :=
  [.key Column.code .text, .optional Column.fallbackCode .text, .required Column.isDefault .boolean]

/-- Create an index of a table. -/
def indexStatement (table : QualifiedName) (i : IndexLayout) : Statement :=
  .createIndex ⟨i.name, table, i.columns, i.unique⟩

/-- Create a link table and its indexes. -/
def linkTableStatements (ns : Ident) (l : LinkTable) : List Statement :=
  let name : QualifiedName := ⟨ns, l.name⟩
  .createTable ⟨name, LinkTable.columns⟩ ::
    [Column.ownerId, Column.ownerSysId, Column.targetSysId].map fun column =>
      indexStatement name (.on l.name [column] false)

/-- Create a table with its indexes and link tables. -/
def tableStatements (ns : Ident) (t : TableLayout) : List Statement :=
  let name : QualifiedName := ⟨ns, t.name⟩
  .createTable ⟨name, t.columns⟩ :: t.indexes.map (indexStatement name)
    ++ t.linkTables.flatMap (linkTableStatements ns)

/-- The row of a locale: its code, the code it falls back to, and whether it is the default. -/
def localeRow (space : Space) (l : Locale) : Except Error (List Value) := do
  let fallback ← if l.isDefault then pure Value.null else Value.text <$> space.fallbackOf l.code
  return [.text l.code, fallback, .bool l.isDefault]

/-- The statements that create the schema in a namespace, with the locales of a space. -/
def ddl (s : Schema) (ns : Ident) (space : Space) : Except Error (List Statement) := do
  let rows ← space.locales.mapM (localeRow space)
  return [.createNamespace ns, .createTable ⟨⟨ns, syncTokenTable⟩, syncTokenColumns⟩,
      .createTable ⟨⟨ns, localesTable⟩, localeColumns⟩]
    ++ s.allTables.flatMap (tableStatements ns)
    ++ s.deleteTriggers.map (fun (table, links) => .createDeleteTrigger ⟨⟨ns, table⟩, links⟩)
    ++ [.upsert ⟨ns, localesTable⟩ localeColumns rows Column.code]

end ContentReplica.Schema
