import ContentReplica.Replication.Rows
import ContentReplica.Sql.Statement

/-!
# A page as a batch

`Mapping.pageBatch` is the batch that brings a page of news into a namespace: for each record an
upsert of its rows, the removal of rows in locales that it no longer has, and the replacement of its
edges; then the removal of deleted records; and at last the token at which the feed continues. Rows
and token change together.
-/

namespace ContentReplica

/-! ## Reports -/

/-- How a cycle brings its pages into the store. -/
inductive SyncMode where
  /-- Everything is copied from the start of the feed. -/
  | initial
  /-- News are applied page by page. -/
  | delta
  deriving DecidableEq

/-- What a cycle did. -/
structure SyncReport where
  mode : SyncMode
  pages : Nat := 0
  rowsUpserted : Nat := 0
  rowsCopied : Nat := 0
  deletions : Nat := 0
  /-- Arrays of links whose edges were replaced. -/
  edgesReplaced : Nat := 0
  /-- Arrays of links that were emptied because the payload did not carry them. -/
  edgesCleared : Nat := 0
  /-- Records and tombstones of content types without a table. -/
  skipped : Nat := 0
  token? : Option String := none
  /-- Whether definitions were delivered that differ from the compiled ones. -/
  schemaChanged : Bool := false
  deriving DecidableEq

namespace Mapping

/-! ## The records of a page -/

/-- Whether an entry's content type has a table. -/
def hasTable (m : Mapping) (e : Entry) : Bool := (m.schema.entryTable? e.contentType).isSome

/-- The rows of the records of a page: of its entries with a table, then of its assets. -/
def pageRecords (m : Mapping) (p : SyncPage) : Except Error (List RecordRows) := do
  return (← (p.entries.filter m.hasTable).mapM m.entryRows) ++ p.assets.map m.assetRows

/-- The number of entries of a page without a table. -/
def skippedEntries (m : Mapping) (p : SyncPage) : Nat :=
  p.entries.countP fun e => !m.hasTable e

/-! ## Statements -/

/-- Remove the rows of a record. -/
def deleteRecord (ns table : Ident) (sysId : String) : Statement :=
  .delete ⟨ns, table⟩ (.textEq Column.sysId.text sysId)

/-- Replace the edges of one array of links. -/
def edgeStatements (ns : Ident) (sysId : String) (s : EdgeSet) : List Statement :=
  let table : QualifiedName := ⟨ns, s.linkTable⟩
  .delete table (.textEq Column.ownerSysId.text sysId) ::
    if s.rows.isEmpty then [] else [.insert table LinkTable.columns s.rows]

/-- Bring the rows and edges of a record up to date. -/
def recordStatements (ns : Ident) (r : RecordRows) : List Statement :=
  let table : QualifiedName := ⟨ns, r.table⟩
  [.upsert table r.columns r.rows Column.id,
    .delete table (.and [.textEq Column.sysId.text r.sysId,
      .noneOf ⟨Column.locale, .text⟩ (r.locales.map .text)])]
    ++ r.edges.flatMap (edgeStatements ns r.sysId)

/-- The tables that a tombstone addresses, none if its content type has no table. -/
def tombstoneTables? (m : Mapping) (t : Tombstone) : Option (List Ident) :=
  match t.kind, t.contentType? with
  | .deletedAsset, _ => some [assetLayout.name]
  | .deletedEntry, some contentType =>
    (m.schema.entryTable? contentType).map fun table => [table.name]
  | .deletedEntry, none => some (m.schema.tables.map TableLayout.name)

/-- Remove a deleted record. -/
def tombstoneStatements (m : Mapping) (ns : Ident) (t : Tombstone) : List Statement :=
  ((m.tombstoneTables? t).getD []).map fun table => deleteRecord ns table t.sysId

/-- The batch that brings a page into a namespace. -/
def pageBatch (m : Mapping) (ns : Ident) (p : SyncPage) : Except Error (List Statement) := do
  let records ← m.pageRecords p
  return records.flatMap (recordStatements ns) ++ p.deletions.flatMap (m.tombstoneStatements ns)
    ++ [.saveSyncToken ns p.cursor.token]

/-! ## Counting -/

/-- The report of a cycle with the work of one page's batch added. -/
def countPage (m : Mapping) (p : SyncPage) (records : List RecordRows) (r : SyncReport) :
    SyncReport :=
  let edges := records.flatMap RecordRows.edges
  let addressed := p.deletions.countP fun t => (m.tombstoneTables? t).isSome
  { r with
    rowsUpserted := records.foldl (fun n record => n + record.rows.length) r.rowsUpserted
    deletions := r.deletions + addressed
    edgesReplaced := r.edgesReplaced + edges.countP (·.present)
    edgesCleared := r.edgesCleared + edges.countP (!·.present)
    skipped := r.skipped + m.skippedEntries p + (p.deletions.length - addressed) }

/-- The report of a cycle after the batch of a page was made. -/
def reportPage (m : Mapping) (p : SyncPage) (r : SyncReport) : Except Error SyncReport := do
  return m.countPage p (← m.pageRecords p) r

end Mapping

end ContentReplica
