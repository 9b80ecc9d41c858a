import ContentReplica.Replication.PageBatch
import ContentReplica.Schema.Dependents

/-!
# Copying pages in bulk

A bulk load copies the pages of the whole feed into empty tables, where a row may be copied only once.
`CopyState` remembers which records were copied by earlier pages (`CopyState.copied`). A page that
delivers or deletes one of them first removes its rows; within a page the last delivery of a record
counts, and a deleted record is not copied at all.
-/

namespace ContentReplica

/-- Something kept for records, by table and identity. -/
structure ByRecord (α : Type) where
  tables : SortedMap Ident (SortedMap String α)

namespace ByRecord

variable {α : Type}

/-- Nothing kept. -/
def empty : ByRecord α := ⟨.empty⟩

/-- What is kept for a record. -/
def get? (m : ByRecord α) (table : Ident) (sysId : String) : Option α :=
  (m.tables.get? table).bind fun records => records.get? sysId

/-- Keep something for a record. -/
def put (m : ByRecord α) (table : Ident) (sysId : String) (x : α) : ByRecord α :=
  ⟨m.tables.insert table (((m.tables.get? table).getD .empty).insert sysId x)⟩

/-- Whether something is kept for a record. -/
def has (m : ByRecord α) (table : Ident) (sysId : String) : Bool := (m.get? table sysId).isSome

/-- The tables that keep something under an identity. -/
def tablesOf (m : ByRecord α) (sysId : String) : List Ident :=
  (m.tables.filter fun _ records => records.contains sysId).keys

/-- Drop what is kept under an identity, in every table. -/
def drop (m : ByRecord α) (sysId : String) : ByRecord α :=
  ⟨m.tables.mapValues fun _ records => records.erase sysId⟩

/-- The tables and identities of all records. -/
def ids (m : ByRecord α) : List (Ident × String) :=
  m.tables.entries.flatMap fun (table, records) => records.keys.map (table, ·)

end ByRecord

/-- The work on one page of a bulk load. -/
structure CopyState where
  /-- The rows to be copied. -/
  records : ByRecord RecordRows
  /-- The records that earlier pages copied. -/
  copied : ByRecord Unit
  /-- The records whose rows have to be removed first. -/
  stale : ByRecord Unit
  /-- The number of tombstones that met a record. -/
  deletions : Nat

namespace CopyState

/-- The state after the records of a page, given what earlier pages copied. -/
def ofRecords (copied : ByRecord Unit) (records : List RecordRows) : CopyState :=
  let byRecord := records.foldl (fun m r => m.put r.table r.sysId r) ByRecord.empty
  let again := byRecord.ids.filter fun (table, sysId) => copied.has table sysId
  ⟨byRecord, copied, again.foldl (fun m (table, sysId) => m.put table sysId ()) .empty, 0⟩

/-- The state after a tombstone, which addresses every table. -/
def bury (s : CopyState) (sysId : String) : CopyState :=
  let tables := s.copied.tablesOf sysId
  let hit := !(s.records.tablesOf sysId).isEmpty || !tables.isEmpty
  { records := s.records.drop sysId
    copied := s.copied.drop sysId
    stale := tables.foldl (fun m table => m.put table sysId ()) s.stale
    deletions := if hit then s.deletions + 1 else s.deletions }

/-- The state after all tombstones of a page. -/
def buryAll (s : CopyState) (deletions : List Tombstone) : CopyState :=
  deletions.foldl (fun s t => s.bury t.sysId) s

/-- The records copied once this page is. -/
def copiedAfter (s : CopyState) : ByRecord Unit :=
  s.records.ids.foldl (fun m (table, sysId) => m.put table sysId ()) s.copied

/-- The rows to be copied into each table. -/
def tableRows (s : CopyState) : List (Ident × List ColumnDef × List (List Value)) :=
  s.records.tables.entries.filterMap fun (table, records) =>
    match records.values with
    | [] => none
    | first :: rest => some (table, first.columns, (first :: rest).flatMap RecordRows.rows)

/-- The edges to be copied into each link table. -/
def linkRows (s : CopyState) : SortedMap Ident (List (List Value)) :=
  let sets := s.records.tables.values.flatMap fun records => records.values.flatMap RecordRows.edges
  sets.foldl (fun m set => m.insert set.linkTable (((m.get? set.linkTable).getD []) ++ set.rows))
    .empty

/-- Copy rows into a table, if there are any. -/
def copyStatement? (ns table : Ident) (columns : List ColumnDef) (rows : List (List Value)) :
    Option Statement :=
  if rows.isEmpty then none else some (.copyIn ⟨ns, table⟩ columns rows)

/-- The batch of the page: removals of stale rows, then one copy for each table and link table. -/
def batch (s : CopyState) (ns : Ident) : List Statement :=
  s.stale.ids.map (fun (table, sysId) => Mapping.deleteRecord ns table sysId)
    ++ s.tableRows.filterMap (fun (table, columns, rows) => copyStatement? ns table columns rows)
    ++ s.linkRows.entries.filterMap (fun (table, rows) =>
      copyStatement? ns table LinkTable.columns rows)

/-- The number of rows that the batch copies, edges apart. -/
def rowCount (s : CopyState) : Nat :=
  s.tableRows.foldl (fun n (_, _, rows) => n + rows.length) 0

end CopyState

end ContentReplica
