import ContentReplica.Sql.Statement
import ContentReplica.Store.Condition

/-!
# The stored data

A `Database` holds namespaces, a `Namespace` its tables, indexes, query functions, materialized views
and delete triggers, and a `Table` its rows by key. The key of a row is the text of its primary key
column; a table without one numbers its rows.

A query function is kept as its plan and reads the tables of the namespace that it is in, so it keeps
working after the namespace is renamed.
-/

namespace ContentReplica

/-! ## Tables -/

/-- A table and its rows by key. -/
structure Table where
  columns : List ColumnDef
  rows : SortedMap String Row
  /-- The number of the last row of a table without primary key. -/
  sequence : Nat

namespace Table

/-- A table without rows. -/
def new (columns : List ColumnDef) : Table := ⟨columns, .empty, 0⟩

/-- The primary key column. -/
def keyColumn? (t : Table) : Option Ident := (primaryKey? t.columns).map ColumnDef.name

/-- Whether the table has a column. -/
def hasColumn (t : Table) (name : Ident) : Bool := t.columns.any (·.name == name)

/-- A number as a key, in twenty digits. -/
def sequenceKey (n : Nat) : String :=
  let digits := Nat.toDigits 10 n
  String.ofList (List.replicate (20 - digits.length) '0' ++ digits)

/-- The key of a row, and the table with the number it may have taken. -/
def keyOf (t : Table) (row : Row) : Except StoreFault (String × Table) :=
  match t.keyColumn? with
  | some column =>
    match (row.cell column).toText? with
    | some key => .ok (key, t)
    | none => .error (.nullKey column.text)
  | none =>
    let n := t.sequence + 1
    .ok (sequenceKey n, { t with sequence := n })

/-- Check that the table has the given columns. -/
def checkColumns (t : Table) (given : List Ident) : Except StoreFault Unit :=
  match given.find? fun c => !t.hasColumn c with
  | some c => .error (.noColumn c.text)
  | none => .ok ()

/-- A row of all columns, the given ones with their values and the others NULL. -/
def fullRow (t : Table) (given : List ColumnDef) (values : List Value) : Except StoreFault Row := do
  if given.length ≠ values.length then throw .rowWidth
  let blank : Row := t.columns.foldl (fun r c => r.insert c.name .null) .empty
  let row := (given.zip values).foldl (fun r (c, v) => r.insert c.name v) blank
  match t.columns.find? fun c => c.notNull && (row.cell c.name).isNull with
  | some c => throw (.nullColumn c.name.text)
  | none => return row

/-- Insert a row, or overwrite the given columns of the row with the same key. -/
def upsertRow (given : List ColumnDef) (t : Table) (values : List Value) :
    Except StoreFault Table := do
  let row ← t.fullRow given values
  let (key, t) ← t.keyOf row
  match t.rows.get? key with
  | some stored =>
    let merged := (given.zip values).foldl (fun r (c, v) => r.insert c.name v) stored
    return { t with rows := t.rows.insert key merged }
  | none => return { t with rows := t.rows.insert key row }

/-- Insert a row whose key is not there yet; `name` is the table's name in the refusal. -/
def insertRow (name : String) (given : List ColumnDef) (t : Table) (values : List Value) :
    Except StoreFault Table := do
  let row ← t.fullRow given values
  let (key, t) ← t.keyOf row
  if t.rows.contains key then throw (.duplicateKey key name)
  return { t with rows := t.rows.insert key row }

end Table

/-! ## Namespaces -/

/-- A materialized view: its rows, and when they were computed last. -/
structure View where
  definition : ViewDef
  rows : List Row
  refreshed : Nat

/-- A namespace. -/
structure Namespace where
  tables : SortedMap Ident Table
  /-- The table of each index. -/
  indexes : SortedMap Ident Ident
  functions : SortedMap Ident Plan
  views : SortedMap Ident View
  /-- The link tables whose edges go with a deleted row of a table. -/
  triggers : SortedMap Ident (List Ident)

namespace Namespace

/-- A namespace with nothing in it. -/
def empty : Namespace := ⟨.empty, .empty, .empty, .empty, .empty⟩

/-- A table that has to exist. -/
def table (n : Namespace) (name : Ident) : Except StoreFault Table :=
  match n.tables.get? name with
  | some t => .ok t
  | none => .error (.noRelation name.text)

/-- The namespace with a table replaced. -/
def withTable (n : Namespace) (name : Ident) (t : Table) : Namespace :=
  { n with tables := n.tables.insert name t }

/-- Whether there is a table or a view of the given name. -/
def hasRelation (n : Namespace) (name : Ident) : Bool :=
  n.tables.contains name || n.views.contains name

end Namespace

/-! ## Databases -/

/-- All namespaces, and the number of the last refresh of a view. -/
structure Database where
  namespaces : SortedMap Ident Namespace
  refreshes : Nat

namespace Database

/-- A database without namespaces. -/
def empty : Database := ⟨.empty, 0⟩

/-- A namespace that has to exist. -/
def «namespace» (d : Database) (name : Ident) : Except StoreFault Namespace :=
  match d.namespaces.get? name with
  | some n => .ok n
  | none => .error (.noNamespace name.text)

/-- The database with a namespace replaced. -/
def withNamespace (d : Database) (name : Ident) (n : Namespace) : Database :=
  { d with namespaces := d.namespaces.insert name n }

/-- The database without a namespace. -/
def dropNamespace (d : Database) (name : Ident) : Database :=
  { d with namespaces := d.namespaces.erase name }

/-- A table, if it exists. -/
def table? (d : Database) (ns name : Ident) : Option Table :=
  (d.namespaces.get? ns).bind fun n => n.tables.get? name

end Database

end ContentReplica
