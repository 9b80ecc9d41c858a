import ContentReplica.Sql.Wire
import ContentReplica.Store.Evaluator

/-!
# Applying statements

`Database.apply` is the effect of one statement on the stored data, and `Database.applyAll` that of a
batch, which ends at the first refusal. Creating what is already there changes nothing. Deleting rows
also deletes the edges that they own.
-/

namespace ContentReplica

namespace Namespace

/-- Delete the rows that satisfy a condition, and the edges that they own. -/
def deleteRows (n : Namespace) (name : Ident) (predicate : Predicate) :
    Except StoreFault Namespace := do
  let table ← n.table name
  let doomed := (table.rows.filter fun _ row => predicate.holds row).values.filterMap fun row =>
    (row.cell Column.id).toText?
  let kept := { table with rows := table.rows.filter fun _ row => !predicate.holds row }
  ((n.triggers.get? name).getD []).foldlM (fun n link => do
    let edges ← n.table link
    let survives (row : Row) : Bool :=
      match (row.cell Column.ownerId).toText? with
      | some owner => !doomed.contains owner
      | none => true
    return n.withTable link { edges with rows := edges.rows.filter fun _ row => survives row })
    (n.withTable name kept)

/-- The row that holds the sync token. -/
def tokenRow (token : String) : Row :=
  .ofList [(Column.id, .int 0), (Column.token, .text token), (Column.updatedAt, .null)]

/-- The key of the row that holds the sync token. -/
def tokenKey : String := "0"

/-- Create an index on columns that have to exist. -/
def createIndex (n : Namespace) (i : IndexDef) : Except StoreFault Namespace := do
  (← n.table i.table.name).checkColumns i.columns
  return { n with indexes := n.indexes.insert i.name i.table.name }

/-- Create a delete trigger on a table that has to exist. -/
def createTrigger (n : Namespace) (t : TriggerDef) : Except StoreFault Namespace := do
  let _ ← n.table t.table.name
  return { n with triggers := n.triggers.insert t.table.name t.linkTables }

/-- Create a query function; the relations it reads have to exist. -/
def createFunction (n : Namespace) (plan : Plan) : Except StoreFault Namespace := do
  n.checkPlan plan
  return { n with functions := n.functions.insert plan.function.name plan }

/-- Create a table unless there is one of that name. -/
def createTable (n : Namespace) (t : TableDef) : Namespace :=
  if n.tables.contains t.name.name then n else n.withTable t.name.name (.new t.columns)

/-- Create a view with its rows unless there is one of that name. -/
def createView (n : Namespace) (v : ViewDef) (stamp : Nat) : Except StoreFault Namespace := do
  if n.views.contains v.name.name then return n
  let rows ← n.viewRows v
  return { n with views := n.views.insert v.name.name ⟨v, rows, stamp⟩ }

/-- Compute the rows of a view anew. -/
def refreshView (n : Namespace) (name : QualifiedName) (stamp : Nat) :
    Except StoreFault Namespace := do
  match n.views.get? name.name with
  | none => throw (.noRelation name.text)
  | some view =>
    let rows ← n.viewRows view.definition
    return { n with views := n.views.insert name.name ⟨view.definition, rows, stamp⟩ }

/-- Insert rows, or overwrite the given columns of rows with the same key. -/
def upsert (n : Namespace) (name : Ident) (columns : List ColumnDef) (rows : List (List Value))
    (conflict : Ident) : Except StoreFault Namespace := do
  let table ← n.table name
  table.checkColumns (columns.map ColumnDef.name)
  if table.keyColumn? ≠ some conflict then throw (.noUniqueKey conflict.text)
  return n.withTable name (← rows.foldlM (Table.upsertRow columns) table)

/-- Insert rows whose keys are not there yet. -/
def insert (n : Namespace) (name : QualifiedName) (columns : List ColumnDef)
    (rows : List (List Value)) : Except StoreFault Namespace := do
  let table ← n.table name.name
  table.checkColumns (columns.map ColumnDef.name)
  return n.withTable name.name (← rows.foldlM (Table.insertRow name.text columns) table)

/-- Store the sync token in place of the last one. -/
def saveToken (n : Namespace) (token : String) : Except StoreFault Namespace := do
  let table ← n.table syncTokenTable
  return n.withTable syncTokenTable { table with rows := table.rows.insert tokenKey (tokenRow token) }

end Namespace

namespace Database

/-- Change a namespace that has to exist. -/
def update (d : Database) (name : Ident) (f : Namespace → Except StoreFault Namespace) :
    Except StoreFault Database := do
  return d.withNamespace name (← f (← d.namespace name))

/-- Promote a namespace to live; the former live one and what stood under the retired name go. -/
def swap (d : Database) (live shadow retired : Ident) : Except StoreFault Database :=
  let d := d.dropNamespace retired
  match d.namespaces.get? shadow with
  | none => .error (.noNamespace shadow.text)
  | some promoted =>
    let d := d.dropNamespace shadow
    let d :=
      match d.namespaces.get? live with
      | some former => (d.dropNamespace live).withNamespace retired former
      | none => d
    .ok ((d.withNamespace live promoted).dropNamespace retired)

/-- The effect of one statement. -/
def apply (d : Database) : Statement → Except StoreFault Database
  | .createNamespace name =>
    .ok (if d.namespaces.contains name then d else d.withNamespace name .empty)
  | .dropNamespace name => .ok (d.dropNamespace name)
  | .swapNamespaces live shadow retired => d.swap live shadow retired
  | .createTable t => d.update t.name.namespaceName fun n => .ok (n.createTable t)
  | .createIndex i => d.update i.table.namespaceName (·.createIndex i)
  | .createDeleteTrigger t => d.update t.table.namespaceName (·.createTrigger t)
  | .createFunction plan => d.update plan.function.namespaceName (·.createFunction plan)
  | .createView v =>
    let d := { d with refreshes := d.refreshes + 1 }
    d.update v.name.namespaceName (·.createView v d.refreshes)
  | .refreshView name _ =>
    let d := { d with refreshes := d.refreshes + 1 }
    d.update name.namespaceName (·.refreshView name d.refreshes)
  | .upsert table columns rows conflict =>
    d.update table.namespaceName (·.upsert table.name columns rows conflict)
  | .insert table columns rows => d.update table.namespaceName (·.insert table columns rows)
  | .copyIn table columns rows => d.update table.namespaceName (·.insert table columns rows)
  | .delete table predicate => d.update table.namespaceName (·.deleteRows table.name predicate)
  | .saveSyncToken name token => d.update name (·.saveToken token)

/-- The effect of a batch of statements. -/
def applyAll (d : Database) (batch : List Statement) : Except StoreFault Database :=
  batch.foldlM apply d

/-! ## Reading -/

/-- The rows that a call reads. -/
def callRows (d : Database) (c : QueryCall) : Except StoreFault (List Row) :=
  match c.source with
  | .function name => do
    let n ← d.namespace name.namespaceName
    match n.functions.get? name.name with
    | some plan => n.evaluate plan c.locale
    | none => throw (.noFunction name.text)
  | .view name => do
    let n ← d.namespace name.namespaceName
    match n.views.get? name.name with
    | some view => return view.rows
    | none => throw (.noRelation name.text)

/-- The rows that satisfy the filters of a call, in its order. A sort asks for rows that compare
consistently. Where they do not, it may fail and nothing is promised; here they come in some order. -/
def selectRows (c : QueryCall) (rows : List Row) : List Row :=
  insertionSort (fun a b => Row.compareBy c.effectiveOrder a b == .lt)
    (rows.filter (Predicate.and c.filters).holds)

/-- Answer a call: the number of rows that satisfy the filters, and the documents of the page. -/
def call (d : Database) (c : QueryCall) : Except StoreFault QueryPage := do
  let rows := selectRows c (← d.callRows c)
  let page := (rows.drop c.skip).take c.take
  return ⟨rows.length, .arr (page.map fun r => (r.cell Column.data).toJson)⟩

/-- The sync token that is stored in a namespace. -/
def syncToken? (d : Database) (ns : Ident) : Option String :=
  ((d.table? ns syncTokenTable).bind fun t => t.rows.get? Namespace.tokenKey).bind fun row =>
    row.text? Column.token

/-- The documents of a table's rows by key, as they are hashed. -/
def rowsJson (t : Table) : Json :=
  .obj (t.rows.entries.map fun (key, row) =>
    (key, .obj (row.entries.map fun (c, v) => (c.text, v.encode))))

/-- A digest of the rows of a table, if it exists. -/
def tableDigest? (d : Database) (ns name : Ident) : Option String :=
  (d.table? ns name).map fun t => Blake3.hexDigest (rowsJson t).render

end Database

end ContentReplica
