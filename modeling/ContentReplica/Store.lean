import ContentReplica.Store.Apply

/-!
# The store

`Store` is the database that everything is written to, together with the failures that are asked of
it and the counters by which its use is observed. `Store.execute` applies a batch as a whole or not
at all. A `Transaction` works on a snapshot of the data; its batches show to nobody until
`Store.commit` publishes the namespaces that it wrote, and one refused batch ends it.
-/

namespace ContentReplica

/-- A store. -/
structure Store where
  database : Database
  /-- A batch with a statement that one of these accepts fails. -/
  failures : List (Statement → Bool)
  /-- Whether batches take time, so that several can be under way at once. -/
  delayed : Bool
  /-- The number of batches and transactions that took effect. -/
  committed : Nat
  /-- The number of batches that were applied, inside transactions or not. -/
  applied : Nat
  /-- The greatest number of batches that were under way at once. -/
  maxInFlight : Nat

namespace Store

/-- A store without data. -/
def empty : Store := ⟨.empty, [], false, 0, 0, 0⟩

/-! ## Failures that are asked for -/

/-- The store with one more failure. -/
def failWhen (s : Store) (rule : Statement → Bool) : Store :=
  { s with failures := s.failures ++ [rule] }

/-- The store without failures. -/
def clearFailures (s : Store) : Store := { s with failures := [] }

/-- Refuse a batch that holds a statement for which a failure is asked. -/
def checkFailures (s : Store) (batch : List Statement) : Except StoreFault Unit :=
  match batch.find? fun statement => s.failures.any fun rule => rule statement with
  | some statement => .error (.injected statement.kind statement.target.text)
  | none => .ok ()

/-! ## Batches -/

/-- The store after it has seen some batches under way at once. -/
def observe (s : Store) (inFlight : Nat) : Store :=
  { s with maxInFlight := max s.maxInFlight inFlight }

/-- Apply a batch as a whole, or refuse it and change no data. -/
def execute (s : Store) (batch : List Statement) : Except Error Unit × Store :=
  let s := s.observe 1
  match (do s.checkFailures batch; s.database.applyAll batch) with
  | .ok d => (.ok (), { s with database := d, committed := s.committed + 1, applied := s.applied + 1 })
  | .error fault => (.error (.database fault), s)

/-- Answer a call. -/
def call (s : Store) (c : QueryCall) : Except Error QueryPage :=
  (s.database.call c).mapError .database

/-! ## Reading -/

/-- The namespace of the given name. -/
def namespace? (s : Store) (ns : Ident) : Option Namespace := s.database.namespaces.get? ns

/-- Whether a namespace exists. -/
def hasNamespace (s : Store) (ns : Ident) : Bool := s.database.namespaces.contains ns

/-- The sync token that is stored in a namespace. -/
def syncToken? (s : Store) (ns : Ident) : Option String := s.database.syncToken? ns

/-- The rows of a table in key order, none if it does not exist. -/
def rows (s : Store) (ns table : Ident) : List Row :=
  match s.database.table? ns table with
  | some t => t.rows.values
  | none => []

/-- The number of rows of every table of a namespace. -/
def tableCounts (s : Store) (ns : Ident) : List (Ident × Nat) :=
  match s.namespace? ns with
  | some n => n.tables.entries.map fun (name, t) => (name, t.rows.size)
  | none => []

/-- The bodies of the query functions of a namespace. -/
def functionBodies (s : Store) (ns : Ident) : List (Ident × String) :=
  match s.namespace? ns with
  | some n => n.functions.entries.map fun (name, plan) => (name, plan.body)
  | none => []

/-- The views of a namespace, each with the number of its last refresh. -/
def viewStamps (s : Store) (ns : Ident) : List (Ident × Nat) :=
  match s.namespace? ns with
  | some n => n.views.entries.map fun (name, view) => (name, view.refreshed)
  | none => []

/-- The number of the last refresh of a view. -/
def viewStamp? (s : Store) (ns view : Ident) : Option Nat :=
  ((s.namespace? ns).bind fun n => n.views.get? view).map View.refreshed

/-- Whether a namespace has a table or view of the given name. -/
def hasRelation (s : Store) (ns name : Ident) : Bool :=
  match s.namespace? ns with
  | some n => n.hasRelation name
  | none => false

end Store

/-! ## Transactions -/

/-- A transaction: its own copy of the data, the namespaces that it wrote, and whether a batch was
refused. -/
structure Transaction where
  working : Database
  written : List Ident
  aborted : Bool

namespace Store

/-- Begin a transaction on the data as they are now. -/
def begin (s : Store) : Transaction := ⟨s.database, [], false⟩

/-- Apply a batch inside a transaction. -/
def executeIn (s : Store) (t : Transaction) (batch : List Statement) :
    Except Error Unit × Transaction × Store :=
  if t.aborted then (.error (.database .transactionAborted), t, s)
  else
    match (do s.checkFailures batch; t.working.applyAll batch) with
    | .ok d =>
      (.ok (), ⟨d, t.written ++ batch.flatMap Statement.writes, false⟩,
        { s with applied := s.applied + 1 })
    | .error fault => (.error (.database fault), { t with aborted := true }, s)

/-- Put one namespace of a working copy in place of the published one. -/
def publish (working : Database) (d : Database) (name : Ident) : Database :=
  match working.namespaces.get? name with
  | some n => d.withNamespace name n
  | none => d.dropNamespace name

/-- End a transaction by publishing the namespaces that it wrote. -/
def commit (s : Store) (t : Transaction) : Except Error Unit × Store :=
  if t.aborted then (.error (.database .commitAfterAbort), s)
  else
    let d := t.written.foldl (publish t.working) s.database
    (.ok (), { s with
      database := { d with refreshes := max d.refreshes t.working.refreshes },
      committed := s.committed + 1 })

end Store

/-! ## Failures by kind and name -/

namespace Statement

/-- The name of the object that a statement is about: a namespace, a table, an index, a function, a
view, or the token that is stored. -/
def objectName : Statement → String
  | createNamespace name => name.text
  | dropNamespace name => name.text
  | swapNamespaces _ shadow _ => shadow.text
  | createTable t => t.name.name.text
  | createIndex i => i.name.text
  | createDeleteTrigger t => t.table.name.text
  | createFunction plan => plan.function.name.text
  | createView v => v.name.name.text
  | refreshView name _ => name.name.text
  | upsert table _ _ _ => table.name.text
  | insert table _ _ => table.name.text
  | copyIn table _ _ => table.name.text
  | delete table _ => table.name.text
  | saveSyncToken _ token => token

end Statement

/-- A failure of all statements of one kind whose object's name begins with a text, in one namespace
or in any. -/
structure FailureRule where
  kind : String
  beginning : String
  namespaceName? : Option String
  deriving DecidableEq

/-- Whether a statement is to fail. -/
def FailureRule.accepts (r : FailureRule) (s : Statement) : Bool :=
  s.kind == r.kind && r.beginning.toList.isPrefixOf s.objectName.toList
    && (match r.namespaceName? with
      | some name => s.target.text == name
      | none => true)

end ContentReplica
