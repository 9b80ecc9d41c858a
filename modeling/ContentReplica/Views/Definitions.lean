import ContentReplica.Config
import ContentReplica.Replica
import ContentReplica.Schema.Dependents
import ContentReplica.Sql.Statement

/-!
# The views of a replica

A replica has one materialized view for each content type and locale, which keeps what the query
function of the content type answers in that locale. A view is stale when a record of its content
type changes, or of a type that its documents embed; `Replica.affectedTypes` gives the content types
whose views a change reaches.
-/

namespace ContentReplica

/-- The refresh of one view. -/
structure RefreshJob where
  contentType : String
  locale : String
  view : QualifiedName
  deriving DecidableEq

namespace Replica

/-- The view of a table in a locale. -/
def viewDef (r : Replica) (table : Ident) (locale : String) : ViewDef :=
  ⟨⟨r.namespaceName, Naming.view table locale⟩, ⟨r.namespaceName, Naming.function table⟩, locale,
    Column.sysId⟩

/-- The views of a table, one for each locale. -/
def tableViews (r : Replica) (t : TableLayout) : List ViewDef :=
  r.space.localeCodes.map (r.viewDef t.name)

/-- The views of a content type, none if it was not compiled. -/
def typeViews (r : Replica) (contentType : String) : List ViewDef :=
  match r.schema.entryTable? contentType with
  | some t => r.tableViews t
  | none => []

/-- All views of the replica. -/
def viewDefs (r : Replica) : List ViewDef := r.schema.contentTypes.flatMap r.typeViews

/-- The statements that create all views. -/
def viewStatements (r : Replica) : List Statement := r.viewDefs.map .createView

/-- The content types whose views read a node, within the given number of references. -/
def affectedTypes (r : Replica) (depth : Nat) (node : String) : Except Error (List String) :=
  match r.schema.table? node with
  | none => .error (.contentTypeNotFound node)
  | some _ =>
    .ok <| ((r.schema.dependents node depth).filter fun id _ =>
      r.schema.contentTypes.contains id).keys

/-- The refreshes of the views of some content types. -/
def refreshJobs (r : Replica) (contentTypes : List String) : List RefreshJob :=
  contentTypes.flatMap fun contentType =>
    (r.typeViews contentType).map fun v => ⟨contentType, v.locale, v.name⟩

end Replica

end ContentReplica
