import ContentReplica.Replication.PageBatch

/-!
# Reports in JSON

The JSON form of the report on a cycle.
-/

namespace ContentReplica

/-- A mode in JSON. -/
def SyncMode.encode : SyncMode → Json
  | initial => .str "Initial"
  | delta => .str "Delta"

/-- A report in JSON. -/
def SyncReport.encode (r : SyncReport) : Json :=
  .mkObj [("mode", r.mode.encode), ("pages", .nat r.pages), ("rows_upserted", .nat r.rowsUpserted),
    ("rows_copied", .nat r.rowsCopied), ("deletions", .nat r.deletions),
    ("edges_replaced", .nat r.edgesReplaced), ("edges_cleared", .nat r.edgesCleared),
    ("skipped", .nat r.skipped), ("token", .ofText? r.token?),
    ("schema_changed", .bool r.schemaChanged)]

end ContentReplica
