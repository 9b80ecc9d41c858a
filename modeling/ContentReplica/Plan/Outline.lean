import ContentReplica.Plan

/-!
# Plans in JSON

`PlanNode.outline` shows a plan as a tree of JSON objects: each node with its table and fields, and
each field with the way it is read.
-/

namespace ContentReplica

/-- The name of a kind of record. -/
def RecordKind.name : RecordKind → String
  | entry => "Entry"
  | asset => "Asset"

/-- A field of a node with the way it is read. -/
def PlanColumn.outline (c : PlanColumn) (access : Json) : Json :=
  .mkObj [("id", .str c.fieldId), ("column", .str c.column.text), ("localized", .bool c.localized),
    ("access", access)]

mutual

/-- A node with everything below it. -/
def PlanNode.outline : PlanNode → Json
  | .mk source hasLocalized fields =>
    .mkObj [("contentType", .str source.contentType), ("kind", .str source.kind.name),
      ("table", .str source.table.text), ("depth", .nat source.depth),
      ("hasLocalized", .bool hasLocalized), ("fields", .arr (outlineFields fields))]

/-- The fields of a node. -/
def outlineFields : List PlanField → List Json
  | [] => []
  | .value column type :: rest =>
    column.outline (.mkObj [("value", .str type.ddl)]) :: outlineFields rest
  | .link column target :: rest =>
    column.outline (.mkObj [("link", target.outline)]) :: outlineFields rest
  | .links column table target :: rest =>
    column.outline (.mkObj [("conTable", .str table.text), ("links", target.outline)])
      :: outlineFields rest

/-- What a link shows. -/
def LinkPlan.outline : LinkPlan → Json
  | .stub => .str "stub"
  | .expand node => node.outline

end

end ContentReplica
