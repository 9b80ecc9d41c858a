import ContentReplica.Sql.Definition

/-!
# Query plans

A `Plan` says how the documents of one content type are put together: a tree of `PlanNode`s, one
for every table that is read, each with its fields. A link field either embeds the document of its
target, a child node, or gives the target's identity only (`LinkPlan.stub`).

The tree is what both readings of a query function share: its SQL body and its evaluation in the
store.
-/

namespace ContentReplica

/-- The kind of record that a table holds. -/
inductive RecordKind where
  | entry
  | asset
  deriving DecidableEq, Inhabited

/-- The table that a node reads, and how many links lead to it. -/
structure NodeSource where
  contentType : String
  kind : RecordKind
  table : QualifiedName
  depth : Nat
  deriving DecidableEq, Inhabited

/-- A field of a node: its key in documents and its column. -/
structure PlanColumn where
  fieldId : String
  column : Ident
  localized : Bool
  deriving DecidableEq, Inhabited

mutual

/-- One table level of a plan. `hasLocalized` tells whether a localized field occurs in the node or
below it. -/
inductive PlanNode where
  | mk (source : NodeSource) (hasLocalized : Bool) (fields : List PlanField)

/-- How one field is read. -/
inductive PlanField where
  /-- A plain column. -/
  | value (column : PlanColumn) (type : SqlType)
  /-- A column that holds the identity of the target. -/
  | link (column : PlanColumn) (target : LinkPlan)
  /-- The rows of a link table. -/
  | links (column : PlanColumn) (linkTable : QualifiedName) (target : LinkPlan)

/-- What a link shows of its target. -/
inductive LinkPlan where
  /-- The target's identity. -/
  | stub
  /-- The target's document. -/
  | expand (node : PlanNode)

end

namespace PlanField

/-- The key and column of a field. -/
def column : PlanField → PlanColumn
  | value c _ => c
  | link c _ => c
  | links c _ _ => c

/-- The node of the target's document, if the field embeds it. -/
def child? : PlanField → Option PlanNode
  | link _ (.expand node) => some node
  | links _ _ (.expand node) => some node
  | _ => none

end PlanField

namespace PlanNode

/-- The table of a node. -/
def source : PlanNode → NodeSource
  | mk s _ _ => s

/-- Whether a localized field occurs in the node or below it. -/
def hasLocalized : PlanNode → Bool
  | mk _ l _ => l

/-- The fields of a node. -/
def fields : PlanNode → List PlanField
  | mk _ _ fs => fs

/-- The nodes whose documents are embedded directly, in field order. -/
def children (n : PlanNode) : List PlanNode := n.fields.filterMap PlanField.child?

mutual

/-- A node and all nodes below it. -/
def subtree : PlanNode → List PlanNode
  | .mk s l fs => .mk s l fs :: fieldsSubtree fs

/-- The nodes below a list of fields. -/
def fieldsSubtree : List PlanField → List PlanNode
  | [] => []
  | .value _ _ :: rest => fieldsSubtree rest
  | .link _ target :: rest => linkSubtree target ++ fieldsSubtree rest
  | .links _ _ target :: rest => linkSubtree target ++ fieldsSubtree rest

/-- The nodes that a link embeds. -/
def linkSubtree : LinkPlan → List PlanNode
  | .stub => []
  | .expand node => subtree node

end

/-- The number of nodes of a tree. -/
def nodeCount (n : PlanNode) : Nat := n.subtree.length

/-- The depth of the deepest node of a tree. -/
def maxDepth (n : PlanNode) : Nat := n.subtree.foldl (fun d m => max d m.source.depth) 0

end PlanNode

/-- The plan of the query function of one content type. -/
structure Plan where
  contentType : String
  function : QualifiedName
  /-- The table of locales that the function consults. -/
  locales : QualifiedName
  maxDepth : Nat
  root : PlanNode

namespace Plan

/-- The column that a field of the root gives the function, if it gives one. -/
def fieldColumn? : PlanField → Option ColumnDef
  | .value c type => some (.optional c.column type)
  | .link c _ => some (.optional c.column .text)
  | .links _ _ _ => none

/-- The columns that the function returns. -/
def outputColumns (p : Plan) : List ColumnDef :=
  [.optional Column.sysId .text, .optional Column.locale .text, .optional Column.version .integer,
    .optional Column.createdAt .date, .optional Column.updatedAt .date]
    ++ p.root.fields.filterMap fieldColumn? ++ [.optional Column.data .jsonb]

/-- The type of a column that the function returns. -/
def outputType? (p : Plan) (column : Ident) : Option SqlType :=
  (p.outputColumns.find? fun c => c.name == column).map ColumnDef.type

end Plan

end ContentReplica
