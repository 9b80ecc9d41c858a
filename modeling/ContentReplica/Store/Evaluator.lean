import ContentReplica.Store.Database
import ContentReplica.Store.Order

/-!
# Evaluating query plans

`Namespace.evaluate` computes the rows of a query function in one locale: a row for every record that
has a row in the default locale, with its columns and its document. A localized value is the first
one that is not NULL in the requested, the fallback and the default locale; the elements of an array
of links come from the first of the three that has any.
-/

namespace ContentReplica

/-- The locales in which values are looked up. -/
structure LocaleContext where
  requested : String
  fallback : String
  default : String

namespace Namespace

/-- The locales for a request, none if the requested one or a default is not in the table. -/
def localeContext? (n : Namespace) (plan : Plan) (locale : String) :
    Except StoreFault (Option LocaleContext) := do
  let rows := (← n.table plan.locales.name).rows.values
  let isDefault (r : Row) : Bool :=
    match r.get? Column.isDefault with
    | some (.bool true) => true
    | _ => false
  let default? := (rows.find? isDefault).bind fun r => r.text? Column.code
  let requested? := rows.find? fun r => r.text? Column.code == some locale
  match requested?, default? with
  | some row, some default =>
    return some ⟨locale, (row.text? Column.fallbackCode).getD default, default⟩
  | _, _ => return none

/-- The row of a record in one locale. -/
def findRow? (n : Namespace) (table : Ident) (sysId locale : String) :
    Except StoreFault (Option Row) := do
  return (← n.table table).rows.values.find? fun r =>
    r.text? Column.sysId == some sysId && r.text? Column.locale == some locale

/-- The value of a column in the first locale that has one. -/
def firstValue? (n : Namespace) (table : Ident) (sysId : String) (column : Ident) :
    List String → Except StoreFault (Option Value)
  | [] => return none
  | locale :: rest => do
    match ← n.findRow? table sysId locale with
    | some row =>
      match row.cell column with
      | .null => n.firstValue? table sysId column rest
      | value => return some value
    | none => n.firstValue? table sysId column rest

/-- The value of a field of a record, given its row in the default locale. -/
def resolveValue (n : Namespace) (lc : LocaleContext) (table : Ident) (nodeLocalized : Bool)
    (c : PlanColumn) (base : Row) : Except StoreFault Value := do
  let own := base.cell c.column
  if !(nodeLocalized && c.localized) then return own
  match base.text? Column.sysId with
  | none => return own
  | some sysId =>
    return (← n.firstValue? table sysId c.column [lc.requested, lc.fallback]).getD own

/-- The edges of a record in the locale that counts, in the order of their positions. -/
def edgesOf (n : Namespace) (lc : LocaleContext) (linkTable : Ident) (localized : Bool)
    (base : Row) : Except StoreFault (List Row) := do
  let rows := (← n.table linkTable).rows.values
  match base.text? Column.sysId with
  | none => return []
  | some owner =>
    let edges := rows.filter fun r => r.text? Column.ownerSysId == some owner
    let inLocale (locale : String) (r : Row) : Bool := r.text? Column.locale == some locale
    let locale? :=
      if localized then
        [lc.requested, lc.fallback, lc.default].find? fun l => edges.any (inLocale l)
      else some lc.default
    match locale? with
    | none => return []
    | some locale =>
      let before (a b : Row) : Bool :=
        (a.cell Column.position).compare? (b.cell Column.position) == some .lt
      return insertionSort before (edges.filter (inLocale locale))

/-- The identity of a record as a document. -/
def stub (id : String) : Json := .mkObj [("sys", .mkObj [("id", .str id)])]

/-- The system part of a document. -/
def sysDocument (lc : LocaleContext) (source : NodeSource) (base : Row) : Json :=
  let cell (column : Ident) : Json := (base.cell column).toJson
  let contentType := match source.kind with
    | .entry => [("contentType", stub source.contentType)]
    | .asset => []
  .mkObj <|
    [("id", cell Column.sysId),
      ("type", .str (match source.kind with
        | .entry => "Entry"
        | .asset => "Asset")),
      ("createdAt", cell Column.createdAt), ("updatedAt", cell Column.updatedAt),
      ("version", cell Column.version), ("locale", .str lc.requested)] ++ contentType

mutual

/-- The document of a record, given its row in the default locale. -/
def document (n : Namespace) (lc : LocaleContext) (base : Row) : PlanNode → Except StoreFault Json
  | .mk source localized fields => do
    let members ← n.fieldDocuments lc source.table.name localized base fields
    return .mkObj [("sys", sysDocument lc source base), ("fields", .mkObj members)]

/-- The members of the fields of a document. -/
def fieldDocuments (n : Namespace) (lc : LocaleContext) (table : Ident) (localized : Bool)
    (base : Row) : List PlanField → Except StoreFault (List (String × Json))
  | [] => return []
  | .value c _ :: rest => do
    let value ← n.resolveValue lc table localized c base
    return (c.fieldId, value.toJson) :: (← n.fieldDocuments lc table localized base rest)
  | .link c target :: rest => do
    let json ←
      match (← n.resolveValue lc table localized c base).toText? with
      | none => pure .null
      | some id => (·.getD .null) <$> n.linkDocument? lc id target
    return (c.fieldId, json) :: (← n.fieldDocuments lc table localized base rest)
  | .links c linkTable target :: rest => do
    let edges ← n.edgesOf lc linkTable.name c.localized base
    let items ← (edges.filterMap fun e => e.text? Column.targetSysId).filterMapM fun id =>
      n.linkDocument? lc id target
    return (c.fieldId, .arr items) :: (← n.fieldDocuments lc table localized base rest)

/-- What a link shows of a record, none if it is to be embedded and is not there. -/
def linkDocument? (n : Namespace) (lc : LocaleContext) (id : String) :
    LinkPlan → Except StoreFault (Option Json)
  | .stub => return some (stub id)
  | .expand node => do
    match ← n.findRow? node.source.table.name id lc.default with
    | some row => some <$> n.document lc row node
    | none => return none

end

/-- The columns of the root's fields in the result of a query function. -/
def fieldCells (n : Namespace) (lc : LocaleContext) (table : Ident) (localized : Bool) (base : Row) :
    List PlanField → Row → Except StoreFault Row
  | [], row => return row
  | f :: rest, row => do
    match Plan.fieldColumn? f with
    | some _ =>
      let value ← n.resolveValue lc table localized f.column base
      n.fieldCells lc table localized base rest (row.insert f.column.column value)
    | none => n.fieldCells lc table localized base rest row

/-- The result row of one record, given its row in the default locale. -/
def resultRow (n : Namespace) (lc : LocaleContext) (root : PlanNode) (base : Row) :
    Except StoreFault Row := do
  let copied := [Column.sysId, Column.version, Column.createdAt, Column.updatedAt].foldl
    (fun (r : Row) c => r.insert c (base.cell c)) .empty
  let row := copied.insert Column.locale (.text lc.requested)
  let row ← n.fieldCells lc root.source.table.name root.hasLocalized base root.fields row
  return row.insert Column.data (.json (← n.document lc base root))

/-- The rows of a query function in one locale, none for an unknown locale. -/
def evaluate (n : Namespace) (plan : Plan) (locale : String) : Except StoreFault (List Row) := do
  match ← n.localeContext? plan locale with
  | none => return []
  | some lc =>
    let rows := (← n.table plan.root.source.table.name).rows.values
    (rows.filter fun r => r.text? Column.locale == some lc.default).mapM (n.resultRow lc plan.root)

/-- The rows of a materialized view, computed anew. -/
def viewRows (n : Namespace) (v : ViewDef) : Except StoreFault (List Row) :=
  match n.functions.get? v.function.name with
  | some plan => n.evaluate plan v.locale
  | none => .error (.noFunction v.function.text)

/-! ## Relations of a plan -/

/-- The tables and link tables that a node reads itself. -/
def nodeRelations (node : PlanNode) : List Ident :=
  node.source.table.name :: node.fields.filterMap fun
    | .links _ linkTable _ => some linkTable.name
    | _ => none

/-- Check that all relations that a plan reads exist. -/
def checkPlan (n : Namespace) (plan : Plan) : Except StoreFault Unit :=
  (plan.locales.name :: plan.root.subtree.flatMap nodeRelations).forM fun name => do
    let _ ← n.table name

end Namespace

end ContentReplica
