import ContentReplica.Query.Literal
import ContentReplica.Query.Request
import ContentReplica.Replica
import ContentReplica.Sql.Call

/-!
# Requests as calls

`Replica.resolve` turns a request into the call of the query function of its content type, or of
the materialized view in its locale. A filter or order term names a metadata path (`SystemPath`) or a
field that has a column; its comparator has to suit the type of that column.
-/

namespace ContentReplica

/-- The metadata paths that can be filtered and ordered by. -/
inductive SystemPath where
  | id
  | locale
  | version
  | createdAt
  | updatedAt
  deriving DecidableEq

namespace SystemPath

/-- The path of the given text. -/
def ofText? (path : String) : Option SystemPath :=
  match path with
  | "sys.id" => some id
  | "sys.locale" => some locale
  | "sys.version" => some version
  | "sys.createdAt" => some createdAt
  | "sys.updatedAt" => some updatedAt
  | _ => none

/-- The column of a metadata path. -/
def column : SystemPath → ColumnRef
  | id => ⟨Column.sysId, .text⟩
  | locale => ⟨Column.locale, .text⟩
  | version => ⟨Column.version, .integer⟩
  | createdAt => ⟨Column.createdAt, .date⟩
  | updatedAt => ⟨Column.updatedAt, .date⟩

end SystemPath

/-- What a request is answered from. -/
inductive QueryTarget where
  /-- The query function of the content type. -/
  | function
  /-- The materialized view of the content type in the locale. -/
  | view
  deriving DecidableEq

namespace TableLayout

/-- The column that a path names. -/
def columnAt (t : TableLayout) (path : String) : Except QueryFault ColumnRef :=
  match SystemPath.ofText? path with
  | some p => .ok p.column
  | none =>
    match (if path.toList.contains '.' then none else t.field? path) with
    | none => .error (.unsupportedPath path)
    | some f =>
      match f.placement.columnType? with
      | some type => .ok ⟨f.column, type⟩
      | none => .error (.unsupportedPath path)

/-- A comparison by order, which the type of the column has to allow. -/
def orderFilter (path first : String) (column : ColumnRef) (op : CompareOp) :
    Except QueryFault Predicate :=
  if column.type.isOrderable then do
    return .compare column op (← Literal.read path first column.type)
  else .error (.notComparable path)

/-- The condition of a comparator on a column; `first` is the first of the values. -/
def filterOn (path first : String) (values : List String) (column : ColumnRef) :
    Comparator → Except QueryFault Predicate
  | .eq => do
    let value ← Literal.read path first column.type
    return if column.type.isArray then .anyOf column [value] else .compare column .eq value
  | .ne => do
    let value ← Literal.read path first column.type
    return if column.type.isArray then .noneOf column [value] else .compare column .ne value
  | .«exists» =>
    match first with
    | "true" => .ok (.isNotNull column)
    | "false" => .ok (.isNull column)
    | other => .error (.existsValue path other)
  | .lt => orderFilter path first column .lt
  | .lte => orderFilter path first column .lte
  | .gt => orderFilter path first column .gt
  | .gte => orderFilter path first column .gte
  | .«match» =>
    if column.type = .text ∨ column.type = .array .text then
      .ok (.«matches» column (Literal.pattern first))
    else .error (.needsText path)
  | .all =>
    if column.type.isArray then do
      return .containsAll column (← values.mapM fun raw => Literal.read path raw column.type)
    else .error (.needsArray path)
  | .«in» => do
    return .anyOf column (← values.mapM fun raw => Literal.read path raw column.type)
  | .nin => do
    return .noneOf column (← values.mapM fun raw => Literal.read path raw column.type)

/-- The condition of a filter. -/
def filter (t : TableLayout) (term : FilterTerm) : Except QueryFault Predicate := do
  let column ← t.columnAt term.path
  match term.values with
  | [] => throw (.noValue term.path)
  | first :: _ => filterOn term.path first term.values column term.comparator

/-- The order term of a path, whose column has to be orderable. -/
def orderTerm (t : TableLayout) (o : OrderPath) : Except QueryFault OrderTerm := do
  let column ← t.columnAt o.path
  if column.type.isOrderable then return ⟨column.name, o.descending⟩
  else throw (.notOrderable o.path)

end TableLayout

namespace Replica

/-- What a request for a table in a locale is answered from. -/
def querySource (r : Replica) (t : TableLayout) (locale : String) : QueryTarget → QuerySource
  | .function => .function ⟨r.namespaceName, Naming.function t.name⟩
  | .view => .view ⟨r.namespaceName, Naming.view t.name locale⟩

/-- The call that answers a request. -/
def resolve (r : Replica) (request : QueryRequest) (target : QueryTarget) :
    Except Error QueryCall := do
  request.checkSkip.mapError .query
  let some t := r.schema.entryTable? request.contentType
    | throw (.contentTypeNotFound request.contentType)
  let locale := (← r.space.resolve request.locale?).code
  let filters ← (request.filters.mapM t.filter).mapError .query
  let order ← (request.order.mapM t.orderTerm).mapError .query
  return ⟨r.querySource t locale target, locale, filters, order, request.skip, request.take⟩

end Replica

end ContentReplica
