import ContentReplica.Json
import ContentReplica.Query.Request

/-!
# Requests in JSON

The JSON form of query requests.
-/

namespace ContentReplica

/-- A comparator in JSON. -/
def Comparator.encode : Comparator → Json
  | eq => .str "Eq"
  | ne => .str "Ne"
  | «exists» => .str "Exists"
  | lt => .str "Lt"
  | lte => .str "Lte"
  | gt => .str "Gt"
  | gte => .str "Gte"
  | «match» => .str "Match"
  | all => .str "All"
  | «in» => .str "In"
  | nin => .str "Nin"

/-- A filter in JSON. -/
def FilterTerm.encode (f : FilterTerm) : Json :=
  .mkObj [("path", .str f.path), ("comparator", f.comparator.encode),
    ("values", .arr (f.values.map .str))]

/-- A path to order by in JSON. -/
def OrderPath.encode (o : OrderPath) : Json :=
  .mkObj [("path", .str o.path), ("descending", .bool o.descending)]

/-- A request in JSON. -/
def QueryRequest.encode (r : QueryRequest) : Json :=
  let count : Option Nat → Json
    | some n => .nat n
    | none => .null
  .mkObj [("content_type", .str r.contentType), ("locale", .ofText? r.locale?),
    ("skip", .nat r.skip), ("limit", count r.limit?), ("order", .arr (r.order.map OrderPath.encode)),
    ("include", count r.include?), ("select", .arr (r.select.map .str)),
    ("filters", .arr (r.filters.map FilterTerm.encode))]

end ContentReplica
