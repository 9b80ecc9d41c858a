import ContentReplica.Sql.Definition

/-!
# Calls of query functions

`QueryCall` reads a page of documents from a query function or a materialized view: rows that satisfy
the filters, in the given order with `sys_id` as the last tie-break, NULLs last. `QueryCall.count`
and `QueryCall.items` are its two statements; both have the same source and the same condition.
-/

namespace ContentReplica

/-- What a call reads from. -/
inductive QuerySource where
  /-- A query function, called with the locale. -/
  | function (name : QualifiedName)
  /-- A materialized view, already bound to a locale. -/
  | view (name : QualifiedName)
  deriving DecidableEq

/-- A column to order by. -/
structure OrderTerm where
  column : Ident
  descending : Bool
  deriving DecidableEq

/-- A call of a query function. -/
structure QueryCall where
  source : QuerySource
  locale : String
  filters : List Predicate
  order : List OrderTerm
  skip : Nat
  take : Nat

/-- One page of documents, and the number of rows that satisfy the filters. -/
structure QueryPage where
  count : Nat
  items : Json

/-- The documents of the page, none if the items are no array. -/
def QueryPage.itemList (p : QueryPage) : List Json :=
  match p.items with
  | .arr items => items
  | _ => []

namespace QueryCall

/-- The order with its last tie-break. -/
def effectiveOrder (c : QueryCall) : List OrderTerm :=
  if c.order.any (·.column == Column.sysId) then c.order else c.order ++ [⟨Column.sysId, false⟩]

/-- The source under the alias `t`. -/
def fromTemplate (c : QueryCall) : Template :=
  match c.source with
  | .function name =>
    .text (name.quoted ++ "(") :: (Template.value (.text c.locale) .text ++ Template.lit ") AS t")
  | .view name => Template.lit (name.quoted ++ " AS t")

/-- The condition on the rows under the alias `t`. -/
def conditionTemplate (c : QueryCall) : Template := (Predicate.and c.filters).template (some "t")

/-- The order of the rows under an alias. -/
def orderSql (c : QueryCall) (qualifier : String) : String :=
  ", ".intercalate <| c.effectiveOrder.map fun t =>
    qualifier ++ "." ++ t.column.quoted ++ (if t.descending then " DESC" else " ASC") ++ " NULLS LAST"

/-- The largest number that fits 64 bits with a sign; greater offsets and sizes are cut to it. -/
def largestInt64 : Nat := Nat.pow 2 63 - 1

/-- The statement for the number of rows, before its values are numbered. -/
def countTemplate (c : QueryCall) : Template :=
  .text "SELECT count(*) FROM " :: (c.fromTemplate ++ .text " WHERE " :: c.conditionTemplate)

/-- The statement for the page, before its values are numbered. -/
def itemsTemplate (c : QueryCall) : Template :=
  .text ("SELECT COALESCE(jsonb_agg(p.\"_data\" ORDER BY " ++ c.orderSql "p"
      ++ "), '[]'::jsonb) FROM (SELECT t.* FROM ")
    :: (c.fromTemplate ++ .text " WHERE " :: (c.conditionTemplate
      ++ .text (" ORDER BY " ++ c.orderSql "t" ++ " OFFSET ")
      :: (Template.value (.int (min c.skip largestInt64)) .integer ++ .text " LIMIT "
      :: (Template.value (.int (min c.take largestInt64)) .integer ++ Template.lit ") AS p"))))

/-- The number of rows that satisfy the filters. -/
def count (c : QueryCall) : Rendered := c.countTemplate.render

/-- The documents of the page as one JSON array. -/
def items (c : QueryCall) : Rendered := c.itemsTemplate.render

end QueryCall

end ContentReplica
