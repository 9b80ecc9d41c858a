import ContentReplica.Sql.Predicate
import ContentReplica.Store.Like

/-!
# Conditions on stored rows

`Predicate.holds` evaluates a condition on one row. A column that the row does not have reads as
NULL. NULL satisfies no comparison except inequality with a value, and no membership except its
negation.
-/

namespace ContentReplica

/-- A stored row, by column. -/
abbrev Row := SortedMap Ident Value

namespace Row

/-- The value of a column, NULL if the row does not have it. -/
def cell (r : Row) (column : Ident) : Value := (r.get? column).getD .null

/-- The text of a column, if it holds a text. -/
def text? (r : Row) (column : Ident) : Option String := (r.get? column).bind Value.asText?

end Row

namespace Predicate

/-- Whether a value, or an element of an array, equals one of the values. -/
def meets (actual : Value) (values : List Value) : Bool :=
  match actual with
  | .null => false
  | .array items => items.any fun i => values.any fun v => i.equals v
  | scalar => values.any fun v => scalar.equals v

/-- Whether two values differ; NULL differs from every value but NULL. -/
def differs (actual value : Value) : Bool :=
  match actual, value with
  | .null, .null => false
  | .null, _ => true
  | _, .null => true
  | a, v => !a.equals v

/-- Whether a comparison holds. -/
def comparison (op : CompareOp) (actual value : Value) : Bool :=
  match op with
  | .eq => actual.equals value
  | .ne => differs actual value
  | op =>
    match actual.compare? value with
    | some o => op.holds o
    | none => false

/-- The text that a pattern is matched against, none for NULL. The elements of an array are joined
by blanks. -/
def patternText? : Value → Option String
  | .null => none
  | .array items => some (" ".intercalate (items.filterMap Value.toText?))
  | v => v.toText?

mutual

/-- Whether a row satisfies a condition. -/
def holds (row : Row) : Predicate → Bool
  | compare column op value => comparison op (row.cell column.name) value
  | isNull column => (row.cell column.name).isNull
  | isNotNull column => !(row.cell column.name).isNull
  | «matches» column pattern =>
    match patternText? (row.cell column.name) with
    | some text => Like.holds text pattern
    | none => false
  | containsAll column values =>
    match row.cell column.name with
    | .array items => values.all fun v => items.any fun i => i.equals v
    | _ => false
  | anyOf column values => meets (row.cell column.name) values
  | noneOf column values =>
    match row.cell column.name with
    | .null => true
    | actual => !meets actual values
  | and parts => allHold row parts

/-- Whether a row satisfies every condition of a list. -/
def allHold (row : Row) : List Predicate → Bool
  | [] => true
  | p :: rest => p.holds row && allHold row rest

end

end Predicate

end ContentReplica
