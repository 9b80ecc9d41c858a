import ContentReplica.Sql.Ident
import ContentReplica.Sql.Template

/-!
# Conditions on rows

`Predicate` is a condition on one row: comparisons, tests for NULL, patterns, and membership for
scalar and array columns. `Predicate.template` writes it with its values bound.
-/

namespace ContentReplica

/-- A comparison operator. -/
inductive CompareOp where
  | eq
  | ne
  | lt
  | lte
  | gt
  | gte
  deriving DecidableEq, Inhabited

namespace CompareOp

/-- The operator as it is written; inequality treats NULL as a value of its own. -/
def sql : CompareOp → String
  | eq => "="
  | ne => "IS DISTINCT FROM"
  | lt => "<"
  | lte => "<="
  | gt => ">"
  | gte => ">="

/-- Whether the operator holds between two values in the given order. -/
def holds (op : CompareOp) (o : Ordering) : Bool :=
  match op with
  | eq => o == .eq
  | ne => o != .eq
  | lt => o == .lt
  | lte => o != .gt
  | gt => o == .gt
  | gte => o != .lt

end CompareOp

/-- A column with its type. -/
structure ColumnRef where
  name : Ident
  type : SqlType
  deriving DecidableEq, Inhabited

/-- The column as it is written, qualified by an alias if there is one. -/
def ColumnRef.sql (c : ColumnRef) : Option String → String
  | some qualifier => qualifier ++ "." ++ c.name.quoted
  | none => c.name.quoted

/-- A condition on one row. -/
inductive Predicate where
  | compare (column : ColumnRef) (op : CompareOp) (value : Value)
  | isNull (column : ColumnRef)
  | isNotNull (column : ColumnRef)
  /-- The text of the column matches a pattern, upper and lower case alike. -/
  | «matches» (column : ColumnRef) (pattern : String)
  /-- The array column holds every value. -/
  | containsAll (column : ColumnRef) (values : List Value)
  /-- The scalar column equals one of the values, or the array column holds one. -/
  | anyOf (column : ColumnRef) (values : List Value)
  /-- The opposite of `anyOf`; NULL qualifies. -/
  | noneOf (column : ColumnRef) (values : List Value)
  | and (parts : List Predicate)
  deriving Inhabited

namespace Predicate

/-- A text column has the given text. -/
def textEq (column : String) (value : String) : Predicate :=
  .compare ⟨⟨column⟩, .text⟩ .eq (.text value)

mutual

/-- The condition with its values bound, the columns qualified by an alias if there is one. -/
def template (qualifier : Option String) : Predicate → Template
  | compare column op value =>
    .text (column.sql qualifier ++ " " ++ op.sql ++ " ") :: Template.value value column.type
  | isNull column => Template.lit (column.sql qualifier ++ " IS NULL")
  | isNotNull column => Template.lit (column.sql qualifier ++ " IS NOT NULL")
  | «matches» column pattern =>
    let target :=
      if column.type.isArray then "array_to_string(" ++ column.sql qualifier ++ ", ' ')"
      else column.sql qualifier ++ "::text"
    .text (target ++ " ILIKE ") :: Template.value (.text pattern) .text
  | containsAll column values =>
    .text (column.sql qualifier ++ " @> ") :: Template.value (.array values) column.type.arrayOf
  | anyOf column values =>
    let bound := Template.value (.array values) column.type.arrayOf
    if column.type.isArray then .text (column.sql qualifier ++ " && ") :: bound
    else .text (column.sql qualifier ++ " = ANY(") :: bound ++ [.text ")"]
  | noneOf column values =>
    let bound := Template.value (.array values) column.type.arrayOf
    let c := column.sql qualifier
    if column.type.isArray then
      .text ("(" ++ c ++ " IS NULL OR NOT (" ++ c ++ " && ") :: bound ++ [.text "))"]
    else .text ("(" ++ c ++ " IS NULL OR " ++ c ++ " <> ALL(") :: bound ++ [.text "))"]
  | and [] => Template.lit "TRUE"
  | and (p :: rest) =>
    .text "(" :: (p.template qualifier ++ .text ")" :: conjuncts qualifier rest)

/-- Further parts of a conjunction. -/
def conjuncts (qualifier : Option String) : List Predicate → Template
  | [] => []
  | p :: rest => .text " AND (" :: (p.template qualifier ++ .text ")" :: conjuncts qualifier rest)

end

end Predicate

end ContentReplica
