import ContentReplica.Sql.Value

/-!
# Statement templates

A `Template` is the text of a statement with the values that are bound in it, in the order in which
they stand. `Template.render` numbers the values from left to right and writes a placeholder with
the type of each, so a value never becomes part of the text.
-/

namespace ContentReplica

/-- A statement text with numbered placeholders, and the values bound to them. -/
structure Rendered where
  sql : String
  params : List Value

/-- A piece of a statement: text, or a value bound with a type. -/
inductive Fragment where
  | text (s : String)
  | bind (value : Value) (type : SqlType)

/-- The pieces of a statement, from left to right. -/
abbrev Template := List Fragment

namespace Template

/-- A template without values. -/
def lit (s : String) : Template := [.text s]

/-- A template of one bound value. -/
def value (v : Value) (type : SqlType) : Template := [.bind v type]

/-- Templates with a text between them. -/
def join (separator : String) : List Template → Template
  | [] => []
  | [t] => t
  | t :: rest => t ++ .text separator :: join separator rest

/-- The placeholder of the `n`-th value. -/
def placeholder (n : Nat) (type : SqlType) : String := "$" ++ toString n ++ "::" ++ type.ddl

/-- The text, given the number of the next value. -/
def sqlFrom : Nat → Template → String
  | _, [] => ""
  | n, .text s :: rest => s ++ sqlFrom n rest
  | n, .bind _ type :: rest => placeholder n type ++ sqlFrom (n + 1) rest

/-- The values, from left to right. -/
def params : Template → List Value
  | [] => []
  | .text _ :: rest => params rest
  | .bind v _ :: rest => v :: params rest

/-- The statement text and its values. -/
def render (t : Template) : Rendered := ⟨sqlFrom 1 t, t.params⟩

end Template

end ContentReplica
