import ContentReplica.Sql.Value

/-!
# Rows for a bulk copy

`Csv.encode` writes rows as comma-separated values: every value between quotes with inner quotes
doubled, NULL as an empty field without quotes, and each record ended by a newline.
-/

namespace ContentReplica.Csv

/-- A text between quotes, its own quotes doubled. -/
def quoteField (s : String) : List Char :=
  '"' :: Text.replaced '"' ['"', '"'] s.toList ++ ['"']

/-- A value as a field. -/
def field (v : Value) : List Char :=
  match v.toText? with
  | some s => quoteField s
  | none => []

/-- A row as a record. -/
def record (row : List Value) : List Char := [','].intercalate (row.map field) ++ ['\n']

/-- Rows as records. -/
def encode (rows : List (List Value)) : String := String.ofList (rows.flatMap record)

end ContentReplica.Csv
