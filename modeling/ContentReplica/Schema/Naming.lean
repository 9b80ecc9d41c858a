import ContentReplica.Sql.Definition

/-!
# Names of generated objects

The names of the tables, columns, link tables, query functions, views and indexes that are generated
for a content type. All of them are sanitized, so each is a plain identifier.
-/

namespace ContentReplica.Naming

/-- The table of assets; its name is also the content type that stands for assets. -/
def assetsTable : Ident := ⟨"_assets"⟩

/-- The table of a content type. -/
def table (contentType : String) : Ident := Ident.sanitize contentType

/-- The column of a field. A field that would take a reserved name is set apart by `field_`. -/
def column (fieldId : String) : Ident :=
  let name := Ident.sanitize fieldId
  if Column.reserved.contains name then Ident.sanitize ("field_" ++ name.text) else name

/-- The link table of an array of links. -/
def linkTable (table column : Ident) : Ident :=
  Ident.sanitize ("con_" ++ table.text ++ "_" ++ column.text)

/-- The query function of a table. -/
def function (table : Ident) : Ident := Ident.sanitize ("q_" ++ table.text)

/-- The materialized view of a table in one locale. -/
def view (table : Ident) (locale : String) : Ident :=
  Ident.sanitize ("mv_" ++ table.text ++ "__" ++ (Ident.sanitize locale).text)

/-- The index over some columns of a table. -/
def index (table : Ident) (columns : List Ident) (unique : Bool) : Ident :=
  Ident.sanitize (table.text ++ "_" ++ "_".intercalate (columns.map Ident.text) ++ "_"
    ++ if unique then "key" else "idx")

/-- The key of the row of a record in one locale. -/
def rowId (sysId locale : String) : String := sysId ++ "_" ++ locale

end ContentReplica.Naming
