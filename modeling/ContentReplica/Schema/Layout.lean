import ContentReplica.Plan
import ContentReplica.Record
import ContentReplica.Schema.Naming

/-!
# Table layouts

`TableLayout` is the table of a content type or of assets: one row for every record and locale. A
scalar field and a single link have a column, an array of links has a link table with one row an
element (`Placement`). Columns, indexes and link tables of a layout follow from its fields.

A link names its target as far as the compiled content types settle it (`LinkTarget`). The
references between content types are read off the layouts (`TableLayout.references`).
-/

namespace ContentReplica

/-! ## Link targets -/

/-- Why a link has no single target table. -/
inductive Unresolved where
  | noCandidate
  | notCompiled (contentType : String)
  | manyCandidates (count : Nat)
  deriving DecidableEq

/-- The wording of an unresolved link. -/
def Unresolved.message : Unresolved → String
  | noCandidate => "no linkContentType validation"
  | notCompiled id => "target content type " ++ id ++ " is not compiled"
  | manyCandidates n => toString n ++ " candidate content types"

/-- What a link points at. -/
inductive LinkTarget where
  | contentType (id : String)
  | asset
  /-- No single table; such links show the identity of their target. -/
  | unresolved (reason : Unresolved)
  deriving DecidableEq

namespace LinkTarget

/-- The content type of the target, the asset table's name for assets. -/
def node? : LinkTarget → Option String
  | contentType id => some id
  | asset => some Naming.assetsTable.text
  | unresolved _ => none

/-- The target of a link, given the content types that have a table. -/
def resolve (known : List String) : LinkScope → LinkTarget
  | .asset => asset
  | .entries [] => unresolved .noCandidate
  | .entries [id] => if known.contains id then contentType id else unresolved (.notCompiled id)
  | .entries ids => unresolved (.manyCandidates ids.length)

end LinkTarget

/-! ## Fields -/

/-- Where the value of a field is stored. -/
inductive Placement where
  /-- A column of scalars. -/
  | value (type : SqlType)
  /-- A text column with the identity of the target. -/
  | link (target : LinkTarget)
  /-- The rows of a link table. -/
  | links (table : Ident) (target : LinkTarget)
  deriving DecidableEq

/-- The type of the column of a placement, if it has one. -/
def Placement.columnType? : Placement → Option SqlType
  | value type => some type
  | link _ => some .text
  | links _ _ => none

/-- One field in its table. -/
structure FieldLayout where
  fieldId : String
  column : Ident
  localized : Bool
  unique : Bool
  shape : FieldShape
  placement : Placement
  deriving DecidableEq

/-- The column of a field, if it has one. -/
def FieldLayout.columnDef? (f : FieldLayout) : Option ColumnDef :=
  f.placement.columnType?.map (ColumnDef.optional f.column)

/-- The column type of a kind of scalar. -/
def ScalarKind.columnType : ScalarKind → SqlType
  | .text => .text
  | .integer => .integer
  | .number => .decimal
  | .date => .date
  | .boolean => .boolean
  | .location => .point
  | .object => .jsonb

/-! ## Tables -/

/-- The table of a content type or of assets. -/
structure TableLayout where
  contentType : String
  name : Ident
  kind : RecordKind
  fields : List FieldLayout
  /-- The compiled definition, none for assets. -/
  source? : Option ContentType
  deriving DecidableEq

/-- The table of the elements of one array of links. -/
structure LinkTable where
  name : Ident
  ownerType : String
  ownerTable : Ident
  fieldId : String
  localized : Bool
  target : LinkTarget
  deriving DecidableEq

/-- The columns of every link table. -/
def LinkTable.columns : List ColumnDef :=
  [.key Column.id .text, .required Column.ownerId .text, .required Column.ownerSysId .text,
    .optional Column.targetId .text, .required Column.targetSysId .text,
    .required Column.locale .text, .required Column.position .integer]

/-- An index of a table, whatever namespace the table is in. -/
structure IndexLayout where
  name : Ident
  columns : List Ident
  unique : Bool
  deriving DecidableEq

/-- The index of the given columns of a table. -/
def IndexLayout.on (table : Ident) (columns : List Ident) (unique : Bool) : IndexLayout :=
  ⟨Naming.index table columns unique, columns, unique⟩

/-- The kind of a reference between content types. -/
inductive ReferenceKind where
  | oneToOne
  | manyToMany
  deriving DecidableEq

/-- A field that refers to other records. -/
structure Reference where
  owner : String
  fieldId : String
  kind : ReferenceKind
  target : LinkTarget
  /-- The column or the link table of the field. -/
  storage : Ident
  deriving DecidableEq

/-- The columns that describe a record in every table. -/
def systemColumns : List ColumnDef :=
  [.key Column.id .text, .required Column.sysId .text, .required Column.locale .text,
    .optional Column.version .integer, .optional Column.revision .integer,
    .optional Column.createdAt .date, .optional Column.updatedAt .date,
    .optional Column.publishedAt .date]

namespace TableLayout

/-- The field with the given identity. -/
def field? (t : TableLayout) (fieldId : String) : Option FieldLayout :=
  t.fields.find? fun f => f.fieldId = fieldId

/-- Whether a field has values for each locale. -/
def hasLocalized (t : TableLayout) : Bool := t.fields.any (·.localized)

/-- The columns of the table. -/
def columns (t : TableLayout) : List ColumnDef :=
  systemColumns ++ t.fields.filterMap FieldLayout.columnDef?

/-- The column of the given name. -/
def column? (t : TableLayout) (name : Ident) : Option ColumnDef :=
  t.columns.find? fun c => c.name = name

/-- The link table of a field, if it is an array of links. -/
def linkTable? (t : TableLayout) (f : FieldLayout) : Option LinkTable :=
  match f.placement with
  | .links name target => some ⟨name, t.contentType, t.name, f.fieldId, f.localized, target⟩
  | _ => none

/-- The link tables of the table. -/
def linkTables (t : TableLayout) : List LinkTable := t.fields.filterMap t.linkTable?

/-- The indexes that a field brings: one for a link, one together with the locale for a field that
is declared unique. -/
def fieldIndexes (t : TableLayout) (f : FieldLayout) : List IndexLayout :=
  let unique :=
    if f.unique then [IndexLayout.on t.name [f.column, Column.locale] false] else []
  match f.placement with
  | .value _ => unique
  | .link _ => IndexLayout.on t.name [f.column] false :: unique
  | .links _ _ => []

/-- The indexes of the table. -/
def indexes (t : TableLayout) : List IndexLayout :=
  [IndexLayout.on t.name [Column.sysId, Column.locale] true,
    IndexLayout.on t.name [Column.sysId] false] ++ t.fields.flatMap t.fieldIndexes

/-- The digest of the compiled definition, empty for assets. -/
def fingerprint (t : TableLayout) : String :=
  match t.source? with
  | some contentType => contentType.fingerprint
  | none => ""

/-- The reference that a field makes. -/
def reference? (t : TableLayout) (f : FieldLayout) : Option Reference :=
  match f.placement with
  | .value _ => none
  | .link target => some ⟨t.contentType, f.fieldId, .oneToOne, target, f.column⟩
  | .links name target => some ⟨t.contentType, f.fieldId, .manyToMany, target, name⟩

/-- The references that the fields make, in field order. -/
def references (t : TableLayout) : List Reference := t.fields.filterMap t.reference?

end TableLayout

/-! ## Assets -/

/-- The fields of an asset. -/
inductive AssetField where
  | title
  | description
  | fileName
  | contentType
  | url
  deriving DecidableEq

namespace AssetField

/-- All fields of an asset, in column order. -/
def all : List AssetField := [title, description, fileName, contentType, url]

/-- The identity of a field. -/
def id : AssetField → String
  | title => "title"
  | description => "description"
  | fileName => "fileName"
  | contentType => "contentType"
  | url => "url"

end AssetField

/-- The table of assets: texts with a value for each locale. -/
def assetLayout : TableLayout where
  contentType := Naming.assetsTable.text
  name := Naming.assetsTable
  kind := .asset
  fields := AssetField.all.map fun f =>
    ⟨f.id, Naming.column f.id, true, false, .scalar .text, .value .text⟩
  source? := none

end ContentReplica
