import ContentReplica.Replication.Conversion
import ContentReplica.Schema.Compiler

/-!
# Records as rows

`Mapping.entryRows` and `Mapping.assetRows` turn a delivered record into the rows of its table: one
for the default locale and one for every other locale of the space in which a localized field has a
value. The elements of an array of links become edges, the rows of its link table, numbered by
position (`EdgeSet`).

A payload may key its values by aliases; the first key, in key order, that stands for the locale
counts. A field that is not localized is read in the default locale for every row.
-/

namespace ContentReplica

/-- What records are mapped by: the schema, the locales, and the code of the default locale. -/
structure Mapping where
  schema : Schema
  space : Space
  default : String

/-- The edges of one array of links, which replace those that are stored. -/
structure EdgeSet where
  linkTable : Ident
  fieldId : String
  rows : List (List Value)
  /-- Whether the payload carried the field at all. -/
  present : Bool

/-- The rows of one record. -/
structure RecordRows where
  sysId : String
  table : Ident
  columns : List ColumnDef
  rows : List (List Value)
  /-- The locales of the rows. -/
  locales : List String
  /-- The edges for each link table of the record's type. -/
  edges : List EdgeSet

namespace Mapping

/-- The mapping of a schema and a space, which has to have a default locale. -/
def of (schema : Schema) (space : Space) : Except Error Mapping := do
  return ⟨schema, space, (← space.defaultLocale).code⟩

/-! ## Locales -/

/-- The default locale and the locales that some keys stand for, in the order of the space. -/
def rowLocales (m : Mapping) (keys : List String) : List String :=
  m.space.localeCodes.filter fun code =>
    code == m.default || keys.any fun key => m.space.canonical? key == some code

/-- The value of the first key that stands for a locale. -/
def valueIn? {α : Type} (m : Mapping) (values : SortedMap String α) (locale : String) : Option α :=
  (values.entries.find? fun e => m.space.canonical? e.1 == some locale).map Prod.snd

/-! ## Entries -/

/-- The cells that describe a record in one locale. -/
def systemCells (sys : RecordSys) (locale : String) : List Value :=
  [.text (Naming.rowId sys.id locale), .text sys.id, .text locale, .int sys.version,
    .int sys.revision, .ofText? sys.createdAt?, .ofText? sys.updatedAt?, .ofText? sys.publishedAt?]

/-- The fields of unknown kind, whose columns keep whatever is delivered. -/
def lenientFields (t : TableLayout) : List String :=
  match t.source? with
  | some c => (c.fields.filter fun f => f.kind = .unknown).map Field.id
  | none => []

/-- The identity that a link column holds. -/
def linkCell (payload : Json) : Except ValueFault Value :=
  if payload.isNull then .ok .null
  else
    match linkId? payload with
    | some id => .ok (.text id)
    | none => .error .expectedLink

/-- The payload of a field in one locale. -/
def payload? (m : Mapping) (e : Entry) (fieldId locale : String) : Option Json :=
  (e.fields.get? fieldId).bind fun values => m.valueIn? values locale

/-- The cell of a field in one locale, none if the field has no column. -/
def fieldCell? (m : Mapping) (t : TableLayout) (e : Entry) (locale : String) (f : FieldLayout) :
    Except Error (Option Value) :=
  let payload := m.payload? e f.fieldId (if f.localized then locale else m.default)
  let cell : Option (Except ValueFault Value) :=
    match f.placement, payload with
    | .links _ _, _ => none
    | _, none => some (.ok .null)
    | .link _, some p => some (linkCell p)
    | .value type, some p =>
      some (Value.ofPayload ((lenientFields t).contains f.fieldId) type p)
  match cell with
  | none => .ok none
  | some (.ok v) => .ok (some v)
  | some (.error fault) => .error (.apply (.value e.sys.id f.fieldId fault))

/-- The row of an entry in one locale. -/
def entryRow (m : Mapping) (t : TableLayout) (e : Entry) (locale : String) :
    Except Error (List Value) := do
  return systemCells e.sys locale ++ (← t.fields.filterMapM (m.fieldCell? t e locale))

/-- The locales that an entry has rows in. -/
def entryLocales (m : Mapping) (t : TableLayout) (e : Entry) : List String :=
  let localized (id : String) : Bool :=
    match t.field? id with
    | some f => f.localized
    | none => false
  m.rowLocales ((e.fields.filter fun id _ => localized id).values.flatMap SortedMap.keys)

/-! ## Edges -/

/-- The edge at a position of an array of links. -/
def edgeRow (sysId fieldId locale : String) (position : Nat) (item : Json) :
    Except Error (List Value) :=
  match linkId? item with
  | none => .error (.apply (.value sysId fieldId .expectedLink))
  | some target =>
    let ownerId := Naming.rowId sysId locale
    .ok [.text (Naming.rowId ownerId (toString position)), .text ownerId, .text sysId,
      .text (Naming.rowId target locale), .text target, .text locale, .int position]

/-- The edges of an array of links in one locale. -/
def edgeRows (m : Mapping) (e : Entry) (fieldId locale : String) :
    Except Error (List (List Value)) :=
  match m.payload? e fieldId locale with
  | none => .ok []
  | some .null => .ok []
  | some (.arr items) =>
    items.zipIdx.mapM fun (item, position) => edgeRow e.sys.id fieldId locale position item
  | some other => .error (.apply (.value e.sys.id fieldId (.expected "array" other)))

/-- The edges of one array of links. -/
def edgeSet (m : Mapping) (e : Entry) (locales : List String) (l : LinkTable) :
    Except Error EdgeSet := do
  let rows ← (if l.localized then locales else [m.default]).mapM (m.edgeRows e l.fieldId)
  return ⟨l.name, l.fieldId, rows.flatten, (e.fields.get? l.fieldId).isSome⟩

/-- The rows of an entry. -/
def entryRows (m : Mapping) (e : Entry) : Except Error RecordRows :=
  match m.schema.entryTable? e.contentType with
  | none => .error (.contentTypeNotFound e.contentType)
  | some t => do
    let locales := m.entryLocales t e
    let rows ← locales.mapM (m.entryRow t e)
    let edges ← t.linkTables.mapM (m.edgeSet e locales)
    return ⟨e.sys.id, t.name, t.columns, rows, locales, edges⟩

/-! ## Assets -/

/-- The text of a field of an asset in one locale. -/
def assetText? (m : Mapping) (a : Asset) (locale : String) : AssetField → Option String
  | .title => m.valueIn? a.title locale
  | .description => m.valueIn? a.description locale
  | .fileName => (m.valueIn? a.file locale).map AssetFile.fileName
  | .contentType => (m.valueIn? a.file locale).map AssetFile.contentType
  | .url => (m.valueIn? a.file locale).map AssetFile.url

/-- The row of an asset in one locale. -/
def assetRow (m : Mapping) (a : Asset) (locale : String) : List Value :=
  systemCells a.sys locale ++ AssetField.all.map fun f => .ofText? (m.assetText? a locale f)

/-- The rows of an asset. -/
def assetRows (m : Mapping) (a : Asset) : RecordRows :=
  let locales := m.rowLocales a.locales
  ⟨a.sys.id, assetLayout.name, assetLayout.columns, locales.map (m.assetRow a), locales, []⟩

end Mapping

end ContentReplica
