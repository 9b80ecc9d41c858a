import ContentReplica.Digest.Blake3
import ContentReplica.Error
import ContentReplica.Json.Decoder

/-!
# Content types

A `ContentType` is the definition of one kind of entry: its fields with their declared kinds.
`Field.shape` says what a field holds, a scalar, a link, or an array of either, and refuses the
declarations that mean none of these. `ContentType.fingerprint` is a digest of the whole definition,
by which a changed definition is noticed.
-/

namespace ContentReplica

/-! ## Definitions -/

/-- The declared kind of a field. -/
inductive FieldKind where
  | symbol
  | text
  | integer
  | number
  | date
  | boolean
  | location
  | object
  | richText
  | link
  | array
  /-- A kind that this library does not know; it is stored as text. -/
  | unknown
  deriving DecidableEq, Inhabited

/-- The declared kind of the target of a link. -/
inductive LinkKind where
  | entry
  | asset
  deriving DecidableEq, Inhabited

/-- A validation of a field. Only the restriction to content types is interpreted. -/
structure Validation where
  linkContentType? : Option (List String)
  deriving DecidableEq

/-- The declaration of the items of an array field. -/
structure Items where
  kind : FieldKind
  linkKind? : Option LinkKind
  validations : List Validation
  deriving DecidableEq

/-- A field of a content type. -/
structure Field where
  id : String
  name : String
  kind : FieldKind
  linkKind? : Option LinkKind
  items? : Option Items
  validations : List Validation
  required : Bool
  localized : Bool
  unique : Bool
  disabled : Bool
  /-- An omitted field is not delivered and has no column. -/
  omitted : Bool
  deriving DecidableEq

/-- The definition of one kind of entry. -/
structure ContentType where
  id : String
  name : String
  description? : Option String
  displayField? : Option String
  fields : List Field
  deriving DecidableEq

/-- A content type with the given fields, named by its identity. -/
def ContentType.new (id : String) (fields : List Field) : ContentType := ⟨id, id, none, none, fields⟩

/-- The field of a content type with the given identity. -/
def ContentType.field? (c : ContentType) (id : String) : Option Field :=
  c.fields.find? fun f => f.id = id

/-- The fields that are delivered. -/
def ContentType.delivered (c : ContentType) : List Field := c.fields.filter fun f => !f.omitted

namespace Field

/-- A field of the given kind with nothing else declared. -/
def new (id : String) (kind : FieldKind) : Field :=
  ⟨id, id, kind, none, none, [], false, false, false, false, false⟩

/-- The validation that allows one content type. -/
def onlyType (contentType : String) : List Validation := [⟨some [contentType]⟩]

/-- A link to an entry of one content type. -/
def entryLink (id contentType : String) : Field :=
  { new id .link with linkKind? := some .entry, validations := onlyType contentType }

/-- A link to an asset. -/
def assetLink (id : String) : Field := { new id .link with linkKind? := some .asset }

/-- An array of links to entries of one content type. -/
def entryLinks (id contentType : String) : Field :=
  { new id .array with items? := some ⟨.link, some .entry, onlyType contentType⟩ }

/-- An array of scalars. -/
def scalars (id : String) (kind : FieldKind) : Field :=
  { new id .array with items? := some ⟨kind, none, []⟩ }

/-- The field with a value for each locale. -/
def perLocale (f : Field) : Field := { f with localized := true }

end Field

/-! ## Shapes -/

/-- The kinds of scalar that a column can hold. -/
inductive ScalarKind where
  | text
  | integer
  | number
  | date
  | boolean
  | location
  | object
  deriving DecidableEq, Inhabited

/-- What a link may point at. -/
inductive LinkScope where
  | asset
  /-- Entries of the listed content types, of any if the list is empty. -/
  | entries (contentTypes : List String)
  deriving DecidableEq

/-- What a field holds. -/
inductive FieldShape where
  | scalar (kind : ScalarKind)
  | link (scope : LinkScope)
  | scalars (kind : ScalarKind)
  | links (scope : LinkScope)
  deriving DecidableEq

/-- How a field kind reads as content. -/
inductive KindReading where
  | scalar (kind : ScalarKind)
  | link
  | array

/-- Unknown kinds read as text. -/
def FieldKind.reading : FieldKind → KindReading
  | .symbol | .text | .unknown => .scalar .text
  | .integer => .scalar .integer
  | .number => .scalar .number
  | .date => .scalar .date
  | .boolean => .scalar .boolean
  | .location => .scalar .location
  | .object | .richText => .scalar .object
  | .link => .link
  | .array => .array

namespace Field

/-- The scope of a link declared with a target kind and validations. -/
def linkScope (field : String) (kind? : Option LinkKind) (validations : List Validation) :
    Except TypeFault LinkScope :=
  match kind? with
  | some .asset => .ok .asset
  | some .entry => .ok (.entries (validations.filterMap (·.linkContentType?)).flatten)
  | none => .error (.linkWithoutTarget field)

/-- What a field holds. -/
def shape (f : Field) : Except TypeFault FieldShape :=
  match f.kind.reading with
  | .scalar kind => .ok (.scalar kind)
  | .link => (linkScope f.id f.linkKind? f.validations).map .link
  | .array =>
    match f.items? with
    | none => .error (.arrayWithoutItems f.id)
    | some items =>
      match items.kind.reading with
      | .scalar kind => .ok (.scalars kind)
      | .link => (linkScope f.id items.linkKind? items.validations).map .links
      | .array => .error (.nestedArray f.id)

end Field

/-! ## JSON -/

namespace FieldKind

/-- The name of a kind. -/
def name : FieldKind → String
  | symbol => "Symbol"
  | text => "Text"
  | integer => "Integer"
  | number => "Number"
  | date => "Date"
  | boolean => "Boolean"
  | location => "Location"
  | object => "Object"
  | richText => "RichText"
  | link => "Link"
  | array => "Array"
  | unknown => "Unknown"

/-- The kind of a name; any other name is an unknown kind. -/
def ofName (s : String) : FieldKind :=
  match s with
  | "Symbol" => symbol
  | "Text" => text
  | "Integer" => integer
  | "Number" => number
  | "Date" => date
  | "Boolean" => boolean
  | "Location" => location
  | "Object" => object
  | "RichText" => richText
  | "Link" => link
  | "Array" => array
  | _ => unknown

/-- A kind from its JSON form. -/
def decode? (j : Json) : Option FieldKind := j.unitVariant?.map ofName

end FieldKind

namespace LinkKind

/-- A link kind from its JSON form. -/
def decode? (j : Json) : Option LinkKind :=
  match j.unitVariant? with
  | some "Entry" => some .entry
  | some "Asset" => some .asset
  | _ => none

/-- A link kind or its absence in JSON. -/
def encode? : Option LinkKind → Json
  | some .entry => .str "Entry"
  | some .asset => .str "Asset"
  | none => .null

end LinkKind

namespace Validation

/-- A validation from its JSON form. -/
def decode? (j : Json) : Option Validation := do
  let r ← j.record? ["linkContentType"]
  return ⟨← r.optional? "linkContentType" (Json.list? Json.text?)⟩

/-- A validation in JSON. -/
def encode (v : Validation) : Json :=
  match v.linkContentType? with
  | some types => .obj [("linkContentType", .arr (types.map .str))]
  | none => .obj []

end Validation

namespace Items

/-- An item declaration from its JSON form. -/
def decode? (j : Json) : Option Items := do
  let r ← j.record? ["type", "linkType", "validations"]
  return ⟨← r.field? "type" FieldKind.decode?, ← r.optional? "linkType" LinkKind.decode?,
    ← r.fieldD? "validations" (Json.list? Validation.decode?) []⟩

/-- An item declaration in JSON. -/
def encode (i : Items) : Json :=
  .obj [("type", .str i.kind.name), ("linkType", LinkKind.encode? i.linkKind?),
    ("validations", .arr (i.validations.map Validation.encode))]

end Items

namespace Field

/-- A field from its JSON form. -/
def decode? (j : Json) : Option Field := do
  let r ← j.record? ["id", "name", "type", "linkType", "items", "validations", "required",
    "localized", "unique", "disabled", "omitted"]
  let flag (name : String) : Option Bool := r.fieldD? name Json.bool? false
  return ⟨← r.field? "id" Json.text?, ← r.fieldD? "name" Json.text? "",
    ← r.field? "type" FieldKind.decode?, ← r.optional? "linkType" LinkKind.decode?,
    ← r.optional? "items" Items.decode?, ← r.fieldD? "validations" (Json.list? Validation.decode?) [],
    ← flag "required", ← flag "localized", ← flag "unique", ← flag "disabled", ← flag "omitted"⟩

/-- A field in JSON. -/
def encode (f : Field) : Json :=
  .obj [("id", .str f.id), ("name", .str f.name), ("type", .str f.kind.name),
    ("linkType", LinkKind.encode? f.linkKind?),
    ("items", match f.items? with
      | some items => items.encode
      | none => .null),
    ("validations", .arr (f.validations.map Validation.encode)), ("required", .bool f.required),
    ("localized", .bool f.localized), ("unique", .bool f.unique), ("disabled", .bool f.disabled),
    ("omitted", .bool f.omitted)]

end Field

namespace ContentType

/-- A content type from its JSON form. -/
def decode? (j : Json) : Option ContentType := do
  let r ← j.record? ["id", "name", "description", "displayField", "fields"]
  return ⟨← r.field? "id" Json.text?, ← r.fieldD? "name" Json.text? "",
    ← r.optional? "description" Json.text?, ← r.optional? "displayField" Json.text?,
    ← r.field? "fields" (Json.list? Field.decode?)⟩

/-- A content type in JSON, its members in a fixed order. -/
def encode (c : ContentType) : Json :=
  .obj [("id", .str c.id), ("name", .str c.name), ("description", .ofText? c.description?),
    ("displayField", .ofText? c.displayField?), ("fields", .arr (c.fields.map Field.encode))]

/-- A digest of the definition. -/
def fingerprint (c : ContentType) : String := Blake3.hexDigest c.encode.render

end ContentType

end ContentReplica
