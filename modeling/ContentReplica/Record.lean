import ContentReplica.ContentType

/-!
# Delivered records

What the content source delivers: `Entry` and `Asset` records with a value for each field and
locale, `Tombstone`s for deleted records, and the `SyncPage`s of the feed in which they arrive. A
page ends with a cursor: either more pages follow in this cycle, or the cycle is complete.
-/

namespace ContentReplica

/-! ## Entries and assets -/

/-- The values of one field by locale code. -/
abbrev LocalizedValue := SortedMap String Json

/-- The metadata of a record. -/
structure RecordSys where
  id : String
  version : Int
  revision : Int
  createdAt? : Option String
  updatedAt? : Option String
  publishedAt? : Option String
  deriving DecidableEq

/-- The metadata of a new record. -/
def RecordSys.new (id : String) : RecordSys := ⟨id, 1, 1, none, none, none⟩

/-- An entry: a record of a content type. -/
structure Entry where
  sys : RecordSys
  contentType : String
  fields : SortedMap String LocalizedValue

namespace Entry

/-- An entry without values. -/
def new (id contentType : String) : Entry := ⟨.new id, contentType, .empty⟩

/-- The entry with a value for one field and locale. -/
def withField (e : Entry) (field locale : String) (value : Json) : Entry :=
  let values := (e.fields.get? field).getD .empty
  { e with fields := e.fields.insert field (values.insert locale value) }

end Entry

/-- The file of an asset. -/
structure AssetFile where
  fileName : String
  contentType : String
  url : String
  deriving DecidableEq

/-- An asset: a file with its texts. -/
structure Asset where
  sys : RecordSys
  title : SortedMap String String
  description : SortedMap String String
  file : SortedMap String AssetFile

namespace Asset

/-- What follows the last slash of an address. -/
def lastSegment (url : String) : String :=
  String.ofList (url.toList.reverse.takeWhile (· ≠ '/')).reverse

/-- An asset with a title and a file in one locale. -/
def new (id locale title url : String) : Asset :=
  ⟨.new id, SortedMap.empty.insert locale title, .empty,
    SortedMap.empty.insert locale ⟨lastSegment url, "application/octet-stream", url⟩⟩

/-- The locales of all texts and files, one part after the other. -/
def locales (a : Asset) : List String := a.title.keys ++ a.description.keys ++ a.file.keys

end Asset

/-! ## The feed -/

/-- The kind of a deleted record. -/
inductive TombstoneKind where
  | deletedEntry
  | deletedAsset
  deriving DecidableEq

/-- The news that a record was deleted. -/
structure Tombstone where
  sysId : String
  kind : TombstoneKind
  /-- The content type of a deleted entry, if the source reports it. -/
  contentType? : Option String
  deriving DecidableEq

/-- Where the feed continues after a page. -/
inductive Cursor where
  /-- More pages follow in this cycle. -/
  | next (token : String)
  /-- The cycle is complete; the token begins the next one. -/
  | done (token : String)
  deriving DecidableEq

namespace Cursor

/-- The token of a cursor. -/
def token : Cursor → String
  | next t => t
  | done t => t

/-- Whether the cycle is complete. -/
def isDone : Cursor → Bool
  | done _ => true
  | next _ => false

end Cursor

/-- One page of the feed. -/
structure SyncPage where
  entries : List Entry
  assets : List Asset
  deletions : List Tombstone
  contentTypes : List ContentType
  cursor : Cursor

namespace SyncPage

/-- A page without records. -/
def empty (cursor : Cursor) : SyncPage := ⟨[], [], [], [], cursor⟩

/-- The number of records and tombstones. -/
def size (p : SyncPage) : Nat := p.entries.length + p.assets.length + p.deletions.length

/-- The page with one more entry. -/
def withEntry (p : SyncPage) (e : Entry) : SyncPage := { p with entries := p.entries ++ [e] }

/-- The page with one more asset. -/
def withAsset (p : SyncPage) (a : Asset) : SyncPage := { p with assets := p.assets ++ [a] }

/-- The page with one more tombstone. -/
def withDeletion (p : SyncPage) (t : Tombstone) : SyncPage :=
  { p with deletions := p.deletions ++ [t] }

end SyncPage

/-- The target's identity in the payload of a link. -/
def linkId? (value : Json) : Option String :=
  ((value.get? "sys").bind (·.get? "id")).bind Json.text?

/-- The payload of a link to a record. -/
def linkTo (kind id : String) : Json :=
  .mkObj [("sys", .mkObj [("type", .str "Link"), ("linkType", .str kind), ("id", .str id)])]

/-! ## JSON -/

/-- A map of texts to values in JSON. -/
def encodeMap {α : Type} (encode : α → Json) (m : SortedMap String α) : Json :=
  .obj (m.entries.map fun e => (e.1, encode e.2))

namespace RecordSys

/-- The fields of the metadata, a content type among them for entries. -/
def fieldNames (entry : Bool) : List String :=
  ["id"] ++ (if entry then ["contentType"] else [])
    ++ ["version", "revision", "createdAt", "updatedAt", "publishedAt"]

/-- Metadata from the fields of its JSON form. -/
def ofRecord? (r : Json.Record) : Option RecordSys := do
  return ⟨← r.field? "id" Json.text?, ← r.fieldD? "version" Json.int64? 0,
    ← r.fieldD? "revision" Json.int64? 0, ← r.optional? "createdAt" Json.text?,
    ← r.optional? "updatedAt" Json.text?, ← r.optional? "publishedAt" Json.text?⟩

/-- Metadata in JSON. -/
def encode (s : RecordSys) (contentType? : Option String) : Json :=
  .obj ([("id", .str s.id)]
    ++ (match contentType? with
      | some c => [("contentType", .str c)]
      | none => [])
    ++ [("version", .int s.version), ("revision", .int s.revision),
      ("createdAt", .ofText? s.createdAt?), ("updatedAt", .ofText? s.updatedAt?),
      ("publishedAt", .ofText? s.publishedAt?)])

end RecordSys

namespace Entry

/-- An entry from its JSON form. -/
def decode? (j : Json) : Option Entry := do
  let r ← j.record? ["sys", "fields"]
  let sys ← r.field? "sys" (Json.record? (RecordSys.fieldNames true))
  return ⟨← RecordSys.ofRecord? sys, ← sys.field? "contentType" Json.text?,
    ← r.fieldD? "fields" (Json.map? (Json.map? some)) .empty⟩

/-- An entry in JSON. -/
def encode (e : Entry) : Json :=
  .obj [("sys", e.sys.encode (some e.contentType)), ("fields", encodeMap (encodeMap id) e.fields)]

end Entry

namespace AssetFile

/-- A file from its JSON form. -/
def decode? (j : Json) : Option AssetFile := do
  let r ← j.record? ["fileName", "contentType", "url"]
  return ⟨← r.field? "fileName" Json.text?, ← r.field? "contentType" Json.text?,
    ← r.field? "url" Json.text?⟩

/-- A file in JSON. -/
def encode (f : AssetFile) : Json :=
  .obj [("fileName", .str f.fileName), ("contentType", .str f.contentType), ("url", .str f.url)]

end AssetFile

namespace Asset

/-- An asset from its JSON form. -/
def decode? (j : Json) : Option Asset := do
  let r ← j.record? ["sys", "fields"]
  let sys ← r.field? "sys" (Json.record? (RecordSys.fieldNames false))
  let fields ← r.fieldD? "fields" (Json.record? ["title", "description", "file"]) []
  return ⟨← RecordSys.ofRecord? sys, ← fields.fieldD? "title" (Json.map? Json.text?) .empty,
    ← fields.fieldD? "description" (Json.map? Json.text?) .empty,
    ← fields.fieldD? "file" (Json.map? AssetFile.decode?) .empty⟩

/-- An asset in JSON. -/
def encode (a : Asset) : Json :=
  .obj [("sys", a.sys.encode none),
    ("fields", .obj [("title", encodeMap .str a.title), ("description", encodeMap .str a.description),
      ("file", encodeMap AssetFile.encode a.file)])]

end Asset

namespace Tombstone

/-- The kind of a tombstone from its JSON form. -/
def decodeKind? (j : Json) : Option TombstoneKind :=
  match j.unitVariant? with
  | some "DeletedEntry" => some .deletedEntry
  | some "DeletedAsset" => some .deletedAsset
  | _ => none

/-- A tombstone from its JSON form. -/
def decode? (j : Json) : Option Tombstone := do
  let r ← j.record? ["sysId", "kind", "contentType"]
  return ⟨← r.field? "sysId" Json.text?, ← r.field? "kind" decodeKind?,
    ← r.optional? "contentType" Json.text?⟩

/-- A tombstone in JSON. -/
def encode (t : Tombstone) : Json :=
  .obj [("sysId", .str t.sysId),
    ("kind", .str (match t.kind with
      | .deletedEntry => "DeletedEntry"
      | .deletedAsset => "DeletedAsset")),
    ("contentType", .ofText? t.contentType?)]

end Tombstone

namespace Cursor

/-- A cursor from its JSON form. -/
def decode? : Json → Option Cursor
  | .obj [("Next", .str t)] => some (.next t)
  | .obj [("Done", .str t)] => some (.done t)
  | _ => none

/-- A cursor in JSON. -/
def encode : Cursor → Json
  | next t => .obj [("Next", .str t)]
  | done t => .obj [("Done", .str t)]

end Cursor

namespace SyncPage

/-- A page from its JSON form. -/
def decode? (j : Json) : Option SyncPage := do
  let r ← j.record? ["entries", "assets", "deletions", "contentTypes", "cursor"]
  return ⟨← r.fieldD? "entries" (Json.list? Entry.decode?) [],
    ← r.fieldD? "assets" (Json.list? Asset.decode?) [],
    ← r.fieldD? "deletions" (Json.list? Tombstone.decode?) [],
    ← r.fieldD? "contentTypes" (Json.list? ContentType.decode?) [],
    ← r.field? "cursor" Cursor.decode?⟩

/-- A page in JSON. -/
def encode (p : SyncPage) : Json :=
  .obj [("entries", .arr (p.entries.map Entry.encode)), ("assets", .arr (p.assets.map Asset.encode)),
    ("deletions", .arr (p.deletions.map Tombstone.encode)),
    ("contentTypes", .arr (p.contentTypes.map ContentType.encode)), ("cursor", p.cursor.encode)]

end SyncPage

end ContentReplica
