import ContentReplica.Schema.Layout
import ContentReplica.Space

/-!
# Compiling content types

`Schema.compile` turns content types into table layouts, in their order. A content type without a
usable layout is left out and recorded (`Schema.failures`), so it never blocks the others; a link to
it stays unresolved. `Schema.compileOne?` compiles one content type among the others.
-/

namespace ContentReplica

/-- A content type that was left out, and why. -/
structure CompileFailure where
  contentType : String
  fault : TypeFault
  deriving DecidableEq

namespace CompileFailure

/-- The recorded text. -/
def message (f : CompileFailure) : String :=
  match f.fault with
  | .tableTaken table => (TypeFault.tableTaken table).message
  | fault => (Error.compile f.contentType fault).message

/-- The failure as the error of a compilation. -/
def toError (f : CompileFailure) : Error := .compile f.contentType (.other f.message)

end CompileFailure

/-- The tables of the compiled content types, and the content types that were left out. -/
structure Schema where
  tables : List TableLayout
  failures : List CompileFailure
  deriving DecidableEq

namespace Schema

/-! ## Reading a schema -/

/-- The table of a content type, if it was compiled. -/
def entryTable? (s : Schema) (contentType : String) : Option TableLayout :=
  s.tables.find? fun t => t.contentType = contentType

/-- The table of a content type or of assets. -/
def table? (s : Schema) (contentType : String) : Option TableLayout :=
  if contentType = Naming.assetsTable.text then some assetLayout else s.entryTable? contentType

/-- The tables of content types and the table of assets. -/
def allTables (s : Schema) : List TableLayout := s.tables ++ [assetLayout]

/-- All link tables. -/
def linkTables (s : Schema) : List LinkTable := s.tables.flatMap TableLayout.linkTables

/-- The compiled content types. -/
def contentTypes (s : Schema) : List String := s.tables.map TableLayout.contentType

/-- All references between content types. -/
def references (s : Schema) : List Reference := s.tables.flatMap TableLayout.references

/-- The tables whose rows own edges, with the link tables that hold them. -/
def deleteTriggers (s : Schema) : List (Ident × List Ident) :=
  s.tables.filterMap fun t =>
    if t.linkTables.isEmpty then none else some (t.name, t.linkTables.map LinkTable.name)

/-- A digest over the compiled definitions. -/
def fingerprint (s : Schema) : String :=
  Blake3.hexDigest <| String.join <| s.tables.map fun t =>
    t.contentType ++ "\x00" ++ t.fingerprint ++ "\n"

/-! ## Compilation -/

/-- Check the fields of a content type: each has a shape and a column of its own. -/
def checkFields : List Ident → List Field → Except TypeFault Unit
  | _, [] => .ok ()
  | seen, f :: rest => do
    let _ ← f.shape
    let column := Naming.column f.id
    if seen.contains column then throw (.columnTaken f.id)
    checkFields (column :: seen) rest

/-- Check a content type on its own. -/
def checkType (c : ContentType) : Except TypeFault Unit := do
  if c.id.isEmpty then throw .withoutId
  if Naming.table c.id = Naming.assetsTable then throw .assetTable
  checkFields [] c.delivered

/-- Part the content types into those that get a table and those that do not. `taken` are the tables
of the content types before. -/
def sift (taken : List Ident) : List ContentType → List ContentType × List CompileFailure
  | [] => ([], [])
  | c :: rest =>
    match checkType c with
    | .error fault =>
      let (valid, failed) := sift taken rest
      (valid, ⟨c.id, fault⟩ :: failed)
    | .ok () =>
      let table := Naming.table c.id
      if taken.contains table then
        let (valid, failed) := sift taken rest
        (valid, ⟨c.id, .tableTaken table.text⟩ :: failed)
      else
        let (valid, failed) := sift (table :: taken) rest
        (c :: valid, failed)

/-- Where a field of the given shape is stored. -/
def place (known : List String) (table column : Ident) : FieldShape → Placement
  | .scalar kind => .value kind.columnType
  | .scalars kind => .value (.array kind.columnType)
  | .link scope => .link (.resolve known scope)
  | .links scope => .links (Naming.linkTable table column) (.resolve known scope)

/-- The layout of a field, none if it has no shape. -/
def layoutField? (known : List String) (table : Ident) (f : Field) : Option FieldLayout :=
  match f.shape with
  | .error _ => none
  | .ok shape =>
    let column := Naming.column f.id
    some ⟨f.id, column, f.localized, f.unique, shape, place known table column shape⟩

/-- The layout of a content type, given the content types that have a table. -/
def layoutType (known : List String) (c : ContentType) : TableLayout where
  contentType := c.id
  name := Naming.table c.id
  kind := .entry
  fields := c.delivered.filterMap (layoutField? known (Naming.table c.id))
  source? := some c

/-- Compile content types. -/
def compile (types : List ContentType) : Schema :=
  let (valid, failures) := sift [] types
  ⟨valid.map (layoutType (valid.map ContentType.id)), failures⟩

/-- Compile the content types of one identity; links still see all the others. -/
def compileOne? (types : List ContentType) (id : String) : Except Error Schema :=
  if types.all fun c => c.id ≠ id then .error (.contentTypeNotFound id)
  else
    let (valid, failures) := sift [] types
    match failures.find? fun f => f.contentType = id with
    | some failure => .error failure.toError
    | none =>
      let known := valid.map ContentType.id
      .ok ⟨(valid.filter fun c => c.id = id).map (layoutType known), []⟩

/-- Compile content types for a space, whose locales have to be valid. -/
def compileFor (space : Space) (types : List ContentType) : Except Error Schema := do
  space.validate
  return compile types

/-- Compile the content types of one identity for a space. -/
def compileOneFor (space : Space) (types : List ContentType) (id : String) :
    Except Error Schema := do
  space.validate
  compileOne? types id

end Schema

end ContentReplica
