import ContentReplica.Sql.Predicate

/-!
# Definitions of database objects

Columns, tables, indexes, delete triggers and materialized views as the statements define them, and
the names of the columns that every generated table has.
-/

namespace ContentReplica

/-! ## Column names -/

namespace Column

/-- Key of a row: record and locale in one text. -/
def id : Ident := ⟨"id"⟩
/-- Identity of a record. -/
def sysId : Ident := ⟨"sys_id"⟩
/-- Locale of a row. -/
def locale : Ident := ⟨"locale"⟩
/-- Version of a record. -/
def version : Ident := ⟨"version"⟩
/-- Published revision of a record. -/
def revision : Ident := ⟨"revision"⟩
/-- Creation time of a record. -/
def createdAt : Ident := ⟨"created_at"⟩
/-- Time of the last change. -/
def updatedAt : Ident := ⟨"updated_at"⟩
/-- Time of the last publication. -/
def publishedAt : Ident := ⟨"published_at"⟩
/-- Row that owns an edge. -/
def ownerId : Ident := ⟨"owner_id"⟩
/-- Record that owns an edge. -/
def ownerSysId : Ident := ⟨"owner_sys_id"⟩
/-- Row that an edge points at. -/
def targetId : Ident := ⟨"target_id"⟩
/-- Record that an edge points at. -/
def targetSysId : Ident := ⟨"target_sys_id"⟩
/-- Place of an edge among those of its owner. -/
def position : Ident := ⟨"position"⟩
/-- Nested document that a query function returns. -/
def data : Ident := ⟨"_data"⟩
/-- Stored sync token. -/
def token : Ident := ⟨"token"⟩
/-- Code of a locale. -/
def code : Ident := ⟨"code"⟩
/-- Locale consulted when a value is missing. -/
def fallbackCode : Ident := ⟨"fallback_code"⟩
/-- Whether a locale is the default. -/
def isDefault : Ident := ⟨"is_default"⟩

/-- Names that no content field may take. -/
def reserved : List Ident :=
  [id, sysId, locale, version, revision, createdAt, updatedAt, publishedAt, data]

end Column

/-- The table that holds the sync token. -/
def syncTokenTable : Ident := ⟨"_sync_token"⟩

/-- The table of locales that query functions consult. -/
def localesTable : Ident := ⟨"_locales"⟩

/-! ## Definitions -/

/-- A column of a table. -/
structure ColumnDef where
  name : Ident
  type : SqlType
  primaryKey : Bool := false
  notNull : Bool := false
  deriving DecidableEq, Inhabited

namespace ColumnDef

/-- The primary key column of the given name and type. -/
def key (name : Ident) (type : SqlType) : ColumnDef := ⟨name, type, true, true⟩

/-- A column that never holds NULL. -/
def required (name : Ident) (type : SqlType) : ColumnDef := ⟨name, type, false, true⟩

/-- A column that may hold NULL. -/
def optional (name : Ident) (type : SqlType) : ColumnDef := ⟨name, type, false, false⟩

/-- The column as it is written in a table definition. -/
def ddl (c : ColumnDef) : String :=
  c.name.quoted ++ " " ++ c.type.ddl ++
    if c.primaryKey then " PRIMARY KEY" else if c.notNull then " NOT NULL" else ""

end ColumnDef

/-- A table. -/
structure TableDef where
  name : QualifiedName
  columns : List ColumnDef
  deriving DecidableEq

/-- The primary key column of a list of columns, if there is one. -/
def primaryKey? (columns : List ColumnDef) : Option ColumnDef := columns.find? (·.primaryKey)

/-- An index. -/
structure IndexDef where
  name : Ident
  table : QualifiedName
  columns : List Ident
  unique : Bool
  deriving DecidableEq

/-- A trigger that removes the edges owned by a deleted row. -/
structure TriggerDef where
  table : QualifiedName
  linkTables : List Ident
  deriving DecidableEq

/-- A materialized view over a query function in one locale. -/
structure ViewDef where
  name : QualifiedName
  function : QualifiedName
  locale : String
  uniqueKey : Ident
  deriving DecidableEq

end ContentReplica
