import ContentReplica.Json.Decoder
import ContentReplica.Sql.Ident

/-!
# Configuration

`Config` is the configuration of a replica in its sections, every setting with a default. A
configuration is accepted (`Config.validate`) when its namespace is a plain identifier, there is at
least one worker and one connection, and the two suffixes of a migration are different texts.
-/

namespace ContentReplica

/-- The connection to the database. -/
structure DatabaseConfig where
  url : String := "postgres://localhost/contentdb"
  maxConnections : Nat := 10
  minConnections : Nat := 0
  maxLifetimeSecs : Nat := 1800
  idleTimeoutSecs : Nat := 600
  acquireTimeoutSecs : Nat := 30
  deriving DecidableEq, Inhabited

/-- The live namespace, and how many levels of links a document embeds. -/
structure SchemaConfig where
  namespaceName : String := "content"
  maxIncludeDepth : Nat := 3
  deriving DecidableEq, Inhabited

/-- How rate limits of the content source are met. -/
structure SyncConfig where
  maxRateLimitRetries : Nat := 5
  /-- The wait when the source gives no hint. -/
  defaultBackoffMs : Nat := 1000
  deriving DecidableEq, Inhabited

/-- How views are refreshed. -/
structure ViewsConfig where
  workers : Nat := 10
  /-- How far a change reaches; as far as documents embed links unless it is given. -/
  dependencyDepth? : Option Nat := none
  concurrentRefresh : Bool := true
  deriving DecidableEq, Inhabited

/-- How the namespaces of a migration are named after the live one. -/
structure MigrationConfig where
  shadowSuffix : String := "_shadow"
  retiredSuffix : String := "_retired"
  deriving DecidableEq, Inhabited

/-- How events are logged. -/
structure LoggingConfig where
  level : String := "info"
  ansi : Bool := true
  withTarget : Bool := false
  deriving DecidableEq, Inhabited

/-- The configuration of a replica. -/
structure Config where
  database : DatabaseConfig := {}
  schema : SchemaConfig := {}
  sync : SyncConfig := {}
  views : ViewsConfig := {}
  migration : MigrationConfig := {}
  logging : LoggingConfig := {}
  deriving DecidableEq, Inhabited

namespace Config

/-- How far a change reaches. -/
def dependencyDepth (c : Config) : Nat := c.views.dependencyDepth?.getD c.schema.maxIncludeDepth

/-- The live namespace. -/
def namespaceIdent (c : Config) : Except Error Ident := Ident.new? c.schema.namespaceName

/-- Check the settings that have to fit together. -/
def validate (c : Config) : Except Error Unit := do
  if !Ident.isPlain c.schema.namespaceName then
    throw (.config (.notAnIdentifier c.schema.namespaceName))
  if c.views.workers = 0 then throw (.config .noWorkers)
  if c.database.maxConnections = 0 then throw (.config .noConnections)
  let m := c.migration
  if m.shadowSuffix.isEmpty || m.retiredSuffix.isEmpty || m.shadowSuffix == m.retiredSuffix then
    throw (.config .migrationSuffixes)

/-- The configuration with the address of the database replaced, unless the new one is empty. -/
def withDatabaseUrl (c : Config) : Option String → Config
  | some url => if url.isEmpty then c else { c with database := { c.database with url := url } }
  | none => c

/-! ## JSON -/

/-- The connection section from its JSON form. -/
def decodeDatabase? (j : Json) : Option DatabaseConfig := do
  let r ← j.record? ["url", "max_connections", "min_connections", "max_lifetime_secs",
    "idle_timeout_secs", "acquire_timeout_secs"]
  let d : DatabaseConfig := {}
  return {
    url := ← r.fieldD? "url" Json.text? d.url
    maxConnections := ← r.fieldD? "max_connections" (Json.nat? 32) d.maxConnections
    minConnections := ← r.fieldD? "min_connections" (Json.nat? 32) d.minConnections
    maxLifetimeSecs := ← r.fieldD? "max_lifetime_secs" (Json.nat? 64) d.maxLifetimeSecs
    idleTimeoutSecs := ← r.fieldD? "idle_timeout_secs" (Json.nat? 64) d.idleTimeoutSecs
    acquireTimeoutSecs := ← r.fieldD? "acquire_timeout_secs" (Json.nat? 64) d.acquireTimeoutSecs }

/-- The schema section from its JSON form. -/
def decodeSchema? (j : Json) : Option SchemaConfig := do
  let r ← j.record? ["namespace", "max_include_depth"]
  let d : SchemaConfig := {}
  return {
    namespaceName := ← r.fieldD? "namespace" Json.text? d.namespaceName
    maxIncludeDepth := ← r.fieldD? "max_include_depth" (Json.nat? 8) d.maxIncludeDepth }

/-- The sync section from its JSON form. -/
def decodeSync? (j : Json) : Option SyncConfig := do
  let r ← j.record? ["max_rate_limit_retries", "default_backoff_ms"]
  let d : SyncConfig := {}
  return {
    maxRateLimitRetries := ← r.fieldD? "max_rate_limit_retries" (Json.nat? 32) d.maxRateLimitRetries
    defaultBackoffMs := ← r.fieldD? "default_backoff_ms" (Json.nat? 64) d.defaultBackoffMs }

/-- The views section from its JSON form. -/
def decodeViews? (j : Json) : Option ViewsConfig := do
  let r ← j.record? ["workers", "dependency_depth", "concurrent_refresh"]
  let d : ViewsConfig := {}
  return {
    workers := ← r.fieldD? "workers" (Json.nat? 64) d.workers
    dependencyDepth? := ← r.optional? "dependency_depth" (Json.nat? 8)
    concurrentRefresh := ← r.fieldD? "concurrent_refresh" Json.bool? d.concurrentRefresh }

/-- The migration section from its JSON form. -/
def decodeMigration? (j : Json) : Option MigrationConfig := do
  let r ← j.record? ["shadow_suffix", "retired_suffix"]
  let d : MigrationConfig := {}
  return {
    shadowSuffix := ← r.fieldD? "shadow_suffix" Json.text? d.shadowSuffix
    retiredSuffix := ← r.fieldD? "retired_suffix" Json.text? d.retiredSuffix }

/-- The logging section from its JSON form. -/
def decodeLogging? (j : Json) : Option LoggingConfig := do
  let r ← j.record? ["level", "ansi", "with_target"]
  let d : LoggingConfig := {}
  return {
    level := ← r.fieldD? "level" Json.text? d.level
    ansi := ← r.fieldD? "ansi" Json.bool? d.ansi
    withTarget := ← r.fieldD? "with_target" Json.bool? d.withTarget }

/-- A configuration from its JSON form. -/
def decode? (j : Json) : Option Config := do
  let r ← j.record? ["database", "schema", "sync", "views", "migration", "logging"]
  return {
    database := ← r.fieldD? "database" decodeDatabase? {}
    schema := ← r.fieldD? "schema" decodeSchema? {}
    sync := ← r.fieldD? "sync" decodeSync? {}
    views := ← r.fieldD? "views" decodeViews? {}
    migration := ← r.fieldD? "migration" decodeMigration? {}
    logging := ← r.fieldD? "logging" decodeLogging? {} }

/-- A configuration in JSON. -/
def encode (c : Config) : Json :=
  .obj [
    ("database", .obj [("url", .str c.database.url), ("max_connections", .nat c.database.maxConnections),
      ("min_connections", .nat c.database.minConnections),
      ("max_lifetime_secs", .nat c.database.maxLifetimeSecs),
      ("idle_timeout_secs", .nat c.database.idleTimeoutSecs),
      ("acquire_timeout_secs", .nat c.database.acquireTimeoutSecs)]),
    ("schema", .obj [("namespace", .str c.schema.namespaceName),
      ("max_include_depth", .nat c.schema.maxIncludeDepth)]),
    ("sync", .obj [("max_rate_limit_retries", .nat c.sync.maxRateLimitRetries),
      ("default_backoff_ms", .nat c.sync.defaultBackoffMs)]),
    ("views", .obj [("workers", .nat c.views.workers),
      ("dependency_depth", match c.views.dependencyDepth? with
        | some d => .nat d
        | none => .null),
      ("concurrent_refresh", .bool c.views.concurrentRefresh)]),
    ("migration", .obj [("shadow_suffix", .str c.migration.shadowSuffix),
      ("retired_suffix", .str c.migration.retiredSuffix)]),
    ("logging", .obj [("level", .str c.logging.level), ("ansi", .bool c.logging.ansi),
      ("with_target", .bool c.logging.withTarget)])]

end Config

end ContentReplica
