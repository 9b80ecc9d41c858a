import ContentReplica.Json.Printer
import ContentReplica.Text.Quoted

/-!
# What can go wrong

`Error` is every way in which an operation of the library fails. Each area has its own type of
causes (`SpaceFault`, `TypeFault`, `ValueFault`, `ApplyFault`, `QueryFault`, `StoreFault`,
`ConfigFault`) with the wording in one function `message`; a cause `other` holds a text reported
from outside the library, for instance by the content source. `Error.message` is the whole text and
`Error.code` the stable code that clients test.
-/

namespace ContentReplica

/-! ## Causes -/

/-- Why the locales of a space are unusable. -/
inductive SpaceFault where
  /-- The number of default locales is not one. -/
  | defaultCount (found : Nat)
  | codeTwice (code : String)
  | noDefault
  | fallbackCycle (code : String)
  | unknownFallback (code : String)
  | other (text : String)
  deriving DecidableEq

/-- Why a content type has no table. -/
inductive TypeFault where
  | withoutId
  | assetTable
  | linkWithoutTarget (field : String)
  | arrayWithoutItems (field : String)
  | nestedArray (field : String)
  | columnTaken (field : String)
  | tableTaken (table : String)
  | other (text : String)
  deriving DecidableEq

/-- Why a payload value does not fit its column. -/
inductive ValueFault where
  /-- The value is not of the expected kind. -/
  | expected (kind : String) (value : Json)
  | integerRange (value : Int)
  | expectedLink

/-- Why a delivered record cannot be stored. -/
inductive ApplyFault where
  | value (sysId field : String) (fault : ValueFault)
  | other (text : String)

/-- Why a query request is refused. -/
inductive QueryFault where
  | unknownComparator (name : String)
  | notACount (key value : String)
  | malformedKey (key : String)
  | noContentType
  | skipTooLarge (largest skip : Nat)
  | unsupportedPath (path : String)
  /-- The raw value is not of the kind of the column. -/
  | expects (path kind raw : String)
  | notFilterable (path : String)
  | noValue (path : String)
  | existsValue (path raw : String)
  | notComparable (path : String)
  | needsText (path : String)
  | needsArray (path : String)
  | notOrderable (path : String)
  | other (text : String)
  deriving DecidableEq

/-- Why the store refuses a statement or a call. -/
inductive StoreFault where
  | noNamespace (name : String)
  | noRelation (name : String)
  | noColumn (name : String)
  | noFunction (name : String)
  | nullKey (column : String)
  | nullColumn (column : String)
  | rowWidth
  | noUniqueKey (column : String)
  | duplicateKey (key table : String)
  /-- A failure that was asked for. -/
  | injected (kind namespaceName : String)
  | transactionAborted
  | commitAfterAbort
  | other (text : String)
  deriving DecidableEq

/-- Why a configuration is refused. -/
inductive ConfigFault where
  | unreadable
  | notAnIdentifier (name : String)
  | noWorkers
  | noConnections
  | migrationSuffixes
  | other (text : String)
  deriving DecidableEq

/-- The stages in which a migration is prepared and promoted. -/
inductive MigrationStage where
  | dropShadow
  | compileSchema
  | bulkSync
  | saveToken
  | buildProcedures
  | refreshViews
  | swapNamespaces
  /-- A stage reported from outside the library. -/
  | other (name : String)
  deriving DecidableEq

/-- Every way in which an operation fails. -/
inductive Error where
  | compile (contentType : String) (fault : TypeFault)
  | fetch (text : String)
  /-- The content source asks to wait, with a hint in milliseconds. -/
  | rateLimited (retryAfterMs : Option Nat)
  | apply (fault : ApplyFault)
  | query (fault : QueryFault)
  | migration (stage : MigrationStage) (source : Error)
  | contentTypeNotFound (id : String)
  | localeNotFound (code : String)
  | space (fault : SpaceFault)
  | identifier (name : String)
  | database (fault : StoreFault)
  | cancelled
  | io
  /-- A value in the input has another form than expected. -/
  | serialization
  | config (fault : ConfigFault)
  | internal (text : String)

/-! ## Wording -/

/-- The wording of a fault in a space. -/
def SpaceFault.message : SpaceFault → String
  | .defaultCount n => "expected exactly one default locale, found " ++ toString n
  | .codeTwice code => "locale code " ++ code ++ " declared twice"
  | .noDefault => "space has no default locale"
  | .fallbackCycle code => "fallback cycle through locale " ++ code
  | .unknownFallback code => "unknown fallback locale " ++ code
  | .other text => text

/-- The wording of a fault in a content type. -/
def TypeFault.message : TypeFault → String
  | .withoutId => "content type without id"
  | .assetTable => "content type id collides with the asset table"
  | .linkWithoutTarget field => "link field " ++ field ++ " has no link type"
  | .arrayWithoutItems field => "array field " ++ field ++ " has no items"
  | .nestedArray field => "array field " ++ field ++ " nests another array"
  | .columnTaken field => "field " ++ field ++ " maps to an existing column"
  | .tableTaken table => "table name " ++ table ++ " already taken"
  | .other text => text

/-- The wording of a value that does not fit. -/
def ValueFault.message : ValueFault → String
  | .expected kind value => "expected " ++ kind ++ ", got " ++ value.render
  | .integerRange n => "integer " ++ toString n ++ " out of range for integer column"
  | .expectedLink => "expected link"

/-- The wording of a record that cannot be stored. -/
def ApplyFault.message : ApplyFault → String
  | .value sysId field fault => sysId ++ "." ++ field ++ ": " ++ fault.message
  | .other text => text

/-- The wording of a refused query. -/
def QueryFault.message : QueryFault → String
  | .unknownComparator name => "unknown comparator [" ++ name ++ "]"
  | .notACount key value =>
    key ++ " must be a non-negative integer, got " ++ Text.quoted value
  | .malformedKey key => "malformed filter key " ++ Text.quoted key
  | .noContentType => "content_type is required"
  | .skipTooLarge largest skip =>
    "skip must be at most " ++ toString largest ++ ", got " ++ toString skip
  | .unsupportedPath path => "unsupported filter path " ++ Text.quoted path
  | .expects path kind raw => path ++ " expects " ++ kind ++ ", got " ++ Text.quoted raw
  | .notFilterable path => path ++ " cannot be filtered"
  | .noValue path => path ++ " has no value"
  | .existsValue path raw =>
    path ++ "[exists] expects true or false, got " ++ Text.quoted raw
  | .notComparable path => path ++ " cannot be compared by order"
  | .needsText path => path ++ "[match] needs a text field"
  | .needsArray path => path ++ "[all] needs an array field"
  | .notOrderable path => "cannot order by " ++ path
  | .other text => text

/-- The wording of a refused statement. -/
def StoreFault.message : StoreFault → String
  | .noNamespace name => "schema " ++ name ++ " does not exist"
  | .noRelation name => "relation " ++ name ++ " does not exist"
  | .noColumn name => "column " ++ name ++ " does not exist"
  | .noFunction name => "function " ++ name ++ " does not exist"
  | .nullKey column => "null value in primary key column " ++ column
  | .nullColumn column => "null value in column " ++ column ++ " violates not-null constraint"
  | .rowWidth => "row width does not match column list"
  | .noUniqueKey column => "no unique constraint on " ++ column
  | .duplicateKey key table => "duplicate key value " ++ key ++ " in " ++ table
  | .injected kind namespaceName => "injected failure on " ++ kind ++ " in " ++ namespaceName
  | .transactionAborted =>
    "current transaction is aborted, commands ignored until end of transaction block"
  | .commitAfterAbort => "transaction was aborted"
  | .other text => text

/-- The wording of a refused configuration. -/
def ConfigFault.message : ConfigFault → String
  | .unreadable => "Failed to parse config"
  | .notAnIdentifier name =>
    "schema.namespace " ++ Text.quoted name ++ " is not a valid identifier"
  | .noWorkers => "views.workers must be at least 1"
  | .noConnections => "database.max_connections must be at least 1"
  | .migrationSuffixes => "migration suffixes must be non-empty and distinct"
  | .other text => text

/-- The name of a stage. -/
def MigrationStage.name : MigrationStage → String
  | .dropShadow => "drop_shadow"
  | .compileSchema => "compile_schema"
  | .bulkSync => "bulk_sync"
  | .saveToken => "save_token"
  | .buildProcedures => "build_procedures"
  | .refreshViews => "refresh_views"
  | .swapNamespaces => "swap_namespaces"
  | .other name => name

/-- Whole units and a fraction of the given number of places, without trailing zeros. -/
def withFraction (whole fraction places : Nat) : String :=
  let digits := Nat.toDigits 10 fraction
  let padded := List.replicate (places - digits.length) '0' ++ digits
  let kept := (padded.reverse.dropWhile (· = '0')).reverse
  toString whole ++ (if kept.isEmpty then "" else "." ++ String.ofList kept)

/-- A time span, in the largest of seconds and milliseconds that it reaches. -/
def renderMillis (ms : Nat) : String :=
  if ms = 0 then "0ns"
  else if 1000 ≤ ms then withFraction (ms / 1000) (ms % 1000) 3 ++ "s"
  else toString ms ++ "ms"

/-- The hint of a rate limit. -/
def renderRetryAfter : Option Nat → String
  | none => "None"
  | some ms => "Some(" ++ renderMillis ms ++ ")"

namespace Error

/-- The whole text of an error. -/
def message : Error → String
  | compile contentType fault =>
    "Cannot compile content type " ++ contentType ++ ": " ++ fault.message
  | fetch text => "Fetch failed: " ++ text
  | rateLimited hint =>
    "Rate limited by content source, retry after " ++ renderRetryAfter hint
  | apply fault => "Apply failed: " ++ fault.message
  | query fault => "Invalid query: " ++ fault.message
  | migration stage source =>
    "Migration failed during " ++ stage.name ++ ": " ++ source.message
  | contentTypeNotFound id => "Content type not found: " ++ id
  | localeNotFound code => "Locale not found: " ++ code
  | space fault => "Invalid space: " ++ fault.message
  | identifier name => "Invalid identifier: " ++ name
  | database fault => "Database error: " ++ fault.message
  | cancelled => "Operation cancelled"
  | io => "IO error"
  | serialization => "Serialization error"
  | config fault => "Configuration error: " ++ fault.message
  | internal text => "Internal error: " ++ text

/-- The stable code of an error. -/
def code : Error → String
  | compile .. => "COMPILE_ERROR"
  | fetch _ => "FETCH_ERROR"
  | rateLimited _ => "RATE_LIMITED"
  | apply _ => "APPLY_ERROR"
  | query _ => "INVALID_QUERY"
  | migration .. => "MIGRATION_ERROR"
  | contentTypeNotFound _ => "CONTENT_TYPE_NOT_FOUND"
  | localeNotFound _ => "LOCALE_NOT_FOUND"
  | space _ => "INVALID_SPACE"
  | identifier _ => "INVALID_IDENTIFIER"
  | database _ => "DATABASE_ERROR"
  | cancelled => "CANCELLED"
  | io => "IO_ERROR"
  | serialization => "SERIALIZATION_ERROR"
  | config _ => "CONFIG_ERROR"
  | internal _ => "INTERNAL_ERROR"

/-- Whether the request was at fault. -/
def isClientError : Error → Bool
  | query _ | contentTypeNotFound _ | localeNotFound _ => true
  | _ => false

/-- Whether the same operation may succeed later. -/
def isRetryable : Error → Bool
  | rateLimited _ => true
  | _ => false

end Error

end ContentReplica
