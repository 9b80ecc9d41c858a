import ContentReplica.Config
import ContentReplica.Toml.Reader

/-!
# Configuration files

`Config.read` takes a configuration from the text of a TOML file. The address of the database may be
given by the environment instead, and what results has to be a valid configuration.
-/

namespace ContentReplica.Config

/-- The configuration in the text of a file, given the address of the database in the environment. -/
def read (text : String) (databaseUrl? : Option String) : Except Error Config := do
  let some c := (Toml.parse? text).bind decode? | throw (.config .unreadable)
  let c := c.withDatabaseUrl databaseUrl?
  c.validate
  return c

end ContentReplica.Config
