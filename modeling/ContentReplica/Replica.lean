import ContentReplica.Schema.Compiler

/-!
# Replicas

A `Replica` is a space replicated into a namespace: the schema that its content types were compiled
to, the locales, and the namespace that holds the tables.
-/

namespace ContentReplica

/-- A space replicated into a namespace. -/
structure Replica where
  schema : Schema
  space : Space
  namespaceName : Ident

end ContentReplica
