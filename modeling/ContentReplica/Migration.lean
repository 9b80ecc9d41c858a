import ContentReplica.Plan.Generator
import ContentReplica.Replication.Engine
import ContentReplica.Schema.Ddl
import ContentReplica.Views.Manager

/-!
# Migrations

A migration builds a whole replica into a shadow namespace, from the locales and content types that
the source reports now, and then promotes it. `Migration.prepare` runs the stages up to the
promotion: whichever fails, the shadow is dropped and the error names the stage.
`Prepared.swap` promotes the shadow in one batch, and `Prepared.abandon` drops it.
-/

namespace ContentReplica

/-- What rebuilds a live namespace. -/
structure Migration where
  live : Ident
  config : Config

/-- What a migration built. -/
structure MigrationReport where
  shadow : Ident
  /-- The number of compiled content types. -/
  contentTypes : Nat
  /-- Content types left out of the schema, each with the reason. -/
  skippedTypes : List CompileFailure
  sync : SyncReport
  functions : Nat
  views : Nat

/-- A migration that is ready to be promoted. -/
structure Prepared where
  live : Ident
  shadow : Ident
  retired : Ident
  report : MigrationReport

namespace Migration

/-- The namespace that is built. -/
def shadow (m : Migration) : Ident := m.live.withSuffix m.config.migration.shadowSuffix

/-- The name that the live namespace has while it is replaced. -/
def retired (m : Migration) : Ident := m.live.withSuffix m.config.migration.retiredSuffix

/-! ## Stages -/

/-- A migration under way. -/
structure Building where
  world : World
  moment : Moment

/-- A step of a migration: it may fail, and changes the world in either case. -/
abbrev Step (α : Type) := ExceptT Error (StateM Building) α

namespace Step

/-- Run a step as a stage, which its errors name. -/
def atStage {α : Type} (stage : MigrationStage) (step : Step α) : Step α :=
  fun b => match step b with
    | (.ok x, b) => (.ok x, b)
    | (.error e, b) => (.error (.migration stage e), b)

/-- Apply a batch. -/
def execute (batch : List Statement) : Step Unit :=
  fun b =>
    let (result, store) := b.world.store.execute batch
    (result, { b with world := { b.world with store := store } })

/-- Stop if the signal has come. -/
def look (signal : Signal) : Step Unit :=
  fun b =>
    if signal.hasCome b.moment then (.error .cancelled, b)
    else (.ok (), { b with moment := b.moment.afterLook })

/-- Ask the source for something that it reports. -/
def ask {α : Type} (question : ContentSource → Except Error α) : Step α :=
  fun b => (question b.world.source, b)

/-- Go on with a value, if there is one. -/
def ofExcept {α : Type} (result : Except Error α) : Step α := fun b => (result, b)

/-- Load the whole feed. -/
def bulkLoad (engine : Engine) (signal : Signal) : Step SyncReport :=
  fun b =>
    let c := engine.bulkLoad signal b.moment b.world
    (c.result, ⟨c.world, c.moment⟩)

end Step

/-- Compile what the source reports, and create the tables in the shadow. -/
def compileShadow (m : Migration) (signal : Signal) : Step Replica := do
  Step.look signal
  let space ← Step.ask ContentSource.space
  let types ← Step.ask ContentSource.contentTypes
  let schema ← Step.ofExcept (Schema.compileFor space types)
  let ddl ← Step.ofExcept (schema.ddl m.shadow space)
  Step.execute ddl
  return ⟨schema, space, m.shadow⟩

/-- Fill the tables of the shadow. -/
def fill (m : Migration) (signal : Signal) (r : Replica) : Step SyncReport := do
  Step.look signal
  Step.bulkLoad ⟨r, m.config.sync⟩ signal

/-- Store the token that the load ended with. -/
def saveToken (m : Migration) (sync : SyncReport) : Step Unit :=
  match sync.token? with
  | some token => Step.execute [.saveSyncToken m.shadow token]
  | none => throw (.fetch "initial sync returned no token")

/-- Create the query functions, and count them. -/
def createFunctions (m : Migration) (signal : Signal) (r : Replica) : Step Nat := do
  Step.look signal
  let statements := r.schema.functionStatements m.shadow m.config.schema.maxIncludeDepth
  Step.execute statements
  return statements.length

/-- Create the views, and count them. -/
def createViews (signal : Signal) (r : Replica) : Step Nat := do
  Step.look signal
  Step.execute r.viewStatements
  return r.viewStatements.length

/-- All stages up to the promotion. -/
def build (m : Migration) (signal : Signal) : Step MigrationReport := do
  (Step.execute [.dropNamespace m.shadow]).atStage .dropShadow
  let r ← (m.compileShadow signal).atStage .compileSchema
  let sync ← (m.fill signal r).atStage .bulkSync
  (m.saveToken sync).atStage .saveToken
  let functions ← (m.createFunctions signal r).atStage .buildProcedures
  let views ← (createViews signal r).atStage .refreshViews
  return ⟨m.shadow, r.schema.tables.length, r.schema.failures, sync, functions, views⟩

/-! ## Preparing -/

/-- Build the shadow, and drop it if a stage fails. -/
def prepare (m : Migration) (signal : Signal) (w : World) : Except Error Prepared × World :=
  match (m.build signal).run ⟨w, .start⟩ with
  | (.ok report, b) => (.ok ⟨m.live, m.shadow, m.retired, report⟩, b.world)
  | (.error e, b) =>
    let (_, store) := b.world.store.execute [.dropNamespace m.shadow]
    (.error e, { b.world with store := store })

end Migration

/-! ## Promoting -/

namespace Prepared

/-- Promote the shadow to the live namespace; what was live is dropped. -/
def swap (p : Prepared) (s : Store) : Except Error MigrationReport × Store :=
  let (result, s) := s.execute [.swapNamespaces p.live p.shadow p.retired]
  match result with
  | .ok () => (.ok p.report, s)
  | .error e => (.error (.migration .swapNamespaces e), s)

/-- Drop the shadow and leave the live namespace as it is. -/
def abandon (p : Prepared) (s : Store) : Except Error Unit × Store :=
  s.execute [.dropNamespace p.shadow]

end Prepared

end ContentReplica
