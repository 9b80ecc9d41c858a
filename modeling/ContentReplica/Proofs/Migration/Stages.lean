import ContentReplica.Proofs.Migration.Step
import ContentReplica.Proofs.Schema.Setup

/-!
# Stages of a migration

Every statement that a stage issues writes the shadow, so a migration changes no other namespace
(`Migration.build_within`). A migration that fails names the stage that failed after the ones before
it (`Migration.FailsAt`), and one that succeeds has a shadow (`Migration.exists_shadow`).
-/

namespace ContentReplica

/-! ## Statements -/

/-- The statements of a schema write its namespace only. -/
theorem Schema.writes_of_ddl {s : Schema} {ns : Ident} {space : Space} {statements : List Statement}
    (h : s.ddl ns space = .ok statements) : ∀ statement ∈ statements, statement.writes = [ns] := by
  obtain ⟨rows, -, rfl⟩ := ddl_eq_ok h
  intro statement hs
  rcases List.mem_cons.1 hs with rfl | hs
  · rfl
  · exact (setupStatements_local hs).writes

/-- The query functions of a schema write its namespace only. -/
theorem Schema.writes_of_functionStatements {s : Schema} {ns : Ident} {depth : Nat} :
    ∀ statement ∈ s.functionStatements ns depth, statement.writes = [ns] := by
  intro statement hs
  obtain ⟨plan, hplan, rfl⟩ := List.mem_map.1 hs
  obtain ⟨t, -, rfl⟩ := List.mem_map.1 hplan
  rfl

/-- The views of a replica write its namespace only. -/
theorem Replica.writes_of_viewStatements {r : Replica} :
    ∀ statement ∈ r.viewStatements, statement.writes = [r.namespaceName] := by
  intro statement hs
  obtain ⟨view, hview, rfl⟩ := List.mem_map.1 hs
  obtain ⟨contentType, -, hview⟩ := List.mem_flatMap.1 hview
  unfold typeViews at hview
  split at hview
  · obtain ⟨locale, -, rfl⟩ := List.mem_map.1 hview
    rfl
  · cases hview

namespace Migration

variable {m : Migration} {signal : Signal} {r : Replica} {b b' : Building}

/-! ## The frame of each stage -/

/-- Compiling stays inside the shadow. -/
theorem compileShadow_within (m : Migration) (signal : Signal) :
    (m.compileShadow signal).Within m.shadow := by
  refine (Step.within_look signal).seq fun _ _ _ _ => ?_
  refine (Step.within_ask _).seq fun space _ _ _ => ?_
  refine (Step.within_ask _).seq fun types _ _ _ => ?_
  refine (Step.within_ofExcept _).seq fun schema _ _ _ => ?_
  refine (Step.within_ofExcept _).seq fun ddl _ _ hddl => ?_
  have hddl : schema.ddl m.shadow space = .ok ddl := (Prod.mk.inj hddl).1
  exact (Step.within_execute (Schema.writes_of_ddl hddl)).seq fun _ _ _ _ => Step.within_pure _

/-- What was compiled is the replica in the shadow. -/
theorem namespaceName_of_compileShadow (h : m.compileShadow signal b = (.ok r, b')) :
    r.namespaceName = m.shadow := by
  unfold compileShadow at h
  obtain ⟨_, _, -, h⟩ := Step.seq_eq_ok.1 h
  obtain ⟨space, _, -, h⟩ := Step.seq_eq_ok.1 h
  obtain ⟨types, _, -, h⟩ := Step.seq_eq_ok.1 h
  obtain ⟨schema, _, -, h⟩ := Step.seq_eq_ok.1 h
  obtain ⟨ddl, _, -, h⟩ := Step.seq_eq_ok.1 h
  obtain ⟨_, _, -, h⟩ := Step.seq_eq_ok.1 h
  cases h
  rfl

/-- Filling the shadow stays inside it. -/
theorem fill_within (hr : r.namespaceName = m.shadow) (signal : Signal) :
    (m.fill signal r).Within m.shadow := by
  refine (Step.within_look signal).seq fun _ _ _ _ => ?_
  rw [← hr]
  exact Step.within_bulkLoad ⟨r, m.config.sync⟩ signal

/-- Storing the token stays inside the shadow. -/
theorem saveToken_within (m : Migration) (sync : SyncReport) :
    (m.saveToken sync).Within m.shadow := by
  unfold saveToken
  split
  · exact Step.within_execute (List.forall_mem_singleton.2 rfl)
  · exact Step.within_throw _

/-- Creating the query functions stays inside the shadow. -/
theorem createFunctions_within (m : Migration) (signal : Signal) (r : Replica) :
    (m.createFunctions signal r).Within m.shadow := by
  refine (Step.within_look signal).seq fun _ _ _ _ => ?_
  exact (Step.within_execute Schema.writes_of_functionStatements).seq
    fun _ _ _ _ => Step.within_pure _

/-- Creating the views stays inside the shadow. -/
theorem createViews_within (hr : r.namespaceName = m.shadow) (signal : Signal) :
    (createViews signal r).Within m.shadow := by
  refine (Step.within_look signal).seq fun _ _ _ _ => ?_
  rw [← hr]
  exact (Step.within_execute Replica.writes_of_viewStatements).seq fun _ _ _ _ => Step.within_pure _

/-- All stages stay inside the shadow. -/
theorem build_within (m : Migration) (signal : Signal) : (m.build signal).Within m.shadow := by
  have hdrop : (Step.execute [.dropNamespace m.shadow]).Within m.shadow :=
    Step.within_execute (List.forall_mem_singleton.2 rfl)
  refine (hdrop.atStage _).seq fun _ _ _ _ => ?_
  refine ((m.compileShadow_within signal).atStage _).seq fun r _ _ hcompile => ?_
  have hr := namespaceName_of_compileShadow (Step.atStage_eq_ok.1 hcompile)
  refine ((fill_within hr signal).atStage _).seq fun sync _ _ _ => ?_
  refine ((m.saveToken_within sync).atStage _).seq fun _ _ _ _ => ?_
  refine ((m.createFunctions_within signal r).atStage _).seq fun _ _ _ _ => ?_
  exact ((createViews_within hr signal).atStage _).seq fun _ _ _ _ => Step.within_pure _

/-! ## The stage that fails -/

/-- The old shadow was dropped. -/
def Dropped (m : Migration) (b b' : Building) : Prop :=
  Step.execute [.dropNamespace m.shadow] b = (.ok (), b')

/-- A replica was set up in the shadow. -/
def Compiled (m : Migration) (signal : Signal) (b : Building) (r : Replica) (b' : Building) : Prop :=
  ∃ b₁, m.Dropped b b₁ ∧ m.compileShadow signal b₁ = (.ok r, b')

/-- The feed was loaded into the replica. -/
def Filled (m : Migration) (signal : Signal) (b : Building) (r : Replica) (sync : SyncReport)
    (b' : Building) : Prop :=
  ∃ b₁, m.Compiled signal b r b₁ ∧ m.fill signal r b₁ = (.ok sync, b')

/-- The token of the feed was stored. -/
def TokenSaved (m : Migration) (signal : Signal) (b : Building) (r : Replica) (sync : SyncReport)
    (b' : Building) : Prop :=
  ∃ b₁, m.Filled signal b r sync b₁ ∧ m.saveToken sync b₁ = (.ok (), b')

/-- The query functions were created. -/
def FunctionsCreated (m : Migration) (signal : Signal) (b : Building) (r : Replica)
    (sync : SyncReport) (functions : Nat) (b' : Building) : Prop :=
  ∃ b₁, m.TokenSaved signal b r sync b₁ ∧ m.createFunctions signal r b₁ = (.ok functions, b')

/-- The stages before the given one succeeded, and it failed with the given error. -/
def FailsAt (m : Migration) (signal : Signal) (b : Building) (e : Error) (b' : Building) :
    MigrationStage → Prop
  | .dropShadow => Step.execute [.dropNamespace m.shadow] b = (.error e, b')
  | .compileSchema => ∃ b₁, m.Dropped b b₁ ∧ m.compileShadow signal b₁ = (.error e, b')
  | .bulkSync => ∃ r b₁, m.Compiled signal b r b₁ ∧ m.fill signal r b₁ = (.error e, b')
  | .saveToken => ∃ r sync b₁, m.Filled signal b r sync b₁ ∧ m.saveToken sync b₁ = (.error e, b')
  | .buildProcedures => ∃ r sync b₁, m.TokenSaved signal b r sync b₁ ∧
      m.createFunctions signal r b₁ = (.error e, b')
  | .refreshViews => ∃ r sync functions b₁, m.FunctionsCreated signal b r sync functions b₁ ∧
      createViews signal r b₁ = (.error e, b')
  | .swapNamespaces | .other _ => False

/-- A migration that cannot be prepared names the stage that failed. -/
theorem build_error {e : Error} (h : m.build signal b = (.error e, b')) :
    ∃ stage cause, e = .migration stage cause ∧ m.FailsAt signal b cause b' stage := by
  unfold build at h
  -- each stage fails here, or the next one starts where it ended
  rcases Step.seq_eq_error.1 h with h | ⟨_, b₁, hdrop, h⟩
  · obtain ⟨cause, rfl, hfail⟩ := Step.atStage_eq_error.1 h
    exact ⟨.dropShadow, cause, rfl, hfail⟩
  have hdropped : m.Dropped b b₁ := Step.atStage_eq_ok.1 hdrop
  rcases Step.seq_eq_error.1 h with h | ⟨r, b₂, hcompile, h⟩
  · obtain ⟨cause, rfl, hfail⟩ := Step.atStage_eq_error.1 h
    exact ⟨.compileSchema, cause, rfl, b₁, hdropped, hfail⟩
  have hcompiled : m.Compiled signal b r b₂ := ⟨b₁, hdropped, Step.atStage_eq_ok.1 hcompile⟩
  rcases Step.seq_eq_error.1 h with h | ⟨sync, b₃, hfill, h⟩
  · obtain ⟨cause, rfl, hfail⟩ := Step.atStage_eq_error.1 h
    exact ⟨.bulkSync, cause, rfl, r, b₂, hcompiled, hfail⟩
  have hfilled : m.Filled signal b r sync b₃ := ⟨b₂, hcompiled, Step.atStage_eq_ok.1 hfill⟩
  rcases Step.seq_eq_error.1 h with h | ⟨_, b₄, htoken, h⟩
  · obtain ⟨cause, rfl, hfail⟩ := Step.atStage_eq_error.1 h
    exact ⟨.saveToken, cause, rfl, r, sync, b₃, hfilled, hfail⟩
  have hsaved : m.TokenSaved signal b r sync b₄ := ⟨b₃, hfilled, Step.atStage_eq_ok.1 htoken⟩
  rcases Step.seq_eq_error.1 h with h | ⟨functions, b₅, hfunctions, h⟩
  · obtain ⟨cause, rfl, hfail⟩ := Step.atStage_eq_error.1 h
    exact ⟨.buildProcedures, cause, rfl, r, sync, b₄, hsaved, hfail⟩
  have hcreated : m.FunctionsCreated signal b r sync functions b₅ :=
    ⟨b₄, hsaved, Step.atStage_eq_ok.1 hfunctions⟩
  rcases Step.seq_eq_error.1 h with h | ⟨views, b₆, -, h⟩
  · obtain ⟨cause, rfl, hfail⟩ := Step.atStage_eq_error.1 h
    exact ⟨.refreshViews, cause, rfl, r, sync, functions, b₅, hcreated, hfail⟩
  · cases h

/-! ## The shadow -/

/-- Where the token was stored there is a shadow. -/
theorem exists_shadow_of_saveToken {sync : SyncReport} (h : m.saveToken sync b = (.ok (), b')) :
    ∃ n, b'.world.store.namespace? m.shadow = some n := by
  unfold saveToken at h
  cases htoken : sync.token? with
  | none =>
    rw [htoken] at h
    cases h
  | some token =>
    rw [htoken] at h
    exact Database.exists_of_update
      (Database.applyAll_singleton.1 (Step.applyAll_of_execute h))

/-- A migration that was prepared has a shadow. -/
theorem exists_shadow {report : MigrationReport} (h : m.build signal b = (.ok report, b')) :
    ∃ n, b'.world.store.namespace? m.shadow = some n := by
  unfold build at h
  obtain ⟨_, b₁, -, h⟩ := Step.seq_eq_ok.1 h
  obtain ⟨r, b₂, hcompile, h⟩ := Step.seq_eq_ok.1 h
  obtain ⟨sync, b₃, -, h⟩ := Step.seq_eq_ok.1 h
  obtain ⟨_, b₄, htoken, h⟩ := Step.seq_eq_ok.1 h
  obtain ⟨functions, b₅, hfunctions, h⟩ := Step.seq_eq_ok.1 h
  obtain ⟨views, b₆, hviews, h⟩ := Step.seq_eq_ok.1 h
  cases h
  have hr := namespaceName_of_compileShadow (Step.atStage_eq_ok.1 hcompile)
  have hsaved := exists_shadow_of_saveToken (Step.atStage_eq_ok.1 htoken)
  have hfunctionsKeep : ∀ statement ∈ r.schema.functionStatements m.shadow
      m.config.schema.maxIncludeDepth, statement ≠ .dropNamespace m.shadow := by
    intro statement hs hdrop
    obtain ⟨plan, -, rfl⟩ := List.mem_map.1 hs
    cases hdrop
  have hviewsKeep : ∀ statement ∈ r.viewStatements, statement ≠ .dropNamespace m.shadow := by
    intro statement hs hdrop
    obtain ⟨view, -, rfl⟩ := List.mem_map.1 hs
    cases hdrop
  have hcreated := Step.exists_of_execute Schema.writes_of_functionStatements hfunctionsKeep hsaved
    (Step.atStage_eq_ok.1 hfunctions)
  exact Step.exists_of_execute (hr ▸ Replica.writes_of_viewStatements) hviewsKeep hcreated
    (Step.atStage_eq_ok.1 hviews)

end Migration

end ContentReplica
