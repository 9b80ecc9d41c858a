import ContentReplica.Proofs.Replication.Consistency

/-!
# Cycles one after the other

`Replica.Cycled r s s'` says that cycles and bulk loads of a replica led from one store to another,
whatever their sources, failures and stops. All that happens to the namespace of the replica on the
way are batches inside it (`Replica.Cycled.exists_batch`), and it stays coherent
(`Replica.Cycled.coherent`).
-/

namespace ContentReplica

/-- The stores that a replica is led to from a given one by cycles and bulk loads with any
configuration, source, failures and stops; other things may happen to the store outside the
namespace. -/
inductive Replica.Cycled (r : Replica) (s : Store) : Store → Prop
  | start : Cycled r s s
  | run (config : SyncConfig) (signal : Signal) {w : World} : Cycled r s w.store →
    Cycled r s ((Engine.mk r config).run signal w).world.store
  | bulkLoad (config : SyncConfig) (signal : Signal) (start : Moment) {w : World} :
    Cycled r s w.store → Cycled r s ((Engine.mk r config).bulkLoad signal start w).world.store
  | elsewhere {s' s'' : Store} : Cycled r s s' →
    s''.namespace? r.namespaceName = s'.namespace? r.namespaceName → Cycled r s s''

/-! ## Batches -/

namespace Engine

variable {e : Engine} {w : World} {n : Namespace}

/-- What a load does to its namespace is a batch inside it, an empty one if the load fails. -/
theorem load_batch (hn : w.store.namespace? e.namespaceName = some n) (signal : Signal) (save : Bool)
    (start : Moment) :
    ∃ batch n', (∀ statement ∈ batch, statement.InNamespace e.namespaceName) ∧
      n.applyAll batch = .ok n' ∧
      (e.load signal save start w).world.store.namespace? e.namespaceName = some n' := by
  obtain ⟨-, ⟨err, -, hdatabase⟩ | ⟨report, m, token, batches, -, -, -, hbatches, happly⟩⟩ :=
    e.load_cases signal save start w
  · refine ⟨[], n, nofun, rfl, ?_⟩
    unfold Store.namespace?
    rw [hdatabase]
    exact hn
  · have hlocal := load_local hbatches save token
    obtain ⟨n', hrun, hn'⟩ := Database.exists_namespace_of_applyAll hn hlocal happly
    exact ⟨_, n', hlocal, hrun, hn'⟩

/-- What a cycle of news does to its namespace is a batch inside it. -/
theorem delta_batch (hn : w.store.namespace? e.namespaceName = some n) (signal : Signal)
    (token : String) (start : Moment) :
    ∃ batch n', (∀ statement ∈ batch, statement.InNamespace e.namespaceName) ∧
      n.applyAll batch = .ok n' ∧
      (e.delta signal token start w).world.store.namespace? e.namespaceName = some n' := by
  obtain ⟨applied, batches, -, -, hbatches, happly, -⟩ := e.delta_cases signal token start w
  have hlocal : ∀ statement ∈ batches.flatten, statement.InNamespace e.namespaceName := by
    intro statement hs
    obtain ⟨batch, hbatch, hs⟩ := List.mem_flatten.1 hs
    obtain ⟨p, -, hp⟩ := exists_of_mapM hbatches hbatch
    exact Replica.pageBatch_local hp statement hs
  obtain ⟨n', hrun, hn'⟩ := Database.exists_namespace_of_applyAll hn hlocal happly
  exact ⟨_, n', hlocal, hrun, hn'⟩

/-- What a cycle does to its namespace is a batch inside it. -/
theorem run_batch (hn : w.store.namespace? e.namespaceName = some n) (signal : Signal) :
    ∃ batch n', (∀ statement ∈ batch, statement.InNamespace e.namespaceName) ∧
      n.applyAll batch = .ok n' ∧
      (e.run signal w).world.store.namespace? e.namespaceName = some n' := by
  cases htoken : w.store.syncToken? e.namespaceName with
  | none =>
    rw [run_of_none htoken]
    exact load_batch hn signal true .start
  | some token =>
    rw [run_of_some htoken]
    exact delta_batch hn signal token .start

end Engine

namespace Replica

variable {r : Replica} {m : Mapping} {s s' : Store} {n origin : Namespace}

/-- What cycles do to the namespace of a replica is a batch inside it. -/
theorem Cycled.exists_batch (h : r.Cycled s s') (hn : s.namespace? r.namespaceName = some n) :
    ∃ batch n', (∀ statement ∈ batch, statement.InNamespace r.namespaceName) ∧
      n.applyAll batch = .ok n' ∧ s'.namespace? r.namespaceName = some n' := by
  have happend {before after : List Statement} {n₁ n₂ : Namespace}
      (hbefore : ∀ statement ∈ before, statement.InNamespace r.namespaceName)
      (hfirst : n.applyAll before = .ok n₁)
      (hafter : ∀ statement ∈ after, statement.InNamespace r.namespaceName)
      (hlast : n₁.applyAll after = .ok n₂) :
      (∀ statement ∈ before ++ after, statement.InNamespace r.namespaceName) ∧
        n.applyAll (before ++ after) = .ok n₂ :=
    ⟨fun statement hs => (List.mem_append.1 hs).elim (hbefore statement) (hafter statement),
      Namespace.applyAll_append.2 ⟨n₁, hfirst, hlast⟩⟩
  induction h with
  | start => exact ⟨[], n, nofun, rfl, hn⟩
  | @run config signal w _ ih =>
    obtain ⟨before, n₁, hbefore, hfirst, hn₁⟩ := ih
    obtain ⟨after, n₂, hafter, hlast, hn₂⟩ := Engine.run_batch (e := ⟨r, config⟩) hn₁ signal
    obtain ⟨hlocal, hrun⟩ := happend hbefore hfirst hafter hlast
    exact ⟨_, n₂, hlocal, hrun, hn₂⟩
  | @bulkLoad config signal start w _ ih =>
    obtain ⟨before, n₁, hbefore, hfirst, hn₁⟩ := ih
    obtain ⟨after, n₂, hafter, hlast, hn₂⟩ :=
      Engine.load_batch (e := ⟨r, config⟩) hn₁ signal false start
    obtain ⟨hlocal, hrun⟩ := happend hbefore hfirst hafter hlast
    exact ⟨_, n₂, hlocal, hrun, hn₂⟩
  | elsewhere _ hsame ih =>
    rw [hsame]
    exact ih

/-! ## Coherence -/

/-- Cycles leave the namespace of a replica coherent. -/
theorem Cycled.coherent (h : r.Cycled s s') (hm : Mapping.of r.schema r.space = .ok m)
    (hwell : m.WellFormed) (hn : s.namespace? r.namespaceName = some n)
    (hcoherent : n.Coherent origin m.schema m.space.localeCodes m.default) :
    ∃ n', s'.namespace? r.namespaceName = some n' ∧
      n'.Coherent origin m.schema m.space.localeCodes m.default := by
  induction h with
  | start => exact ⟨n, hn, hcoherent⟩
  | @run config signal w _ ih =>
    obtain ⟨n₁, hn₁, hcoherent₁⟩ := ih
    cases htoken : w.store.syncToken? r.namespaceName with
    | none =>
      rw [Engine.run_of_none (e := ⟨r, config⟩) htoken]
      exact Engine.load_coherent (e := ⟨r, config⟩) hm hwell hcoherent₁ hn₁ signal true .start
    | some token =>
      rw [Engine.run_of_some (e := ⟨r, config⟩) htoken]
      exact Engine.delta_coherent (e := ⟨r, config⟩) hm hwell hcoherent₁ hn₁ signal token .start
  | @bulkLoad config signal start w _ ih =>
    obtain ⟨n₁, hn₁, hcoherent₁⟩ := ih
    exact Engine.load_coherent (e := ⟨r, config⟩) hm hwell hcoherent₁ hn₁ signal false start
  | elsewhere _ hsame ih =>
    rw [hsame]
    exact ih

/-- A replica is led to the stores that cycles reach from those in which it was set up. -/
theorem Reached.exists_cycled (h : r.Reached s) :
    ∃ before created ddl, r.schema.ddl r.namespaceName r.space = .ok ddl ∧
      Store.hasNamespace before r.namespaceName = false ∧
      Store.execute before ddl = (.ok (), created) ∧ r.Cycled created s := by
  induction h with
  | @setUp before created ddl hddl hfresh hexecute =>
    exact ⟨before, created, ddl, hddl, hfresh, hexecute, .start⟩
  | run config signal _ ih =>
    obtain ⟨before, created, ddl, hddl, hfresh, hexecute, hcycled⟩ := ih
    exact ⟨before, created, ddl, hddl, hfresh, hexecute, .run config signal hcycled⟩
  | bulkLoad config signal start _ ih =>
    obtain ⟨before, created, ddl, hddl, hfresh, hexecute, hcycled⟩ := ih
    exact ⟨before, created, ddl, hddl, hfresh, hexecute, .bulkLoad config signal start hcycled⟩
  | elsewhere _ hsame ih =>
    obtain ⟨before, created, ddl, hddl, hfresh, hexecute, hcycled⟩ := ih
    exact ⟨before, created, ddl, hddl, hfresh, hexecute, .elsewhere hcycled hsame⟩

/-- In every store that a replica is led to its namespace is coherent. -/
theorem Reached.coherent (h : r.Reached s) (hm : Mapping.of r.schema r.space = .ok m)
    (hwell : m.WellFormed) :
    ∃ n origin, s.namespace? r.namespaceName = some n ∧
      n.Coherent origin m.schema m.space.localeCodes m.default := by
  obtain ⟨before, created, ddl, hddl, hfresh, hexecute, hcycled⟩ := h.exists_cycled
  obtain ⟨d, -, rfl⟩ := Mapping.of_eq_ok.1 hm
  obtain ⟨base, happly, hbase⟩ :=
    Schema.applyAll_ddl hwell.collisionFree hddl (SortedMap.contains_eq_false.1 hfresh)
  have hn : created.namespace? r.namespaceName = some base := by
    unfold Store.namespace?
    rw [← Except.ok.inj (happly.symm.trans (Store.execute_ok hexecute).2.1)]
    exact Database.get?_withNamespace_self ..
  obtain ⟨n, hn', hcoherent⟩ :=
    hcycled.coherent hm hwell hn ⟨base, _, hbase, .refl base, .empty hbase, .empty⟩
  exact ⟨n, base, hn', hcoherent⟩

end Replica

end ContentReplica
