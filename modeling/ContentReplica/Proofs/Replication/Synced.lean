import ContentReplica.Proofs.Replication.Consistency
import ContentReplica.Proofs.Schema.Functions

/-!
# Replicas that answer queries

`Replica.Synced r depth pages s` says that a store was led to by setting up a replica with its query
functions, and then by the batches of some pages. Its namespace is coherent (`Synced.coherent`), and if
no locale code holds the separator, it holds of each record what the pages say last
(`Synced.replicated`). What was set up beside the content is still there in both cases.
-/

namespace ContentReplica

/-- The stores that a replica with query functions is led to by the batches of pages: its namespace is
set up where there was none, batches that go through follow, and other things may happen to the store
outside the namespace. -/
inductive Replica.Synced (r : Replica) (depth : Nat) : List SyncPage → Store → Prop
  | setUp {s created : Store} {ddl : List Statement} :
    r.schema.ddl r.namespaceName r.space = .ok ddl → s.hasNamespace r.namespaceName = false →
    s.execute (ddl ++ r.schema.functionStatements r.namespaceName depth) = (.ok (), created) →
    Synced r depth [] created
  | page {pages : List SyncPage} {s s' : Store} {p : SyncPage} {batch : List Statement} :
    Synced r depth pages s → r.pageBatch p = .ok batch → s.execute batch = (.ok (), s') →
    Synced r depth (pages ++ [p]) s'
  | elsewhere {pages : List SyncPage} {s s' : Store} : Synced r depth pages s →
    s'.namespace? r.namespaceName = s.namespace? r.namespaceName → Synced r depth pages s'

namespace Replica

variable {r : Replica} {m : Mapping} {depth : Nat} {pages : List SyncPage} {s s' : Store}

/-- A batch of a page that was executed was applied to the namespace. -/
theorem exists_namespace_of_page {n : Namespace} {p : SyncPage} {batch : List Statement}
    (hn : s.namespace? r.namespaceName = some n) (hbatch : r.pageBatch p = .ok batch)
    (hexecute : s.execute batch = (.ok (), s')) :
    ∃ n', n.applyAll batch = .ok n' ∧ s'.namespace? r.namespaceName = some n' :=
  Database.exists_namespace_of_applyAll hn (pageBatch_local hbatch) (Store.execute_ok hexecute).2.1

/-- The batch of a page is that of its mapping. -/
theorem pageBatch_of_mapping (hm : Mapping.of r.schema r.space = .ok m) {p : SyncPage}
    {batch : List Statement} (h : r.pageBatch p = .ok batch) :
    m.pageBatch r.namespaceName p = .ok batch := by
  unfold pageBatch at h
  rwa [hm] at h

/-- Where a replica is set up there is its namespace. -/
theorem exists_setUp (hfree : r.schema.CollisionFree) {ddl : List Statement} {created : Store}
    (hddl : r.schema.ddl r.namespaceName r.space = .ok ddl)
    (hfresh : s.hasNamespace r.namespaceName = false)
    (hexecute : s.execute (ddl ++ r.schema.functionStatements r.namespaceName depth)
      = (.ok (), created)) :
    ∃ n, created.namespace? r.namespaceName = some n ∧
      r.schema.SetUp r.space r.namespaceName depth n :=
  Schema.applyAll_setUp hfree hddl (SortedMap.contains_eq_false.1 hfresh)
    (Store.execute_ok hexecute).2.1

/-- After any pages the namespace is coherent, beside what was set up. -/
theorem Synced.coherent (h : r.Synced depth pages s) (hfree : r.schema.CollisionFree)
    (hm : Mapping.of r.schema r.space = .ok m) (hwell : m.WellFormed) :
    ∃ n origin, s.namespace? r.namespaceName = some n ∧
      r.schema.SetUp r.space r.namespaceName depth origin ∧
      n.Coherent origin r.schema r.space.localeCodes m.default := by
  obtain ⟨d, -, rfl⟩ := Mapping.of_eq_ok.1 hm
  induction h with
  | setUp hddl hfresh hexecute =>
    obtain ⟨n, hn, hsetUp⟩ := exists_setUp hfree hddl hfresh hexecute
    exact ⟨n, n, hn, hsetUp, n, _, hsetUp.installed, .refl n, .empty hsetUp.installed, .empty⟩
  | page _ hbatch hexecute ih =>
    obtain ⟨n, origin, hn, hsetUp, hcoherent⟩ := ih
    obtain ⟨n', hrun, hn'⟩ := exists_namespace_of_page hn hbatch hexecute
    exact ⟨n', origin, hn', hsetUp,
      hcoherent.pageBatch hwell (pageBatch_of_mapping hm hbatch) hrun⟩
  | elsewhere _ hsame ih =>
    rw [hsame]
    exact ih

/-- After some pages the namespace holds what they say of each record, beside what was set up, if no
locale code holds the separator. -/
theorem Synced.replicated (h : r.Synced depth pages s) (hm : Mapping.of r.schema r.space = .ok m)
    (hsound : m.Sound) :
    ∃ n base origin, s.namespace? r.namespaceName = some n ∧
      r.schema.SetUp r.space r.namespaceName depth origin ∧ base.Beside origin ∧
      r.schema.Installed base ∧
      Replicated r.schema r.space.localeCodes base n (m.current pages) := by
  obtain ⟨d, -, rfl⟩ := Mapping.of_eq_ok.1 hm
  induction h with
  | setUp hddl hfresh hexecute =>
    obtain ⟨n, hn, hsetUp⟩ := exists_setUp hsound.collisionFree hddl hfresh hexecute
    exact ⟨n, n, n, hn, hsetUp, .refl n, hsetUp.installed, .empty hsetUp.installed⟩
  | @page pages s s' p batch _ hbatch hexecute ih =>
    obtain ⟨n, base, origin, hn, hsetUp, hbeside, hinstalled, hreplicated⟩ := ih
    obtain ⟨n', hrun, hn'⟩ := exists_namespace_of_page hn hbatch hexecute
    obtain ⟨n'', base', hrun', hsave, hinstalled', hreplicated'⟩ :=
      hreplicated.page hsound hinstalled (pageBatch_of_mapping hm hbatch)
    obtain rfl := Except.ok.inj (hrun.symm.trans hrun')
    refine ⟨n', base', origin, hn', hsetUp, hbeside.saveToken hsave, hinstalled', ?_⟩
    unfold Mapping.current
    rw [List.flatMap_append, Mapping.after_append, List.flatMap_singleton]
    exact hreplicated'
  | elsewhere _ hsame ih =>
    rw [hsame]
    exact ih

/-- What the pages deliver could be converted. -/
theorem Synced.converts (h : r.Synced depth pages s) (hm : Mapping.of r.schema r.space = .ok m) :
    ∀ event ∈ pages.flatMap SyncPage.events, m.Converts event := by
  induction h with
  | setUp => exact nofun
  | page _ hbatch _ ih =>
    intro event hevent
    rw [List.flatMap_append, List.flatMap_singleton, List.mem_append] at hevent
    rcases hevent with hevent | hevent
    · exact ih event hevent
    · exact (Mapping.pageBatch_eq (pageBatch_of_mapping hm hbatch)).2 event hevent
  | elsewhere _ _ ih => exact ih

end Replica

/-! ## The catalog -/

namespace Catalog

/-- The replica of the catalog. -/
def replica : Replica := engine.toReplica

/-- Setting the catalog up, with query functions that embed some levels. -/
def queriesTo (depth : Nat) : Except Error Unit × Store :=
  match schema.ddl namespaceName space with
  | .ok ddl => Store.empty.execute (ddl ++ schema.functionStatements namespaceName depth)
  | .error e => (.error e, .empty)

/-- Setting the catalog up, with query functions that embed one level. -/
def queries : Except Error Unit × Store := queriesTo 1

/-- Applying the batch of a page. -/
def deliver (p : SyncPage) (s : Store) : Except Error Unit × Store :=
  match replica.pageBatch p with
  | .ok batch => s.execute batch
  | .error e => (.error e, s)

/-- A catalog whose set-up goes through is set up with its query functions. -/
theorem synced_queriesTo {depth : Nat} (hok : (queriesTo depth).1.isOk = true) :
    replica.Synced depth [] (queriesTo depth).2 := by
  cases hddl : schema.ddl namespaceName space with
  | error e =>
    unfold queriesTo at hok
    rw [hddl] at hok
    cases hok
  | ok ddl =>
    refine .setUp (s := .empty) hddl rfl ?_
    unfold queriesTo at hok ⊢
    rw [hddl] at hok ⊢
    obtain ⟨_, hexecute⟩ := exists_of_fst_isOk hok
    exact hexecute

/-- The catalog is set up with its query functions. -/
theorem synced_queries : replica.Synced 1 [] queries.2 := synced_queriesTo (by decide +kernel)

/-- The batch of a page that goes through was executed. -/
theorem exists_batch_of_deliver {p : SyncPage} {s : Store} (hok : (deliver p s).1.isOk = true) :
    ∃ batch, replica.pageBatch p = .ok batch ∧ s.execute batch = (.ok (), (deliver p s).2) := by
  unfold deliver at hok ⊢
  cases hbatch : replica.pageBatch p with
  | error e =>
    rw [hbatch] at hok
    cases hok
  | ok batch =>
    rw [hbatch] at hok
    obtain ⟨_, hexecute⟩ := exists_of_fst_isOk hok
    exact ⟨batch, rfl, hexecute⟩

end Catalog

end ContentReplica
