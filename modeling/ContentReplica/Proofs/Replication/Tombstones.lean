import ContentReplica.Proofs.Replication.CopyAbout
import ContentReplica.Proofs.Replication.Cycles

/-!
# What a tombstone removes

A tombstone removes only rows and edges of records that it names, also if records of other kinds or
content types have its identity: a table and its link tables are left by a feed as they are left by the
parts of its pages about the table, from which the other tombstones are gone
(`Engine.tombstones_keep_apart`). For news this holds of every feed. A bulk load forgets under a
tombstone's identity the records of all tables that it has copied, so there the tombstones have to spare
what the load delivers to the table (`SyncPage.AllSpare`).
-/

namespace ContentReplica

/-! ## The group of a table -/

/-- Two stores have the same rows in a table and in its link tables. -/
def Store.SameGroup (s s' : Store) (ns : Ident) (t : TableLayout) : Prop :=
  ∀ name ∈ t.group, s.rows ns name = s'.rows ns name

/-- Stores whose namespaces have the same excerpt have the same rows in it. -/
theorem Store.sameGroup_of_only {s s' : Store} {ns : Ident} {n n' : Namespace} {t : TableLayout}
    (hn : s.namespace? ns = some n) (hn' : s'.namespace? ns = some n')
    (h : n.only t.scope = n'.only t.scope) : s.SameGroup s' ns t := by
  intro name hname
  have hscope : name ∈ t.scope := List.mem_cons_of_mem _ hname
  refine Store.rows_eq hn hn' ?_
  rw [← Namespace.get?_only hscope, h, Namespace.get?_only hscope]

/-- The parts of pages about a table end a feed where the pages do. -/
theorem SyncPage.EndAt.about {pages : List SyncPage} {token : String}
    (h : SyncPage.EndAt pages token) (t : TableLayout) :
    SyncPage.EndAt (pages.map (·.about t)) token := by
  induction h with
  | last hdone => exact .last (p := SyncPage.about t _) hdone
  | more hmore _ ih => exact .more hmore ih

namespace Engine

variable {e : Engine} {m : Mapping} {n origin : Namespace} {t : TableLayout}

/-! ## News -/

/-- The batches of news that are executed in order leave the group of a table as those of the parts
about the table of the pages that were applied leave it. -/
theorem news_about {s final : Store} (hm : m.WellFormed)
    (hn : s.namespace? e.namespaceName = some n)
    (h : n.Coherent origin m.schema m.space.localeCodes m.default) (ht : t ∈ m.schema.allTables)
    {pages : List SyncPage} {batches : List (List Statement)} {result : Except Error Unit}
    (hbatches : pages.mapM (m.pageBatch e.namespaceName) = .ok batches)
    (hrun : s.executeEach batches = (result, final)) :
    ∃ k ≤ pages.length, (result = .ok () → k = pages.length) ∧ ∃ batches' final',
      ((pages.take k).map (·.about t)).mapM (m.pageBatch e.namespaceName) = .ok batches' ∧
      s.clearFailures.executeEach batches' = (.ok (), final') ∧
      final.SameGroup final' e.namespaceName t := by
  have hlocal {pages : List SyncPage} {batches : List (List Statement)}
      (hbatches : pages.mapM (m.pageBatch e.namespaceName) = .ok batches) :
      ∀ batch ∈ batches, ∀ statement ∈ batch, statement.InNamespace e.namespaceName := by
    intro batch hbatch
    obtain ⟨p, -, hp⟩ := exists_of_mapM hbatches hbatch
    exact Mapping.pageBatch_local hp
  have hlength : pages.length = batches.length := (mapM_eq_ok.1 hbatches).length_eq
  obtain ⟨k, hk, hall, happlied⟩ := Store.executeEach_cases hrun
  have hfirst := mapM_take_ok hbatches k
  obtain ⟨n₁, hrun, hn₁⟩ :=
    Database.exists_namespace_of_applyEach hn (hlocal hfirst) happlied
  obtain ⟨batches', n₁', hbatches', hrun', hsame⟩ :=
    Namespace.Alongside.pages hm ht ⟨h, h, rfl⟩ hfirst hrun
  obtain ⟨final', hexecute, hdatabase, -⟩ :=
    Store.executeEach_of_applyAll (s := s.clearFailures) rfl
      (Database.applyEach_of_namespace hn (hlocal hbatches') hrun')
  have hn₁' := Store.namespace?_of_database hdatabase
  exact ⟨k, hlength ▸ hk, fun hok => hlength ▸ hall hok, batches', final', hbatches', hexecute,
    Store.sameGroup_of_only hn₁ hn₁' hsame.same⟩

/-! ## Loads -/

/-- A load, without failures and without a stop, of the parts about a table of the pages that a load
has fetched. -/
def loadAbout (e : Engine) (t : TableLayout) (signal : Signal) (save : Bool) (start : Moment)
    (w : World) : CycleEnd :=
  e.load .never save start (w.undisturbed
    ((w.source.fetched (e.load signal save start w).world.source).map (·.about t)))

/-- The statements at the end of a load are within the scope of every table. -/
theorem closing_within (e : Engine) (save : Bool) (token : String)
    (triggers : SortedMap Ident (List Ident)) (t : TableLayout) :
    ∀ st ∈ e.closing save token, st.Within triggers t.scope := by
  unfold closing
  split
  · refine List.forall_mem_singleton.2 ⟨rfl, fun name hname => ?_⟩
    rw [List.mem_singleton.1 hname]
    exact List.mem_cons_self ..
  · exact nofun

/-- A load fails and leaves all data, or it leaves the group of a table, if tombstones spare this, as the
load of the parts of its pages about the table leaves it. -/
theorem load_about {w : World} (hm : Mapping.of e.schema e.space = .ok m) (hwell : m.WellFormed)
    (hn : w.store.namespace? e.namespaceName = some n)
    (h : n.Coherent origin m.schema m.space.localeCodes m.default) (ht : t ∈ m.schema.allTables)
    (signal : Signal) (save : Bool) (start : Moment) :
    ((∃ err, (e.load signal save start w).result = .error err) ∧
      (e.load signal save start w).world.store.database = w.store.database) ∨
    (∃ report, (e.load signal save start w).result = .ok report) ∧
      (SyncPage.AllSpare t (w.source.fetched (e.load signal save start w).world.source) →
        (∃ report, (e.loadAbout t signal save start w).result = .ok report) ∧
        (e.load signal save start w).world.store.SameGroup
          (e.loadAbout t signal save start w).world.store e.namespaceName t) := by
  obtain ⟨-, ⟨err, herr, hdatabase⟩ | ⟨report, m', token, batches, hok, hm', hend, hbatches, happly⟩⟩ :=
    e.load_cases signal save start w
  · exact .inl ⟨⟨err, herr⟩, hdatabase⟩
  · refine .inr ⟨⟨report, hok⟩, fun hspare => ?_⟩
    obtain rfl := Except.ok.inj (hm.symm.trans hm')
    obtain ⟨n₁, hrun, hn₁⟩ :=
      Database.exists_namespace_of_applyAll hn (load_local hbatches save token) happly
    obtain ⟨batches', n₁', hbatches', hrun', hsame⟩ :=
      h.copyBatches_about hwell ht hspare hbatches (e.closing_within save token n.triggers t) hrun
    obtain ⟨report', hok', hdatabase⟩ :
        ∃ report', (e.loadAbout t signal save start w).result = .ok report' ∧
          (e.loadAbout t signal save start w).world.store.database
            = w.store.database.withNamespace e.namespaceName n₁' :=
      load_of_pages (w := w.undisturbed _) hm (hend.about t) (List.append_nil _).symm rfl hbatches'
        (Database.applyAll_of_namespace hn (load_local hbatches' save token) hrun')
    have hn₁' := Store.namespace?_of_database hdatabase
    exact ⟨⟨report', hok'⟩, Store.sameGroup_of_only hn₁ hn₁' hsame.symm⟩

/-- For a valid space and a compiled schema whose tables have names of their own, in every store that
the replica reached: what batches of pages leave in a table and its link tables, as far as they are
executed, is what those of the parts of the pages about the table leave, in which are only those
tombstones that name records of the table. A load fails and leaves all data, or the same goes for it if
the tombstones that do not name records of the table have none of the identities that their own page or
an earlier one delivers to it. -/
theorem tombstones_keep_apart {w : World} (hspace : e.space.validate = .ok ())
    (hschema : e.schema.Compiled) (hfree : e.schema.CollisionFree)
    (hm : Mapping.of e.schema e.space = .ok m) (hreached : e.toReplica.Reached w.store) :
    ∀ t ∈ e.schema.allTables,
      (∀ (pages : List SyncPage) (batches : List (List Statement)) result final,
        pages.mapM (m.pageBatch e.namespaceName) = .ok batches →
        w.store.executeEach batches = (result, final) →
        ∃ k ≤ pages.length, (result = .ok () → k = pages.length) ∧ ∃ batches' final',
          ((pages.take k).map (·.about t)).mapM (m.pageBatch e.namespaceName) = .ok batches' ∧
          w.store.clearFailures.executeEach batches' = (.ok (), final') ∧
          final.SameGroup final' e.namespaceName t) ∧
      ∀ signal save start,
        ((∃ err, (e.load signal save start w).result = .error err) ∧
          (e.load signal save start w).world.store.database = w.store.database) ∨
        (∃ report, (e.load signal save start w).result = .ok report) ∧
          (SyncPage.AllSpare t (w.source.fetched (e.load signal save start w).world.source) →
            (∃ report, (e.loadAbout t signal save start w).result = .ok report) ∧
            (e.load signal save start w).world.store.SameGroup
              (e.loadAbout t signal save start w).world.store e.namespaceName t) := by
  obtain ⟨hsame, -, hwell⟩ := Mapping.wellFormed_of_ok hm hspace hschema hfree
  obtain ⟨n, origin, hn, hcoherent⟩ := hreached.coherent hm hwell
  intro t ht
  rw [← hsame] at ht
  exact ⟨fun _ _ _ _ hbatches hrun => news_about hwell hn hcoherent ht hbatches hrun,
    load_about hm hwell hn hcoherent ht⟩

end Engine

namespace Catalog

/-- News of a product and of a tag with its identity, then that an asset with this identity and the tag
were deleted. -/
def obituaries : List SyncPage :=
  [((SyncPage.empty (.next "first")).withEntry taggedProduct).withEntry (tag "p1" "red"),
    ((SyncPage.empty (.done "second")).withDeletion ⟨"p1", .deletedAsset, none⟩).withDeletion
      ⟨"p1", .deletedEntry, some "tag"⟩]

/-- A feed that tells of the asset before the product. -/
def foretold : List SyncPage :=
  [(SyncPage.empty (.next "first")).withDeletion ⟨"p1", .deletedAsset, none⟩,
    (SyncPage.empty (.done "second")).withEntry taggedProduct]

/-- The catalog that was set up, and a source with some pages. -/
def prepared (pages : List SyncPage) : World := World.undisturbed ⟨source, setUp⟩ pages

/-- What the batches of some pages do to the catalog that was set up. -/
def afterNews (pages : List SyncPage) : Except Error Unit × Store :=
  match pages.mapM (mapping.pageBatch namespaceName) with
  | .ok batches => (prepared []).store.executeEach batches
  | .error e => (.error e, (prepared []).store)

end Catalog

/-- The product and its edges outlive the news that the tag and the asset were deleted, and a load that is
told of the asset before does not forget them. -/
theorem Engine.tombstones_keep_apart_catalog :
    (Catalog.afterNews Catalog.obituaries).2.SameGroup
      (Catalog.afterNews (Catalog.obituaries.map (·.about Catalog.productTable))).2
      Catalog.namespaceName Catalog.productTable ∧
    (Catalog.engine.load .never true .start
        (Catalog.prepared Catalog.foretold)).world.store.SameGroup
      (Catalog.engine.loadAbout Catalog.productTable .never true .start
        (Catalog.prepared Catalog.foretold)).world.store
      Catalog.namespaceName Catalog.productTable := by
  obtain ⟨ddl, hddl, hsetUp⟩ := Catalog.exists_setUp
  have hbefore : Catalog.engine.toReplica.Reached Catalog.setUp := .setUp hddl rfl hsetUp
  have hreached : Catalog.engine.toReplica.Reached (Catalog.prepared Catalog.foretold).store :=
    .elsewhere hbefore rfl
  obtain ⟨hnews, hload⟩ := tombstones_keep_apart
    (show Catalog.space.validate = .ok () from rfl) (.all Catalog.types rfl) Catalog.collisionFree
    (show Mapping.of _ _ = .ok Catalog.mapping from rfl) hreached Catalog.productTable
    (by decide +kernel)
  constructor
  · have hok : (Catalog.afterNews Catalog.obituaries).1.isOk = true := by decide +kernel
    unfold Catalog.afterNews at hok ⊢
    cases hbatches : Catalog.obituaries.mapM (Catalog.mapping.pageBatch Catalog.namespaceName) with
    | error e =>
      rw [hbatches] at hok
      cases hok
    | ok batches =>
      rw [hbatches] at hok
      dsimp only at hok ⊢
      obtain ⟨_, hrun⟩ := exists_of_fst_isOk hok
      obtain ⟨k, -, hall, batches', final', hbatches', hrun', hsame⟩ :=
        hnews _ _ _ _ hbatches hrun
      rw [hall rfl, List.take_length] at hbatches'
      have hrun' : (Catalog.prepared []).store.executeEach batches' = (.ok (), final') := hrun'
      rw [show List.mapM (Catalog.mapping.pageBatch Catalog.namespaceName) _ = _ from hbatches']
      dsimp only
      rw [hrun']
      exact hsame
  · obtain ⟨hok, hspare⟩ : (Catalog.engine.load .never true .start
          (Catalog.prepared Catalog.foretold)).result.isOk = true ∧
        SyncPage.AllSpare Catalog.productTable ((Catalog.prepared Catalog.foretold).source.fetched
          (Catalog.engine.load .never true .start
            (Catalog.prepared Catalog.foretold)).world.source) := by decide +kernel
    rcases hload .never true .start with ⟨⟨err, herr⟩, -⟩ | ⟨-, hsame⟩
    · rw [herr] at hok
      cases hok
    · exact (hsame hspare).2

/-- A load that is told of the asset before keeps the product, one that is told after it forgets it. -/
example : [Catalog.foretold, Catalog.obituaries].map (fun pages =>
    ((Catalog.engine.load .never true .start (Catalog.prepared pages)).world.store.rows
      Catalog.namespaceName Catalog.productTable.name).length) = [1, 0] := by decide +kernel

end ContentReplica
