import ContentReplica.Proofs.Replication.BulkLoad
import ContentReplica.Proofs.Replication.LastWriter

/-!
# A bulk load agrees with news

The rows that a bulk load of a feed leaves are those that the batches of its pages leave when they are
applied one by one (`bulkLoad_agrees`). Both hold what the feed says of each record, and that settles
the rows of every table (`Replicated.table_eq`).
-/

namespace ContentReplica

/-- Two stores whose namespaces hold the same table have the same rows in it. -/
theorem Store.rows_eq {s s' : Store} {ns ns' : Ident} {n n' : Namespace} {name : Ident}
    (hn : s.namespace? ns = some n) (hn' : s'.namespace? ns' = some n')
    (h : n.tables.get? name = n'.tables.get? name) : s.rows ns name = s'.rows ns' name := by
  have htable : s.database.table? ns name = s'.database.table? ns' name := by
    have hget : s.database.namespaces.get? ns = some n := hn
    have hget' : s'.database.namespaces.get? ns' = some n' := hn'
    unfold Database.table?
    rw [hget, hget', Option.bind_some, Option.bind_some, h]
  unfold Store.rows
  rw [htable]

/-- The bulk load of a feed whose records convert, into a namespace that was set up for it, succeeds
and leaves what the feed says of each record. -/
theorem Replicated.bulkLoad {e : Engine} {m : Mapping} {source : ContentSource} {created : Store}
    {base : Namespace} {pages : List SyncPage} {token : String} {rest : List Answer}
    (hm : Mapping.of e.schema e.space = .ok m) (hsound : m.Sound)
    (hbase : m.schema.Installed base) (hns : created.namespace? e.namespaceName = some base)
    (hf : created.failures = []) (hend : SyncPage.EndAt pages token)
    (hanswers : source.answers = pages.map .ok ++ rest)
    (hconvert : ∀ p ∈ pages, ∃ records, m.pageRecords p = .ok records) (hcovers : m.Covers pages)
    (start : Moment) :
    ∃ report n, (e.bulkLoad .never start ⟨source, created⟩).result = .ok report ∧
      (e.bulkLoad .never start ⟨source, created⟩).world.store.namespace? e.namespaceName = some n ∧
      Replicated m.schema m.space.localeCodes base n (m.current pages) := by
  obtain ⟨batches, hbatches⟩ := Mapping.exists_copyBatches e.namespaceName hconvert .empty
  have hnothing : ∀ table sysId, (ByRecord.empty : ByRecord Unit).has table sysId = true ↔
      ∃ r, (none : Option RecordRows) = some r := by
    intro table sysId
    rw [ByRecord.has_iff, ByRecord.get?_empty]
    exact ⟨nofun, nofun⟩
  obtain ⟨n, hrun, hreplicated⟩ := Replicated.copyPages hsound hbase hcovers (fun _ hp => hp)
    hbatches (Replicated.empty hbase) nofun hnothing
  have happly := Database.applyAll_of_namespace hns (Mapping.copyBatches_local hbatches) hrun
  have happly' : created.database.applyAll (batches.flatten ++ e.closing false token)
      = .ok (created.database.withNamespace e.namespaceName n) := by
    rw [Engine.closing, if_neg Bool.false_ne_true, List.append_nil]
    exact happly
  obtain ⟨report, hresult, hdatabase⟩ :=
    Engine.load_of_pages (w := ⟨source, created⟩) hm hend hanswers hf hbatches happly'
  exact ⟨report, n, hresult, Store.namespace?_of_database hdatabase, hreplicated⟩

/-- For a valid space whose locale codes hold no separator and a compiled schema whose tables have
names of their own: if the records of a feed convert, and every tombstone addresses the table of every
record that the feed delivers under its identity, then a bulk load of the feed into a namespace that
was set up for it succeeds, and leaves the same rows in every table and link table as the batches of
its pages that are executed one by one in another such namespace. -/
theorem bulkLoad_agrees {e : Engine} {m : Mapping} {ns : Ident} {s s' : Store}
    {source : ContentSource} {ddl ddl' : List Statement} {pages : List SyncPage} {token : String}
    {rest : List Answer} (start : Moment)
    (hspace : e.space.validate = .ok ())
    (hcodes : ∀ code ∈ e.space.localeCodes, '_' ∉ code.toList)
    (hschema : e.schema.Compiled) (hfree : e.schema.CollisionFree)
    (hm : Mapping.of e.schema e.space = .ok m)
    (hddl : e.schema.ddl e.namespaceName e.space = .ok ddl)
    (hddl' : e.schema.ddl ns e.space = .ok ddl')
    (hfresh : s.hasNamespace e.namespaceName = false) (hfresh' : s'.hasNamespace ns = false)
    (hf : s.failures = []) (hf' : s'.failures = []) (hend : SyncPage.EndAt pages token)
    (hanswers : source.answers = pages.map .ok ++ rest)
    (hconvert : ∀ p ∈ pages, ∃ records, m.pageRecords p = .ok records)
    (hcovers : m.Covers pages) :
    ∃ created created' report batches final,
      s.execute ddl = (.ok (), created) ∧ s'.execute ddl' = (.ok (), created') ∧
      (e.bulkLoad .never start ⟨source, created⟩).result = .ok report ∧
      pages.mapM (m.pageBatch ns) = .ok batches ∧
      created'.executeEach batches = (.ok (), final) ∧
      ∀ t ∈ e.schema.allTables,
        (e.bulkLoad .never start ⟨source, created⟩).world.store.rows e.namespaceName t.name
          = final.rows ns t.name ∧
        ∀ l ∈ t.linkTables,
          (e.bulkLoad .never start ⟨source, created⟩).world.store.rows e.namespaceName l.name
            = final.rows ns l.name := by
  obtain ⟨hsame, -, hsound⟩ := Mapping.sound_of_ok hm hspace hcodes hschema hfree
  obtain ⟨created, base, hcreated, hf, hns, hbase⟩ := Schema.execute_ddl hfree hddl hfresh hf
  obtain ⟨created', base', hcreated', hf', hns', hbase'⟩ :=
    Schema.execute_ddl hfree hddl' hfresh' hf'
  rw [← hsame] at hbase hbase'
  obtain ⟨report, n, hresult, hn, hloaded⟩ := Replicated.bulkLoad hm hsound hbase hns hf hend
    hanswers hconvert hcovers start
  obtain ⟨batches, hbatches⟩ := Mapping.exists_pageBatches ns hconvert
  obtain ⟨final, n', base'', hfinal, -, hn', happlied, -⟩ :=
    Replicated.executePages hsound hbatches hbase' hns' hf'
  have hrows (name : Ident) (hname : name ∈ m.schema.contentTables.map Prod.fst) :
      (e.bulkLoad .never start ⟨source, created⟩).world.store.rows e.namespaceName name
        = final.rows ns name := Store.rows_eq hn hn' (hloaded.table_eq happlied hname)
  rw [← hsame]
  refine ⟨created, created', report, batches, final, hcreated, hcreated', hresult, hbatches, hfinal,
    fun t ht => ⟨hrows t.name ?_, fun l hl => hrows l.name ?_⟩⟩
  · exact List.mem_map_of_mem (Schema.mem_contentTables_of_table ht)
  · exact List.mem_map_of_mem (Schema.mem_contentTables_of_link (Schema.mem_linkTables ht hl))

namespace Catalog

/-- What brings the records of the catalog into a namespace. -/
def engine : Engine := ⟨⟨schema, space, namespaceName⟩, {}⟩

/-- The source of the catalog, with its pages. -/
def source : ContentSource := { ContentSource.new space types with answers := pages.map .ok }

/-- The store in which the namespace of the catalog was set up. -/
def setUp : Store :=
  match schema.ddl namespaceName space with
  | .ok ddl => (Store.empty.execute ddl).2
  | .error _ => .empty

/-- The namespace of the catalog can be set up. -/
theorem exists_setUp :
    ∃ ddl, schema.ddl namespaceName space = .ok ddl ∧ Store.empty.execute ddl = (.ok (), setUp) := by
  obtain ⟨ddl, hddl⟩ := exists_of_isOk
    (show (schema.ddl namespaceName space).isOk = true by decide +kernel)
  obtain ⟨created, -, hcreated, -⟩ := Schema.execute_ddl (s := .empty) collisionFree hddl rfl rfl
  refine ⟨ddl, hddl, ?_⟩
  unfold setUp
  rw [hddl]
  dsimp only
  rw [hcreated]

/-- The pages of the catalog end its feed. -/
theorem pages_endAt : SyncPage.EndAt pages "second" := .more rfl (.last rfl)

end Catalog

/-- A bulk load of the catalog leaves the products and their tags that its news leave in a second
namespace. -/
theorem bulkLoad_agrees_catalog :
    ∃ (created created' final : Store) (report : SyncReport) (batches : List (List Statement)),
      (Catalog.engine.bulkLoad .never .start ⟨Catalog.source, created⟩).result = .ok report ∧
      Catalog.pages.mapM (Catalog.mapping.pageBatch ⟨"second"⟩) = .ok batches ∧
      created'.executeEach batches = (.ok (), final) ∧
      ∀ name ∈ ([⟨"product"⟩, ⟨"tag"⟩, ⟨"con_product_tags"⟩] : List Ident),
        (Catalog.engine.bulkLoad .never .start ⟨Catalog.source, created⟩).world.store.rows
            Catalog.namespaceName name
          = final.rows ⟨"second"⟩ name := by
  obtain ⟨ddl, hddl⟩ := exists_of_isOk
    (show (Catalog.schema.ddl Catalog.namespaceName Catalog.space).isOk = true by decide +kernel)
  obtain ⟨ddl', hddl'⟩ := exists_of_isOk
    (show (Catalog.schema.ddl ⟨"second"⟩ Catalog.space).isOk = true by decide +kernel)
  have hconvert : ∀ p ∈ Catalog.pages, ∃ records, Catalog.mapping.pageRecords p = .ok records := by
    have hall : ∀ p ∈ Catalog.pages, (Catalog.mapping.pageRecords p).isOk = true := by
      decide +kernel
    exact fun p hp => exists_of_isOk (hall p hp)
  obtain ⟨created, created', report, batches, final, -, -, hresult, hbatches, hfinal, hrows⟩ :=
    bulkLoad_agrees (e := Catalog.engine) (s := .empty) .start
      (show Catalog.space.validate = .ok () from rfl) (by decide) (.all Catalog.types rfl)
      Catalog.collisionFree (show Mapping.of _ _ = .ok Catalog.mapping from rfl) hddl hddl' rfl
      (show Store.empty.hasNamespace ⟨"second"⟩ = false from rfl) rfl rfl Catalog.pages_endAt
      (show Catalog.source.answers = _ ++ [] from rfl) hconvert (by decide +kernel)
  refine ⟨created, created', final, report, batches, hresult, hbatches, hfinal, ?_⟩
  have hproduct : Catalog.productTable ∈ Catalog.schema.allTables := by decide +kernel
  have htag : Catalog.tagTable ∈ Catalog.schema.allTables := by decide +kernel
  have hlink : ∃ l ∈ Catalog.productTable.linkTables, l.name = ⟨"con_product_tags"⟩ := by
    decide +kernel
  obtain ⟨l, hl, hlink⟩ := hlink
  intro name hname
  simp only [List.mem_cons, List.not_mem_nil, or_false] at hname
  rcases hname with rfl | rfl | rfl
  · rw [show (⟨"product"⟩ : Ident) = Catalog.productTable.name by decide +kernel]
    exact (hrows _ hproduct).1
  · rw [show (⟨"tag"⟩ : Ident) = Catalog.tagTable.name by decide +kernel]
    exact (hrows _ htag).1
  · rw [← hlink]
    exact (hrows _ hproduct).2 l hl

end ContentReplica
