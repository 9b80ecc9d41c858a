import ContentReplica.Catalog
import ContentReplica.Proofs.Replication.Feed
import ContentReplica.Proofs.Schema.Setup
import ContentReplica.Proofs.Store.Batch

/-!
# The last delivery counts

A replica that is set up by `Schema.ddl` and then takes the batches of some pages holds of every record
what the last payload delivered for it says, and nothing if a deletion came after it
(`lastDelivery_counts`). Nothing of earlier deliveries is left, and the last batch applied once more
changes nothing.
-/

namespace ContentReplica

/-! ## Rows of a record in the store -/

/-- The rows of a table that have an identity in a column. -/
def Store.rowsWith (s : Store) (ns table column : Ident) (sysId : String) : List Row :=
  (s.rows ns table).filter fun row => row.text? column == some sysId

/-- In its table a record owns the rows with its identity. -/
theorem TableLayout.owns_table_iff {s : Schema} (hfree : s.CollisionFree) {t : TableLayout}
    (ht : t ∈ s.allTables) {sysId : String} {row : Row} :
    row.cell Column.sysId = .text sysId ↔ t.Owns sysId t.name row :=
  ⟨fun he => .inl ⟨rfl, he⟩, fun h => h.elim (fun h => h.2) fun h =>
    absurd h.1 (hfree.name_notMem_links ht)⟩

/-- In a link table of its table a record owns the edges that lead from it. -/
theorem TableLayout.owns_link_iff {s : Schema} (hfree : s.CollisionFree) {t : TableLayout}
    (ht : t ∈ s.allTables) {l : LinkTable} (hl : l ∈ t.linkTables) {sysId : String} {row : Row} :
    row.cell Column.ownerSysId = .text sysId ↔ t.Owns sysId l.name row :=
  ⟨fun he => .inr ⟨List.mem_map_of_mem hl, he⟩, fun h => h.elim
    (fun h => absurd h.1.symm (hfree.table_ne_link ht (Schema.mem_linkTables ht hl))) fun h => h.2⟩

section
variable {s : Schema} {codes : List String} {base n : Namespace} {held : Held}

/-- The rows of a table that belong to a record are those that the record brings to it. -/
theorem Replicated.filter_perm (h : Replicated s codes base n held) (hfree : s.CollisionFree)
    {t : TableLayout} (ht : t ∈ s.allTables) {sysId : String} {name column : Ident}
    (hname : name ∈ s.contentTables.map Prod.fst)
    (hcolumn : ∀ row : Row, row.cell column = .text sysId ↔ t.Owns sysId name row) :
    ∃ table, n.tables.get? name = some table ∧
      (table.rows.values.filter fun row => row.text? column == some sysId).Perm
        (held.stored t.name sysId name) := by
  obtain ⟨contents, hmirror, hshows⟩ := h
  obtain ⟨columns, hx⟩ : ∃ columns, (name, columns) ∈ s.contentTables := by
    obtain ⟨⟨_, columns⟩, hx, rfl⟩ := List.mem_map.1 hname
    exact ⟨columns, hx⟩
  obtain ⟨table, htable, hold⟩ := hmirror.tables _ columns hx
  refine ⟨table, htable, ?_⟩
  have hstored : (held.stored t.name sysId name).Nodup ∧
      ∀ row ∈ held.stored t.name sysId name, t.Owns sysId name row := by
    unfold Held.stored
    cases hr : held t.name sysId with
    | none => exact ⟨.nil, nofun⟩
    | some r =>
      obtain ⟨hdescribes, rfl⟩ := hshows.describes t ht sysId r hr
      have hids := hdescribes.nodup_ids (hfree.nodup_linkTables_of_table ht)
        (hfree.name_notMem_links ht) name
      exact ⟨hids.of_map, fun row hrow => (hdescribes.keeps hrow).owns⟩
  obtain ⟨hnodup, howns⟩ := hstored
  refine (List.perm_ext_iff_of_nodup (hold.nodup_values.filter _) hnodup).2 fun row => ?_
  rw [List.mem_filter, hold.mem_values, beq_iff_eq, Row.text?_eq_some, hcolumn]
  constructor
  · rintro ⟨⟨hrow, -⟩, howns⟩
    exact (hshows.iff t ht sysId _ row howns).1 hrow
  · intro hrow
    have hcontents := (hshows.iff t ht sysId _ row (howns row hrow)).2 hrow
    obtain ⟨_, -, _, hkeeps⟩ := hshows.regular.keeps hname hcontents
    exact ⟨⟨hcontents, hkeeps.exists_id⟩, howns row hrow⟩

/-- In its table a record has the rows that it brings there. -/
theorem Replicated.rowsWith_table (h : Replicated s codes base n held) (hfree : s.CollisionFree)
    {t : TableLayout} (ht : t ∈ s.allTables) {store : Store} {ns : Ident}
    (hn : store.namespace? ns = some n) (sysId : String) :
    (store.rowsWith ns t.name Column.sysId sysId).Perm (held.stored t.name sysId t.name) := by
  obtain ⟨table, htable, hperm⟩ := h.filter_perm hfree ht
    (List.mem_map_of_mem (Schema.mem_contentTables_of_table ht))
    fun _ => TableLayout.owns_table_iff hfree ht
  unfold Store.rowsWith Store.rows
  rw [show store.database.table? ns t.name = some table from
    Option.bind_eq_some_iff.2 ⟨n, hn, htable⟩]
  exact hperm

/-- In a link table of its table a record has the edges that it brings there. -/
theorem Replicated.rowsWith_link (h : Replicated s codes base n held) (hfree : s.CollisionFree)
    {t : TableLayout} (ht : t ∈ s.allTables) {l : LinkTable} (hl : l ∈ t.linkTables) {store : Store}
    {ns : Ident} (hn : store.namespace? ns = some n) (sysId : String) :
    (store.rowsWith ns l.name Column.ownerSysId sysId).Perm
      (held.stored t.name sysId l.name) := by
  obtain ⟨table, htable, hperm⟩ := h.filter_perm hfree ht
    (List.mem_map_of_mem (Schema.mem_contentTables_of_link (Schema.mem_linkTables ht hl)))
    fun _ => TableLayout.owns_link_iff hfree ht hl
  unfold Store.rowsWith Store.rows
  rw [show store.database.table? ns l.name = some table from
    Option.bind_eq_some_iff.2 ⟨n, hn, htable⟩]
  exact hperm

end

/-! ## A replica after some pages -/

/-- What the feed says of each record after some pages: the rows of the last payload that was
delivered for it, none if a deletion came after it or no payload was delivered. -/
def Mapping.current (m : Mapping) (pages : List SyncPage) : Held :=
  m.after (fun _ _ => none) (pages.flatMap SyncPage.events)

section
variable {schema : Schema} {space : Space} {m : Mapping} {ns : Ident} {s created : Store}

/-- A store without failures sets up the tables of a schema in a namespace that is not there yet. -/
theorem Schema.execute_ddl {ddl : List Statement} (hfree : schema.CollisionFree)
    (hddl : schema.ddl ns space = .ok ddl) (hfresh : s.hasNamespace ns = false)
    (hf : s.failures = []) :
    ∃ created base, s.execute ddl = (.ok (), created) ∧ created.failures = [] ∧
      created.namespace? ns = some base ∧ schema.Installed base := by
  obtain ⟨base, hsetup, hbase⟩ :=
    Schema.applyAll_ddl hfree hddl (SortedMap.contains_eq_false.1 hfresh)
  obtain ⟨created, hcreated, hdatabase, hfailures⟩ := Store.execute_of_applyAll hf hsetup
  exact ⟨created, base, hcreated, hfailures, Store.namespace?_of_database hdatabase, hbase⟩

/-- A store without failures executes the batches of pages in a namespace that was set up, and the
namespace then holds what the pages say of each record. -/
theorem Replicated.executePages {base : Namespace} {pages : List SyncPage}
    {batches : List (List Statement)} (hm : m.Sound)
    (hbatches : pages.mapM (m.pageBatch ns) = .ok batches) (hbase : m.schema.Installed base)
    (hns : created.namespace? ns = some base) (hf : created.failures = []) :
    ∃ final n base', created.executeEach batches = (.ok (), final) ∧ final.failures = [] ∧
      final.namespace? ns = some n ∧
      Replicated m.schema m.space.localeCodes base' n (m.current pages) ∧
      ∀ last, batches.getLast? = some last → final.database.applyAll last = .ok final.database := by
  obtain ⟨n, base', hrun, -, hreplicated, hagain⟩ :=
    Replicated.pages hm hbatches hbase (Replicated.empty hbase)
  have hlocal : ∀ batch ∈ batches, ∀ statement ∈ batch, statement.InNamespace ns := by
    intro batch hbatch
    obtain ⟨p, -, hp⟩ := exists_of_mapM hbatches hbatch
    exact Mapping.pageBatch_local hp
  obtain ⟨final, hfinal, hdatabase, hfailures⟩ :=
    Store.executeEach_of_applyAll hf (Database.applyEach_of_namespace hns hlocal hrun)
  have hn : final.database.namespaces.get? ns = some n := by
    rw [hdatabase]
    exact Database.get?_withNamespace_self ..
  refine ⟨final, n, base', hfinal, hfailures, hn, hreplicated, fun last hlast => ?_⟩
  have happly := Database.applyAll_of_namespace hn
    (hlocal last (List.mem_of_getLast? hlast)) (hagain last hlast)
  rwa [Database.withNamespace_of_get? hn] at happly

end

/-- For a valid space whose locale codes hold no separator and a compiled schema whose tables have
names of their own, the batches of any pages that convert are executed one after the other in a
namespace that was set up for them. Then every record has in its table and in its link tables exactly
the rows of the last payload that was delivered for it, and none if it was deleted after that or never
delivered. The last batch applied once more changes nothing. -/
theorem lastDelivery_counts {schema : Schema} {space : Space} {m : Mapping} {ns : Ident} {s : Store}
    {ddl : List Statement} {pages : List SyncPage} {batches : List (List Statement)}
    (hspace : space.validate = .ok ()) (hcodes : ∀ code ∈ space.localeCodes, '_' ∉ code.toList)
    (hschema : schema.Compiled) (hfree : schema.CollisionFree)
    (hm : Mapping.of schema space = .ok m) (hddl : schema.ddl ns space = .ok ddl)
    (hfresh : s.hasNamespace ns = false) (hfailures : s.failures = [])
    (hbatches : pages.mapM (m.pageBatch ns) = .ok batches) :
    ∃ created final, s.execute ddl = (.ok (), created) ∧
      created.executeEach batches = (.ok (), final) ∧
      (∀ t ∈ schema.allTables, ∀ sysId,
        (final.rowsWith ns t.name Column.sysId sysId).Perm
          ((m.current pages).stored t.name sysId t.name) ∧
        ∀ l ∈ t.linkTables, (final.rowsWith ns l.name Column.ownerSysId sysId).Perm
          ((m.current pages).stored t.name sysId l.name)) ∧
      ∀ last, batches.getLast? = some last →
        ∃ again, final.execute last = (.ok (), again) ∧ again.database = final.database := by
  obtain ⟨rfl, rfl, hsound⟩ := Mapping.sound_of_ok hm hspace hcodes hschema hfree
  obtain ⟨created, base, hcreated, hf, hns, hbase⟩ :=
    Schema.execute_ddl hfree hddl hfresh hfailures
  obtain ⟨final, n, base', hfinal, hfinalFailures, hn, hreplicated, hagain⟩ :=
    Replicated.executePages hsound hbatches hbase hns hf
  refine ⟨created, final, hcreated, hfinal, fun t ht sysId => ⟨?_, fun l hl => ?_⟩,
    fun last hlast => ?_⟩
  · exact hreplicated.rowsWith_table hfree ht hn sysId
  · exact hreplicated.rowsWith_link hfree ht hl hn sysId
  · obtain ⟨again, hexec, hdatabase, -⟩ :=
      Store.execute_of_applyAll hfinalFailures (hagain last hlast)
    exact ⟨again, hexec, hdatabase⟩

/-! ## The catalog -/

namespace Catalog

/-- The namespace that the catalog is replicated into. -/
def namespaceName : Ident := ⟨"catalog"⟩

/-- The tables of the catalog. -/
def schema : Schema := Schema.compile types

/-- The mapping of the catalog. -/
def mapping : Mapping := ⟨schema, space, english⟩

/-- A product that refers to two tags. -/
def taggedProduct : Entry :=
  (product "p1" "Pen" 3).withField "tags" english (.arr [entryLink "t1", entryLink "t2"])

/-- Two pages: the second delivers the product of the first without its tags, and deletes a tag. -/
def pages : List SyncPage :=
  [((SyncPage.empty (.next "first")).withEntry taggedProduct).withEntry (tag "t1" "red"),
    ((SyncPage.empty (.done "second")).withEntry (product "p1" "Pencil" 4)).withDeletion
      ⟨"t1", .deletedEntry, some "tag"⟩]

/-- The layout of the products. -/
def productTable : TableLayout := Schema.layoutType (types.map ContentType.id) productType

/-- The layout of the tags. -/
def tagTable : TableLayout := Schema.layoutType (types.map ContentType.id) tagType

/-- The tables of the catalog have names of their own. -/
theorem collisionFree : schema.CollisionFree := by decide +kernel

end Catalog

/-- After the pages of the catalog the product has one row and no edge, and the deleted tag is
gone. -/
theorem lastDelivery_counts_catalog :
    ∃ ddl batches created final, Catalog.schema.ddl Catalog.namespaceName Catalog.space = .ok ddl ∧
      Catalog.pages.mapM (Catalog.mapping.pageBatch Catalog.namespaceName) = .ok batches ∧
      Store.empty.execute ddl = (.ok (), created) ∧
      created.executeEach batches = (.ok (), final) ∧
      (final.rowsWith Catalog.namespaceName ⟨"product"⟩ Column.sysId "p1").length = 1 ∧
      final.rowsWith Catalog.namespaceName ⟨"con_product_tags"⟩ Column.ownerSysId "p1" = [] ∧
      final.rowsWith Catalog.namespaceName ⟨"tag"⟩ Column.sysId "t1" = [] := by
  obtain ⟨ddl, hddl⟩ := exists_of_isOk
    (show (Catalog.schema.ddl Catalog.namespaceName Catalog.space).isOk = true by decide +kernel)
  obtain ⟨batches, hbatches⟩ := exists_of_isOk
    (show (Catalog.pages.mapM (Catalog.mapping.pageBatch Catalog.namespaceName)).isOk = true by
      decide +kernel)
  obtain ⟨created, final, hcreated, hfinal, hrows, -⟩ := lastDelivery_counts (s := .empty)
    (show Catalog.space.validate = .ok () from rfl) (by decide) (.all Catalog.types rfl)
    Catalog.collisionFree (show Mapping.of _ _ = .ok Catalog.mapping from rfl) hddl rfl rfl hbatches
  have hproduct : Catalog.productTable ∈ Catalog.schema.allTables := by decide +kernel
  have htag : Catalog.tagTable ∈ Catalog.schema.allTables := by decide +kernel
  refine ⟨ddl, batches, created, final, hddl, hbatches, hcreated, hfinal, ?_, ?_, ?_⟩
  · have hcurrent : ((Catalog.mapping.current Catalog.pages).stored Catalog.productTable.name "p1"
        Catalog.productTable.name).length = 1 := by decide +kernel
    have hlength := (hrows Catalog.productTable hproduct "p1").1.length_eq.trans hcurrent
    rwa [show Catalog.productTable.name = ⟨"product"⟩ by decide +kernel] at hlength
  · have hlink : ∃ l ∈ Catalog.productTable.linkTables, l.name = ⟨"con_product_tags"⟩ ∧
        ((Catalog.mapping.current Catalog.pages).stored Catalog.productTable.name "p1"
          l.name).length = 0 := by decide +kernel
    obtain ⟨l, hl, hname, hcurrent⟩ := hlink
    have hlength := ((hrows Catalog.productTable hproduct "p1").2 l hl).length_eq.trans hcurrent
    rw [hname] at hlength
    exact List.eq_nil_of_length_eq_zero hlength
  · have hcurrent : ((Catalog.mapping.current Catalog.pages).stored Catalog.tagTable.name "t1"
        Catalog.tagTable.name).length = 0 := by decide +kernel
    have hlength := (hrows Catalog.tagTable htag "t1").1.length_eq.trans hcurrent
    rw [show Catalog.tagTable.name = ⟨"tag"⟩ by decide +kernel] at hlength
    exact List.eq_nil_of_length_eq_zero hlength

end ContentReplica
