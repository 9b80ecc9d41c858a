import ContentReplica.Proofs.Query.Documents
import ContentReplica.Proofs.Replication.Synced

/-!
# What is delivered is answered

After a page that delivers one entry, the query function of its content type answers one document for
it in each locale of the space, and each plain field shows the converted payload value of the first
locale that has one (`Replica.call_shows_payload`), whatever was stored before.

The namespace that the page leaves is told by its rows: they are coherent, and those of the entry are
the ones that its payload makes (`Replica.Synced.entry`).
-/

namespace ContentReplica

namespace Replica

variable {r : Replica} {m : Mapping} {depth : Nat} {pages : List SyncPage} {s final : Store}
  {p : SyncPage} {batch : List Statement} {e : Entry} {t : TableLayout}

/-- A page that delivers one entry leaves its rows in place of all that the record had. -/
theorem Synced.entry (h : r.Synced depth pages s) (hfree : r.schema.CollisionFree)
    (hm : Mapping.of r.schema r.space = .ok m) (hwell : m.WellFormed)
    (ht : r.schema.entryTable? e.contentType = some t) (hentries : p.entries = [e])
    (hassets : p.assets = []) (hdeletions : p.deletions = [])
    (hbatch : r.pageBatch p = .ok batch) (hexecute : s.execute batch = (.ok (), final)) :
    ∃ n origin base contents record, final.namespace? r.namespaceName = some n ∧
      r.schema.SetUp r.space r.namespaceName depth origin ∧ base.Beside origin ∧
      Mirror r.schema base n contents ∧
      contents.Coherent r.schema r.space.localeCodes m.default ∧
      m.entryRows e = .ok record ∧ record.Describes t r.space.localeCodes ∧
      m.default ∈ record.locales ∧ contents.HasRecord t record := by
  obtain ⟨n₀, origin, hn₀, hsetUp, base, contents₀, hbase, hbeside, hmirror, hcoherent⟩ :=
    h.coherent hfree hm hwell
  obtain ⟨n, hrun, hn⟩ := exists_namespace_of_page hn₀ hbatch hexecute
  obtain ⟨d, -, rfl⟩ := Mapping.of_eq_ok.1 hm
  obtain ⟨rfl, hconverts⟩ := Mapping.pageBatch_eq (pageBatch_of_mapping hm hbatch)
  have hevents : p.events = [.entry e] := by
    unfold SyncPage.events
    rw [hentries, hassets, hdeletions]
    rfl
  rw [hevents] at hrun hconverts
  have htable : Mapping.hasTable ⟨r.schema, r.space, d.code⟩ e = true := by
    unfold Mapping.hasTable
    rw [ht]
    rfl
  obtain ⟨record, hrecord⟩ := hconverts _ (List.mem_singleton_self _) htable
  obtain ⟨t', ht', -, hdescribes⟩ := Mapping.describes_entryRows hwell.codes_nodup
    hwell.default_mem hwell.compiled.column_not_reserved hrecord
  obtain rfl := Option.some.inj (ht.symm.trans ht')
  have hnumbered := Mapping.numbered_entryRows hwell.default_mem hrecord
  have hstatements : [FeedEvent.entry e].flatMap
      (Mapping.eventStatements ⟨r.schema, r.space, d.code⟩ r.namespaceName)
      = Mapping.recordStatements r.namespaceName record := by
    rw [List.flatMap_singleton]
    unfold Mapping.eventStatements
    dsimp only
    rw [hrecord]
  rw [hstatements] at hrun
  -- The batch writes the record and then the token, which stands beside the content.
  obtain ⟨n₁, hrun₁, hlast⟩ := Namespace.applyAll_append.1 hrun
  obtain ⟨n₂, hsave, hdone⟩ := Namespace.applyAll_cons.1 hlast
  obtain rfl := pure_eq_ok.1 hdone
  obtain ⟨contents, hmirror₁, hcoherent₁, hhas⟩ := hmirror.coherent_record hfree hbase hcoherent
    (List.mem_append_left _ (Schema.entryTable?_eq_some ht).1) hdescribes hnumbered hrun₁
  obtain ⟨n', base', hsave', hbaseSave, -, hmirror'⟩ :=
    hmirror₁.saveToken hfree hbase p.cursor.token
  obtain rfl := Except.ok.inj (hsave.symm.trans hsave')
  exact ⟨_, origin, base', contents, record, hn, hsetUp, hbeside.saveToken hbaseSave, hmirror',
    hcoherent₁, hrecord, hdescribes, hnumbered.default_mem, hhas⟩

/-- A query function that is asked for all its rows answers one document for a record that has a row
in the default locale. -/
theorem call_record {n base origin : Namespace} {contents : Contents} {locale sysId : String}
    {root : Row} {c : QueryCall} (hm : Mapping.of r.schema r.space = .ok m)
    (hspace : r.space.validate = .ok ()) (hn : s.namespace? r.namespaceName = some n)
    (hsetUp : r.schema.SetUp r.space r.namespaceName depth origin) (hbeside : n.Beside origin)
    (hmirror : Mirror r.schema base n contents)
    (hrows : ∀ row, contents t.name row → ∃ sysId locale, RowOf sysId locale row)
    (ht : t ∈ r.schema.tables) (hown : r.schema.OwnFunction t)
    (hlocale : locale ∈ r.space.localeCodes) (hroot : contents t.name root)
    (hrootOf : RowOf sysId m.default root)
    (hc : c.AsksAll ⟨r.namespaceName, Naming.function t.name⟩ locale
      (s.rows r.namespaceName t.name).length) :
    ∃ page doc, s.call c = .ok page ∧
      n.document (m.contextOf locale) root (r.schema.planNode r.namespaceName depth 0 t) = .ok doc ∧
      page.itemList.filter (fun item => item.recordId? == some sysId) = [doc] := by
  obtain ⟨d, hdefault, rfl⟩ := Mapping.of_eq_ok.1 hm
  have hmem : t ∈ r.schema.allTables := List.mem_append_left _ ht
  have hplan := hbeside.functions ▸ hsetUp.functions t ht hown
  have hcontext : n.localeContext? (r.schema.planOf r.namespaceName depth t) locale
      = .ok (some (Mapping.contextOf ⟨r.schema, r.space, d.code⟩ locale)) :=
    Namespace.HasLocales.localeContext?_eq (hsetUp.locales.of_beside hbeside) hspace hdefault rfl
      rfl hlocale
  have hsource : (r.schema.planOf r.namespaceName depth t).root.source.table.name = t.name :=
    congrArg (fun source => source.table.name) (Schema.planNode_source depth 0 t)
  obtain ⟨table, hget, hold, hvalues, -⟩ :=
    hmirror.table?_eq_some hn (Schema.mem_contentTables_of_table hmem)
  have htable : n.table t.name = .ok table := by
    obtain ⟨n', hn', hget⟩ := Option.bind_eq_some_iff.1 hget
    obtain rfl := Option.some.inj (hn.symm.trans hn')
    unfold Namespace.table
    rw [hget]
  rw [hvalues] at hc
  have hbase : root ∈ table.rows.values := hold.mem_values.2 ⟨hroot, _, hrootOf.id⟩
  refine Store.call_document hn hplan hcontext (hmirror.stands fun name hname =>
    Schema.relations_planNode_content hmem hname) (hsource ▸ htable) hold.nodup_values ?_
    hbase hrootOf.sysId hrootOf.locale ?_ hc
  · intro row hrow
    obtain ⟨sysId', locale', hrowOf⟩ := hrows row (hold.mem_values.1 hrow).1
    exact ⟨sysId', hrowOf.sysId⟩
  · intro row hrow hid hdefaultRow
    obtain ⟨sysId', locale', hrowOf⟩ := hrows row (hold.mem_values.1 hrow).1
    obtain rfl := Value.text.inj (hid.symm.trans hrowOf.sysId)
    obtain rfl := Value.text.inj (hdefaultRow.symm.trans hrowOf.locale)
    exact hold.inj_id hrow hbase (hrowOf.id.trans hrootOf.id.symm)

/-- After a page that delivers one entry, its document shows in each plain field the converted payload
value of the first locale that has one. -/
theorem call_shows_payload (h : r.Synced depth pages s) (hspace : r.space.validate = .ok ())
    (hschema : r.schema.Compiled) (hfree : r.schema.CollisionFree)
    (hm : Mapping.of r.schema r.space = .ok m)
    (ht : r.schema.entryTable? e.contentType = some t) (hown : r.schema.OwnFunction t)
    (hentries : p.entries = [e]) (hassets : p.assets = []) (hdeletions : p.deletions = [])
    (hbatch : r.pageBatch p = .ok batch) (hexecute : s.execute batch = (.ok (), final))
    {locale : String} (hlocale : locale ∈ r.space.localeCodes) {c : QueryCall}
    (hc : c.AsksAll ⟨r.namespaceName, Naming.function t.name⟩ locale
      (final.rows r.namespaceName t.name).length) :
    ∃ page item, final.call c = .ok page ∧
      page.itemList.filter (fun item => item.recordId? == some e.sys.id) = [item] ∧
      item.sys? "locale" = some (.str locale) ∧
      ∀ f ∈ t.fields, ∀ type, f.placement = .value type →
        match m.shownPayload? (m.contextOf locale) e f with
        | some payload => ∃ v,
            Value.ofPayload ((Mapping.lenientFields t).contains f.fieldId) type payload = .ok v ∧
              item.field? f.fieldId = some v.toJson
        | none => item.field? f.fieldId = some .null := by
  obtain ⟨-, -, hwell⟩ := Mapping.wellFormed_of_ok hm hspace hschema hfree
  obtain ⟨n, origin, base, contents, record, hn, hsetUp, hbeside, hmirror, hcoherent, hrecord,
    -, hdefault, hhas⟩ := h.entry hfree hm hwell ht hentries hassets hdeletions hbatch hexecute
  obtain ⟨d, -, rfl⟩ := Mapping.of_eq_ok.1 hm
  have htables : t ∈ r.schema.tables := (Schema.entryTable?_eq_some ht).1
  have hmem : t ∈ r.schema.allTables := List.mem_append_left _ htables
  have hrows : ∀ row, contents t.name row → ∃ sysId locale, RowOf sysId locale row := by
    intro row hrow
    obtain ⟨sysId, l, -, hrowOf⟩ := hcoherent.rows t hmem row hrow
    exact ⟨sysId, l, hrowOf⟩
  obtain ⟨hsys, hlocales, hmade⟩ := Mapping.carries_entryRows hschema ht hrecord
  have hshows := hmirror.shows hmem hrows hsys hmade hhas
  -- The document is made from the row in the default locale.
  obtain ⟨values, hvalues, hcarries⟩ := exists_right_of_forall₂ hmade (hlocales ▸ hdefault)
  have hheld := ((hhas _).2 (List.mem_map_of_mem hvalues)).1
  obtain ⟨page, item, hcall, hitem, hfilter⟩ := call_record hm hspace hn hsetUp
    (hbeside.mirror hmirror hfree) hmirror hrows htables hown hlocale hheld hcarries.rowOf hc
  refine ⟨page, item, hcall, hfilter, (Namespace.sys?_document hitem).2, fun f hf type htype => ?_⟩
  exact Namespace.Shows.field?_document (m := ⟨r.schema, r.space, d.code⟩) hshows hschema
    hwell.default_mem ht hrecord hf htype rfl hcarries hitem

end Replica

namespace Catalog

/-- A product with a German name. -/
def translatedProduct : Entry := (product "p1" "Pen" 3).withField "name" german (.str "Stift")

/-- The page that delivers it. -/
def translation : SyncPage := (SyncPage.empty (.done "first")).withEntry translatedProduct

/-- The catalog with that product. -/
def translated : Store := (deliver translation queries.2).2

/-- A call for all products in French. -/
def allProducts (s : Store) : QueryCall :=
  ⟨.function ⟨namespaceName, Naming.function productTable.name⟩, french, [], [], 0,
    (s.rows namespaceName productTable.name).length⟩

/-- The call for all products takes all rows. -/
theorem asksAll_allProducts (s : Store) : (allProducts s).AsksAll
    ⟨replica.namespaceName, Naming.function productTable.name⟩ french
    (s.rows replica.namespaceName productTable.name).length :=
  ⟨rfl, rfl, rfl, rfl, Nat.le_refl _⟩

end Catalog

/-- The name of a product is shown in German where it has no French one, and no keyword is shown. -/
theorem Replica.call_shows_payload_catalog :
    ∃ page item, Catalog.translated.call (Catalog.allProducts Catalog.translated) = .ok page ∧
      page.itemList.filter (fun item => item.recordId? == some "p1") = [item] ∧
      item.sys? "locale" = some (.str Catalog.french) ∧
      item.field? "name" = some (.str "Stift") ∧ item.field? "keywords" = some .null := by
  obtain ⟨batch, hbatch, hexecute⟩ := Catalog.exists_batch_of_deliver
    (p := Catalog.translation) (s := Catalog.queries.2) (by decide +kernel)
  obtain ⟨page, item, hcall, hfilter, hlocale, hfields⟩ :=
    call_shows_payload (m := Catalog.mapping) (t := Catalog.productTable) Catalog.synced_queries
      (show Catalog.space.validate = .ok () from rfl) (.all Catalog.types rfl)
      Catalog.collisionFree rfl (by rfl)
      (show Catalog.schema.OwnFunction Catalog.productTable by decide +kernel)
      (show Catalog.translation.entries = [_] from rfl) rfl rfl hbatch hexecute
      (show Catalog.french ∈ Catalog.space.localeCodes by decide)
      (Catalog.asksAll_allProducts Catalog.translated)
  obtain ⟨name, hname, hnameId, hnameType, hshown⟩ : ∃ f ∈ Catalog.productTable.fields,
      f.fieldId = "name" ∧ f.placement = .value .text ∧
        Catalog.mapping.shownPayload? (Catalog.mapping.contextOf Catalog.french)
          Catalog.translatedProduct f
          = some (.str "Stift") := ⟨_, List.mem_cons_self .., rfl, rfl, rfl⟩
  obtain ⟨keywords, hkeywords, hkeywordsId, hkeywordsType, hnone⟩ :
      ∃ f ∈ Catalog.productTable.fields, f.fieldId = "keywords" ∧
        f.placement = .value (.array .text) ∧
        Catalog.mapping.shownPayload? (Catalog.mapping.contextOf Catalog.french)
          Catalog.translatedProduct f
          = none := ⟨_, List.getLast_mem (List.cons_ne_nil _ _), rfl, rfl, rfl⟩
  have hfirst := hfields name hname .text hnameType
  have hlast := hfields keywords hkeywords (.array .text) hkeywordsType
  rw [hshown, hnameId] at hfirst
  rw [hnone, hkeywordsId] at hlast
  obtain ⟨v, hv, hfirst⟩ := hfirst
  cases hv
  exact ⟨page, item, hcall, hfilter, hlocale, hfirst, hlast⟩

end ContentReplica
