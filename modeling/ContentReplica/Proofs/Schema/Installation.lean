import ContentReplica.Catalog
import ContentReplica.Proofs.Query.Locales
import ContentReplica.Proofs.Schema.Names
import ContentReplica.Proofs.Schema.Setup
import ContentReplica.Proofs.Store.Batch
import ContentReplica.Proofs.Store.Objects

/-!
# Compiled schemas can be installed

The statements of a compiled schema with faithful names go through as one batch in a store that does
not have the namespace, for every valid space (`Schema.compile_installs`). They leave the tables of the
schema and no others, and each index on its own table (`Schema.InstalledIn`). A content type that gets
no table is recorded, and the others get the tables that they would get without it.
-/

namespace ContentReplica

/-! ## Locales -/

namespace Space

variable {s : Space} {l : Locale}

/-- A locale whose code is the word for the default locale is given the fallback of the default locale,
so that one has to be known. -/
def KeywordFallsBack (s : Space) : Prop :=
  ∀ l ∈ s.locales, l.isDefault = false → l.code = defaultKeyword →
    (s.defaultLocale >>= s.fallbackLocale).isOk = true

instance (s : Space) : Decidable s.KeywordFallsBack :=
  inferInstanceAs (Decidable (∀ l ∈ s.locales, _ → _ → _))

/-- A locale of a valid space is found by its code. -/
theorem locale?_code (h : s.validate = .ok ()) (hl : l ∈ s.locales) : s.locale? l.code = some l :=
  (locale?_eq_some (validate_eq_ok.1 h).2.1).2
    ⟨hl, List.contains_iff_mem.2 (List.mem_cons_self ..)⟩

/-- The fallback of every other locale than the default one is known. -/
theorem exists_fallbackOf (h : s.validate = .ok ()) (hkeyword : s.KeywordFallsBack)
    (hl : l ∈ s.locales) (hdefault : l.isDefault = false) : ∃ code, s.fallbackOf l.code = .ok code := by
  obtain ⟨d, hd⟩ := exists_defaultLocale h
  suffices ∃ start next, s.resolve (some l.code) = .ok start ∧ s.fallbackLocale start = .ok next by
    obtain ⟨start, next, hstart, hnext⟩ := this
    exact ⟨next.code, bind_eq_ok.2 ⟨start, hstart, bind_eq_ok.2 ⟨next, hnext, rfl⟩⟩⟩
  by_cases hcode : l.code = defaultKeyword
  · obtain ⟨next, hnext⟩ := exists_of_isOk (hkeyword l hl hdefault hcode)
    rw [hd] at hnext
    refine ⟨d, next, ?_, hnext⟩
    simp only [resolve]
    rw [if_pos hcode, hd]
  · have hresolve : s.resolve (some l.code) = .ok l := by
      simp only [resolve]
      rw [if_neg hcode, locale?_code h hl]
    -- The walk from the locale to the default one begins with the fallback.
    obtain ⟨chain, hchain⟩ := (validate_eq_ok.1 h).2.2 l hl
    unfold fallbackChain at hchain
    rw [hd, hresolve] at hchain
    change s.walk d.code (s.locales.length + 1) [] l = .ok chain at hchain
    have hne : l.code ≠ d.code := fun he => by
      rw [((default_iff h hd).2.2 l hl).2 he] at hdefault
      cases hdefault
    unfold walk at hchain
    rw [if_neg (by simp), if_neg hne] at hchain
    dsimp only at hchain
    obtain ⟨next, hnext, -⟩ := bind_eq_ok.1 hchain
    exact ⟨l, next, hresolve, hnext⟩

end Space

namespace Schema

variable {s : Schema} {ns : Ident} {space : Space}

/-- The statements of a schema can be made for every valid space. -/
theorem exists_ddl (s : Schema) (ns : Ident) (h : space.validate = .ok ())
    (hkeyword : space.KeywordFallsBack) : ∃ ddl, s.ddl ns space = .ok ddl := by
  obtain ⟨rows, hrows⟩ : ∃ rows, space.locales.mapM (localeRow space) = .ok rows := by
    refine mapM_isOk fun l hl => ?_
    unfold localeRow
    cases hdefault : l.isDefault with
    | true => exact ⟨_, rfl⟩
    | false =>
      obtain ⟨code, hcode⟩ := Space.exists_fallbackOf h hkeyword hl hdefault
      rw [hcode]
      exact ⟨_, rfl⟩
  unfold ddl
  rw [hrows]
  exact ⟨_, rfl⟩

/-! ## What the statements create -/

section
variable (s : Schema) (ns : Ident) (rows : List (List Value))

/-- Statements that all create nothing of a kind create nothing of it together. -/
theorem filterMap_map_eq_nil {α β : Type} {f : α → Statement} {created : Statement → Option β}
    (h : ∀ x, created (f x) = none) (xs : List α) : (xs.map f).filterMap created = [] := by
  rw [List.filterMap_map]
  exact List.filterMap_eq_nil_iff.2 fun x _ => h x

/-- The statements that set up a schema create its tables. -/
theorem createdTables_setupStatements : (s.setupStatements ns rows).filterMap Statement.createdTable?
    = [syncTokenTable, localesTable] ++ (s.allTables.flatMap TableLayout.block).map Prod.fst := by
  have hlink (l : LinkTable) :
      (linkTableStatements ns l).filterMap Statement.createdTable? = [l.name] := rfl
  have htable (t : TableLayout) : (tableStatements ns t).filterMap Statement.createdTable?
      = t.block.map Prod.fst := by
    unfold tableStatements TableLayout.block
    rw [List.filterMap_append, List.filterMap_cons_some (by rfl), filterMap_map_eq_nil fun _ => rfl,
      List.filterMap_flatMap, List.map_cons, List.map_map]
    simp only [hlink]
    rw [← List.map_eq_flatMap]
    rfl
  unfold setupStatements
  rw [List.filterMap_append, List.filterMap_append, List.filterMap_append, List.filterMap_flatMap,
    filterMap_map_eq_nil fun _ => rfl, List.map_flatMap]
  simp only [htable]
  exact (List.append_nil _).trans (List.append_nil _)

/-- They create its indexes, each on its own table. -/
theorem createdIndexes_setupStatements :
    ((s.setupStatements ns rows).filterMap Statement.createdIndex?).Perm
      (s.indexes.map fun i => (i.2.name, i.1)) := by
  have hlink (l : LinkTable) : (linkTableStatements ns l).filterMap Statement.createdIndex?
      = l.indexes.map fun i => (i.name, l.name) := rfl
  have hindexes (name : QualifiedName) (indexes : List IndexLayout) :
      (indexes.map (indexStatement name)).filterMap Statement.createdIndex?
        = indexes.map fun i => (i.name, name.name) := by
    rw [List.filterMap_map, ← List.filterMap_eq_map]
    rfl
  have htable (t : TableLayout) : (tableStatements ns t).filterMap Statement.createdIndex?
      = t.indexes.map (fun i => (i.name, t.name))
        ++ t.linkTables.flatMap fun l => l.indexes.map fun i => (i.name, l.name) := by
    unfold tableStatements
    rw [List.filterMap_append, List.filterMap_cons_none (by rfl), hindexes, List.filterMap_flatMap]
    simp only [hlink]
  have hall : (s.setupStatements ns rows).filterMap Statement.createdIndex?
      = s.allTables.flatMap fun t => t.indexes.map (fun i => (i.name, t.name))
        ++ t.linkTables.flatMap fun l => l.indexes.map fun i => (i.name, l.name) := by
    unfold setupStatements
    rw [List.filterMap_append, List.filterMap_append, List.filterMap_append, List.filterMap_flatMap,
      filterMap_map_eq_nil fun _ => rfl]
    simp only [htable]
    exact (List.append_nil _).trans (List.append_nil _)
  have hlinks : s.linkTables.flatMap (fun l => l.indexes.map fun i => (i.name, l.name))
      = s.allTables.flatMap fun t =>
        t.linkTables.flatMap fun l => l.indexes.map fun i => (i.name, l.name) := by
    rw [allTables, List.flatMap_append, linkTables, List.flatMap_assoc]
    exact (List.append_nil _).symm
  rw [hall, indexes, List.map_append, List.map_flatMap, List.map_flatMap]
  simp only [List.map_map]
  refine (List.flatMap_append_perm _ _ _).symm.trans (List.Perm.append_left _ ?_)
  exact hlinks ▸ .refl _

end

/-- What is in a namespace that a schema was installed in: its tables and no others, empty but for the
locales of the space, its triggers, and its indexes, each on its own table. -/
structure InstalledIn (s : Schema) (space : Space) (n : Namespace) : Prop where
  keys : n.tables.keys.Perm s.tableNames
  installed : s.Installed n
  locales : n.HasLocales space
  indexKeys : n.indexes.keys.Perm s.indexNames
  index : ∀ i ∈ s.indexes, n.indexes.get? i.2.name = some i.1

/-- A schema whose tables and indexes have names of their own is installed by its statements. -/
theorem CollisionFree.applyAll_ddl (hfree : s.CollisionFree) (hindexes : s.indexNames.Nodup)
    {ddl : List Statement} (hddl : s.ddl ns space = .ok ddl) {d : Database}
    (hns : d.namespaces.get? ns = none) :
    ∃ n, d.applyAll ddl = .ok (d.withNamespace ns n) ∧ s.InstalledIn space n := by
  obtain ⟨n, hrun, hinstalled, hlocales, -⟩ := applyAll_ddl_locales hfree hddl hns
  obtain ⟨rows, n', hsetUp, hn'⟩ := exists_namespace_of_ddl hddl hrun
  rw [hns, Option.getD_none] at hsetUp
  obtain rfl := Option.some.inj ((Database.get?_withNamespace_self ..).symm.trans hn')
  have hcreated := s.createdIndexes_setupStatements ns rows
  have hindex {name table : Ident} : n.indexes.get? name = some table ↔
      (name, table) ∈ s.indexes.map fun i => (i.2.name, i.1) := by
    rw [Namespace.applyAll_indexes hsetUp ?_ fun _ _ => SortedMap.get?_empty _, hcreated.mem_iff]
    · rw [show Namespace.empty.indexes.get? name = none from SortedMap.get?_empty _]
      simp
    · rw [(hcreated.map Prod.fst).nodup_iff, List.map_map]
      exact hindexes
  refine ⟨n, hrun, ⟨(List.perm_ext_iff_of_nodup n.tables.nodup_keys hfree).2 fun name => ?_,
    hinstalled, hlocales, (List.perm_ext_iff_of_nodup n.indexes.nodup_keys hindexes).2 fun name => ?_,
    fun i hi => hindex.2 (List.mem_map_of_mem hi)⟩⟩
  · have hkeys : name ∈ n.tables.keys ↔ n.tables.contains name = true := by
      rw [SortedMap.mem_keys, SortedMap.contains_eq_true]
    rw [hkeys, Namespace.applyAll_tables hsetUp, createdTables_setupStatements, List.mem_append,
      (s.flatMap_block_perm.map Prod.fst).mem_iff, tableNames, List.mem_append]
    rw [show Namespace.empty.tables.contains name = false from
      SortedMap.contains_eq_false.2 (SortedMap.get?_empty _)]
    simp only [Bool.false_eq_true, false_or, List.mem_cons, List.not_mem_nil, or_false]
    tauto
  · rw [SortedMap.mem_keys, indexNames, List.mem_map]
    refine ⟨fun ⟨table, h⟩ => ?_, fun ⟨i, hi, he⟩ => ⟨i.1, hindex.2 (he ▸ List.mem_map_of_mem hi)⟩⟩
    obtain ⟨i, hi, he⟩ := List.mem_map.1 (hindex.1 h)
    exact ⟨i, hi, congrArg Prod.fst he⟩

/-- For every valid space the statements of content types whose names are faithful go through as one
batch in a store without the namespace. No two tables and no two indexes share a name, and the namespace
has these tables and indexes. Each content type is laid out or recorded, whatever comes after it, and
without those that were recorded the tables are the same. -/
theorem compile_installs {types : List ContentType} {store : Store} (hspace : space.validate = .ok ())
    (hkeyword : space.KeywordFallsBack) (hnames : (compile types).FaithfulNames)
    (hnew : store.hasNamespace ns = false) (hfailures : store.failures = []) :
    (compile types).CollisionFree ∧ (compile types).indexNames.Nodup ∧
      (∃ ddl final n, (compile types).ddl ns space = .ok ddl ∧ store.execute ddl = (.ok (), final) ∧
        final.database = store.database.withNamespace ns n ∧
        (compile types).InstalledIn space n) ∧
      (∀ before c after, types = before ++ c :: after →
        (compile types).Settles (compile before) c) ∧
      ∃ kept, kept.Sublist types ∧ compile kept = ⟨(compile types).tables, []⟩ := by
  have hcompiled : (compile types).Compiled := .all types rfl
  have hfree := hnames.collisionFree hcompiled
  have hindexes := hnames.nodup_indexNames hcompiled
  refine ⟨hfree, hindexes, ?_, fun before c after he => ?_, exists_kept types⟩
  · obtain ⟨ddl, hddl⟩ := (compile types).exists_ddl ns hspace hkeyword
    obtain ⟨n, happly, hinstalled⟩ :=
      hfree.applyAll_ddl hindexes hddl (SortedMap.contains_eq_false.1 hnew)
    obtain ⟨final, hexecute, hdatabase, -⟩ := Store.execute_of_applyAll hfailures happly
    exact ⟨ddl, final, n, hddl, hexecute, hdatabase, hinstalled⟩
  · rw [he]
    exact compile_settles before after c

end Schema

namespace Catalog

/-- A content type without a usable field between the others. -/
def brokenTypes : List ContentType :=
  [productType, .new "broken" [.new "title" .symbol, .new "title" .text], articleType]

end Catalog

/-- The content type between is recorded, and the tables and indexes of the two others are installed. -/
theorem Schema.compile_installs_catalog :
    ∃ ddl final n, (compile Catalog.brokenTypes).ddl ⟨"catalog"⟩ Catalog.space = .ok ddl ∧
      Store.empty.execute ddl = (.ok (), final) ∧
      final.database = Database.empty.withNamespace ⟨"catalog"⟩ n ∧ n.tables.keys.length = 6 ∧
      n.indexes.keys.length = 12 ∧
      ⟨"broken", .columnTaken "title"⟩ ∈ (compile Catalog.brokenTypes).failures := by
  have hnames : (compile Catalog.brokenTypes).FaithfulNames := by
    constructor <;> decide +kernel
  obtain ⟨-, -, ⟨ddl, final, n, hddl, hexecute, hdatabase, hinstalled⟩, hsettles, -⟩ :=
    compile_installs (show Catalog.space.validate = .ok () from rfl) (by decide) hnames
      (show Store.empty.hasNamespace ⟨"catalog"⟩ = false from rfl) rfl
  have hbroken := hsettles [Catalog.productType] _ [Catalog.articleType] rfl
  have hcheck : checkType (.new "broken" [.new "title" .symbol, .new "title" .text])
      = .error (.columnTaken "title") := by rfl
  unfold Settles at hbroken
  rw [hcheck] at hbroken
  have htables : (compile Catalog.brokenTypes).tableNames.length = 6 := by decide +kernel
  have hindexes : (compile Catalog.brokenTypes).indexNames.length = 12 := by decide +kernel
  exact ⟨ddl, final, n, hddl, hexecute, hdatabase, hinstalled.keys.length_eq.trans htables,
    hinstalled.indexKeys.length_eq.trans hindexes, hbroken⟩

end ContentReplica
