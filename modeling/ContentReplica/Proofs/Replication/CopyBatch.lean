import ContentReplica.Proofs.Replication.CopyState

/-!
# What the batch of a bulk load does

The batch of a page removes the stale records and then copies the rows of the records that are kept,
table by table (`CopyState.items`). A copy fails on an identity that is already there, so the rows of
all tables have to be new and differ among themselves (`Schema.Copyable`). They do: identities settle
the record, no record is kept twice, and what an earlier page copied of it is stale
(`Replicated.copyBatch`).
-/

namespace ContentReplica

/-! ## Copying into several tables -/

/-- The rows to be copied into one table. -/
abbrev CopyItem := Ident × List ColumnDef × List (List Value)

/-- The rows of an item as they stand in the table. -/
def CopyItem.stored (item : CopyItem) : List Row := item.2.2.map (Row.ofCells item.2.1)

/-- Rows can be copied into a table: they fit it, and their identities are new and differ. -/
structure Schema.Copyable (s : Schema) (contents : Contents) (item : CopyItem) : Prop where
  table : (item.1, item.2.1) ∈ s.contentTables
  fit : ∀ values ∈ item.2.2, FitsColumns item.2.1 values
  nodup : (item.stored.map fun row => row.cell Column.id).Nodup
  fresh : ∀ row, contents item.1 row → ∀ new ∈ item.stored, row.cell Column.id ≠ new.cell Column.id

section
variable {s : Schema} {base n : Namespace} {contents : Contents}

/-- Rows that can be copied come to those that are there; without rows there is no statement. -/
theorem Mirror.copy (h : Mirror s base n contents) (hfree : s.CollisionFree) (ns : Ident)
    {item : CopyItem} (hitem : s.Copyable contents item) :
    ∃ n', n.applyAll (CopyState.copyStatement? ns item.1 item.2.1 item.2.2).toList = .ok n' ∧
      Mirror s base n' fun name row =>
        (name = item.1 ∧ row ∈ item.stored) ∨ contents name row := by
  obtain ⟨table, columns, rows⟩ := item
  cases rows with
  | nil =>
    refine ⟨n, rfl, h.congr fun name _ row => ?_⟩
    simp [CopyItem.stored]
  | cons values rows =>
    have hids : ((values :: rows).map fun v => (Row.ofCells columns v).cell Column.id).Nodup := by
      have := hitem.nodup
      unfold CopyItem.stored at this
      rwa [List.map_map] at this
    obtain ⟨n', hinsert, h'⟩ :=
      h.insert hfree ⟨ns, table⟩ hitem.table hitem.fit hids hitem.fresh
    refine ⟨n', Namespace.applyAll_cons.2 ⟨n', hinsert, rfl⟩, h'.congr fun name _ row => ?_⟩
    by_cases hn : name = table
    · subst hn
      rw [Function.update_self, and_iff_right rfl]
      rfl
    · rw [Function.update_of_ne hn]
      exact (or_iff_right fun he => hn he.1).symm

end

/-- Rows that can be copied into several tables come to those that are there. -/
theorem Mirror.copyAll {s : Schema} {base : Namespace} (hfree : s.CollisionFree) (ns : Ident) :
    ∀ {items : List CopyItem} {n : Namespace} {contents : Contents}, Mirror s base n contents →
      (items.map Prod.fst).Nodup → (∀ item ∈ items, s.Copyable contents item) →
      ∃ n', n.applyAll (items.filterMap fun item =>
          CopyState.copyStatement? ns item.1 item.2.1 item.2.2) = .ok n' ∧
        Mirror s base n' fun name row =>
          (∃ item ∈ items, name = item.1 ∧ row ∈ item.stored) ∨ contents name row := by
  intro items
  induction items with
  | nil => exact fun h _ _ => ⟨_, rfl, h.congr fun _ _ _ => by simp⟩
  | cons item items ih =>
    intro n contents h hnodup hitems
    rw [List.map_cons, List.nodup_cons] at hnodup
    obtain ⟨hitem, hnodup⟩ := hnodup
    obtain ⟨n₁, hfirst, h₁⟩ := h.copy hfree ns (hitems item (List.mem_cons_self ..))
    have hrest (item' : CopyItem) (hm : item' ∈ items) : s.Copyable (fun name row =>
        (name = item.1 ∧ row ∈ item.stored) ∨ contents name row) item' :=
      { hitems item' (List.mem_cons_of_mem _ hm) with
        fresh := fun row hrow => (hitems item' (List.mem_cons_of_mem _ hm)).fresh row
          (hrow.resolve_left fun he => hitem (he.1 ▸ List.mem_map_of_mem hm)) }
    obtain ⟨n', hrun, h'⟩ := ih h₁ hnodup hrest
    refine ⟨n', ?_, h'.congr fun name _ row => ?_⟩
    · rw [List.filterMap_cons]
      cases hstatement : CopyState.copyStatement? ns item.1 item.2.1 item.2.2 with
      | none =>
        rw [hstatement] at hfirst
        cases hfirst
        exact hrun
      | some statement =>
        rw [hstatement] at hfirst
        exact Namespace.applyAll_append.2 ⟨n₁, hfirst, hrun⟩
    · simp only [List.mem_cons, or_and_right, exists_or, exists_eq_left, or_assoc]
      exact or_left_comm

/-! ## What is copied -/

namespace CopyState

/-- What is copied: into tables first, then into link tables. -/
def items (s : CopyState) : List CopyItem :=
  s.tableRows ++ s.linkRows.entries.map fun entry => (entry.1, LinkTable.columns, entry.2)

/-- The batch removes stale records and copies the items. -/
theorem batch_eq (s : CopyState) (ns : Ident) : s.batch ns =
    s.stale.ids.map (fun pair => Mapping.deleteRecord ns pair.1 pair.2)
      ++ s.items.filterMap fun item => copyStatement? ns item.1 item.2.1 item.2.2 := by
  unfold batch items
  rw [List.filterMap_append, List.filterMap_map, ← List.append_assoc]
  rfl

/-- The rows of some arrays of links, gathered by link table. -/
theorem get?_gather (sets : List EdgeSet) (name : Ident) :
    ∀ m : SortedMap Ident (List (List Value)),
      (sets.foldl (fun m set =>
        m.insert set.linkTable (((m.get? set.linkTable).getD []) ++ set.rows)) m).get? name =
      if name ∈ sets.map EdgeSet.linkTable then
        some ((m.get? name).getD [] ++
          (sets.filter fun set => set.linkTable = name).flatMap EdgeSet.rows)
      else m.get? name := by
  induction sets with
  | nil => exact fun m => (if_neg List.not_mem_nil).symm
  | cons set sets ih =>
    intro m
    rw [List.foldl_cons, ih, SortedMap.get?_insert_eq]
    by_cases hname : name = set.linkTable
    · subst hname
      simp only [List.map_cons, List.mem_cons, true_or, if_true, List.filter_cons, decide_true,
        List.flatMap_cons, Option.getD_some, ← List.append_assoc]
      split
      · rfl
      · next hmem =>
        have hnone : sets.filter (fun set' => set'.linkTable = set.linkTable) = [] :=
          List.filter_eq_nil_iff.2 fun set' hset he =>
            hmem (of_decide_eq_true he ▸ List.mem_map_of_mem hset)
        rw [hnone]
        simp
    · have hne : ¬ set.linkTable = name := fun he => hname he.symm
      simp [hname, hne]

/-- What is kept for a record is that record, as its table describes it. -/
def Keeps (s : CopyState) (schema : Schema) (codes : List String) : Prop :=
  ∀ table sysId r, s.records.get? table sysId = some r →
    r.table = table ∧ r.sysId = sysId ∧ ∃ t ∈ schema.allTables, r.Describes t codes

/-- The arrays of links of the records that are kept. -/
def edgeSets (s : CopyState) : List EdgeSet := s.records.values.flatMap RecordRows.edges

/-- The edges of the records that are kept, in one link table. -/
def edgesInto (s : CopyState) (name : Ident) : List (List Value) :=
  (s.edgeSets.filter fun set => set.linkTable = name).flatMap EdgeSet.rows

section
variable {s : CopyState} {schema : Schema} {codes : List String}

/-- The edges of all records are gathered by link table. -/
theorem get?_linkRows (name : Ident) :
    s.linkRows.get? name =
      if name ∈ s.edgeSets.map EdgeSet.linkTable then some (s.edgesInto name) else none := by
  unfold linkRows edgesInto edgeSets ByRecord.values
  dsimp only
  rw [List.flatMap_assoc, get?_gather, SortedMap.get?_empty]
  rfl

/-- What is copied into tables: the rows of the records that are kept for each of them. -/
theorem mem_tableRows {item : CopyItem} : item ∈ s.tableRows ↔
    ∃ records first rest, s.records.tables.get? item.1 = some records ∧
      records.values = first :: rest ∧
      item.2 = (first.columns, (first :: rest).flatMap RecordRows.rows) := by
  unfold tableRows
  rw [List.mem_filterMap]
  constructor
  · rintro ⟨⟨table, records⟩, he, h⟩
    dsimp only at h
    split at h
    · cases h
    · next first rest hvalues =>
      cases h
      exact ⟨records, first, rest, (SortedMap.mem_entries_iff _ _).1 he, hvalues, rfl⟩
  · obtain ⟨table, columns, rows⟩ := item
    rintro ⟨records, first, rest, hrecords, hvalues, hitem⟩
    cases hitem
    refine ⟨(table, records), (SortedMap.mem_entries_iff _ (table, records)).2 hrecords, ?_⟩
    dsimp only
    rw [hvalues]

/-- What is copied into link tables: the edges of all records that are kept. -/
theorem mem_linkItems {item : CopyItem} :
    (item ∈ s.linkRows.entries.map fun entry => (entry.1, LinkTable.columns, entry.2)) ↔
      item.1 ∈ s.edgeSets.map EdgeSet.linkTable ∧
        item.2 = (LinkTable.columns, s.edgesInto item.1) := by
  rw [List.mem_map]
  constructor
  · rintro ⟨⟨name, rows⟩, he, rfl⟩
    have hrows := (SortedMap.mem_entries_iff _ _).1 he
    dsimp only at hrows ⊢
    rw [get?_linkRows] at hrows
    split at hrows
    · next hname => exact ⟨hname, congrArg _ (Option.some.inj hrows).symm⟩
    · cases hrows
  · obtain ⟨name, columns, rows⟩ := item
    rintro ⟨hname, hitem⟩
    dsimp only at hname hitem
    cases hitem
    refine ⟨(name, _), (SortedMap.mem_entries_iff _ (name, _)).2 ?_, rfl⟩
    exact (get?_linkRows name).trans (if_pos hname)

/-- A link table that an array of a record belongs to. -/
theorem Keeps.exists_link (h : s.Keeps schema codes) {name : Ident}
    (hname : name ∈ s.edgeSets.map EdgeSet.linkTable) :
    ∃ l ∈ schema.linkTables, l.name = name := by
  obtain ⟨set, hset, rfl⟩ := List.mem_map.1 hname
  obtain ⟨r, hr, hset⟩ := List.mem_flatMap.1 hset
  obtain ⟨table, sysId, hr⟩ := ByRecord.mem_values.1 hr
  obtain ⟨-, -, t, ht, hdescribes⟩ := h table sysId r hr
  obtain ⟨l, hl, hlink⟩ := hdescribes.exists_link hset
  exact ⟨l, Schema.mem_linkTables ht hl, hlink⟩

/-- The table of the records that are kept for it. -/
theorem Keeps.exists_table (h : s.Keeps schema codes) (hfree : schema.CollisionFree) {table : Ident}
    {records : SortedMap String RecordRows} (hrecords : s.records.tables.get? table = some records)
    (hvalues : records.values ≠ []) :
    ∃ t ∈ schema.allTables, t.name = table ∧ ∀ r ∈ records.values, r.Describes t codes := by
  have hget (r : RecordRows) (hr : r ∈ records.values) :
      r.table = table ∧ ∃ t ∈ schema.allTables, r.Describes t codes := by
    obtain ⟨sysId, hsys⟩ := SortedMap.mem_values.1 hr
    have hkept : s.records.get? table sysId = some r := by
      unfold ByRecord.get?
      rw [hrecords]
      exact hsys
    obtain ⟨htable, -, hdescribes⟩ := h table sysId r hkept
    exact ⟨htable, hdescribes⟩
  obtain ⟨first, hfirst⟩ := List.exists_mem_of_ne_nil _ hvalues
  obtain ⟨htable, t, ht, hdescribes⟩ := hget first hfirst
  refine ⟨t, ht, hdescribes.table_eq.symm.trans htable, fun r hr => ?_⟩
  obtain ⟨htable', t', ht', hdescribes'⟩ := hget r hr
  have hname : t'.name = t.name := by
    rw [← hdescribes'.table_eq, ← hdescribes.table_eq, htable, htable']
  exact hfree.table_eq ht' ht hname ▸ hdescribes'

/-- No table is copied into twice. -/
theorem Keeps.nodup_items (h : s.Keeps schema codes) (hfree : schema.CollisionFree) :
    (s.items.map Prod.fst).Nodup := by
  have htables : (s.tableRows.map Prod.fst).Nodup := by
    have hkeys : s.records.tables.entries.Pairwise fun a b => a.1 ≠ b.1 :=
      List.pairwise_map.1 s.records.tables.nodup_keys
    refine List.pairwise_map.2 (List.pairwise_filterMap.2 (hkeys.imp fun {a b} hne => ?_))
    intro item ha item' hb
    dsimp only at ha hb
    split at ha
    · cases ha
    · split at hb
      · cases hb
      · cases ha
        cases hb
        exact hne
  have hlinks : ((s.linkRows.entries.map fun entry =>
      ((entry.1, LinkTable.columns, entry.2) : CopyItem)).map Prod.fst).Nodup := by
    rw [List.map_map]
    exact s.linkRows.nodup_keys
  unfold items
  rw [List.map_append]
  refine List.nodup_append.2 ⟨htables, hlinks, fun name hname name' hname' he => ?_⟩
  obtain ⟨item, hitem, rfl⟩ := List.mem_map.1 hname
  obtain ⟨records, first, rest, hrecords, hvalues, -⟩ := mem_tableRows.1 hitem
  obtain ⟨t, ht, htable, -⟩ := h.exists_table hfree hrecords (hvalues ▸ List.cons_ne_nil _ _)
  obtain ⟨item', hitem', rfl⟩ := List.mem_map.1 hname'
  obtain ⟨l, hl, hlink⟩ := h.exists_link (mem_linkItems.1 hitem').1
  exact hfree.table_ne_link ht hl (htable.trans (he.trans hlink.symm))

/-- An item holds what some of the records bring to its table. -/
theorem Keeps.item_spec (h : s.Keeps schema codes) (hfree : schema.CollisionFree) {item : CopyItem}
    (hitem : item ∈ s.items) : (item.1, item.2.1) ∈ schema.contentTables ∧
      (∀ values ∈ item.2.2, FitsColumns item.2.1 values) ∧
      ∃ records : List RecordRows, records.Sublist s.records.values ∧
        item.stored = records.flatMap fun r => r.stored item.1 := by
  unfold CopyItem.stored
  rcases List.mem_append.1 hitem with hitem | hitem
  · obtain ⟨records, first, rest, hrecords, hvalues, hrows⟩ := mem_tableRows.1 hitem
    obtain ⟨t, ht, htable, hdescribes⟩ :=
      h.exists_table hfree hrecords (hvalues ▸ List.cons_ne_nil _ _)
    have hcolumns : first.columns = t.columns :=
      (hdescribes first (hvalues ▸ List.mem_cons_self ..)).columns_eq
    rw [← hvalues, hcolumns] at hrows
    rw [hrows, ← htable]
    refine ⟨Schema.mem_contentTables_of_table ht, fun values hv => ?_, records.values, ?_, ?_⟩
    · obtain ⟨r, hr, hv⟩ := List.mem_flatMap.1 hv
      exact (hdescribes r hr).rows_fit values hv
    · exact List.sublist_flatten_of_mem
        (List.mem_map_of_mem (SortedMap.mem_values.2 ⟨item.1, hrecords⟩))
    · rw [List.map_flatMap]
      refine List.flatMap_congr fun r hr => ?_
      exact ((hdescribes r hr).stored_table (hfree.name_notMem_links ht)).symm
  · obtain ⟨hname, hrows⟩ := mem_linkItems.1 hitem
    obtain ⟨l, hl, hlink⟩ := h.exists_link hname
    have hdescribes (r : RecordRows) (hr : r ∈ s.records.values) :
        ∃ t ∈ schema.allTables, r.Describes t codes := by
      obtain ⟨table, sysId, hr⟩ := ByRecord.mem_values.1 hr
      exact (h table sysId r hr).2.2
    rw [hrows]
    unfold edgesInto edgeSets
    refine ⟨hlink ▸ Schema.mem_contentTables_of_link hl, fun values hv => ?_, s.records.values,
      .refl _, ?_⟩
    · obtain ⟨set, hset, hv⟩ := List.mem_flatMap.1 hv
      obtain ⟨r, hr, hset⟩ := List.mem_flatMap.1 (List.mem_of_mem_filter hset)
      obtain ⟨t, -, hdescribes⟩ := hdescribes r hr
      exact hdescribes.edges_fit set hset values hv
    · rw [List.filter_flatMap, List.flatMap_assoc, List.map_flatMap]
      refine List.flatMap_congr fun r hr => ?_
      obtain ⟨t, ht, hdescribes⟩ := hdescribes r hr
      have hne : item.1 ≠ t.name := fun he => hfree.table_ne_link ht hl (he.symm.trans hlink.symm)
      rw [hdescribes.stored_link hne, List.map_flatMap]

/-- What the records bring to a table is copied into it. -/
theorem Keeps.exists_item (h : s.Keeps schema codes) (hfree : schema.CollisionFree) {r : RecordRows}
    (hr : r ∈ s.records.values) {name : Ident} {row : Row} (hrow : row ∈ r.stored name) :
    ∃ item ∈ s.items, name = item.1 ∧ row ∈ item.stored := by
  rcases RecordRows.mem_stored.1 hrow with ⟨rfl, hown⟩ | ⟨set, hset, rfl, hedge⟩
  · obtain ⟨table, sysId, hget⟩ := ByRecord.mem_values.1 hr
    obtain ⟨rfl, -, -⟩ := h table sysId r hget
    obtain ⟨records, hrecords, hsys⟩ := Option.bind_eq_some_iff.1 hget
    have hmem : r ∈ records.values := SortedMap.mem_values.2 ⟨sysId, hsys⟩
    obtain ⟨first, rest, hvalues⟩ := List.exists_cons_of_ne_nil (List.ne_nil_of_mem hmem)
    obtain ⟨t, -, -, hdescribes⟩ := h.exists_table hfree hrecords (List.ne_nil_of_mem hmem)
    have hcolumns : r.columns = first.columns := by
      rw [(hdescribes r hmem).columns_eq,
        (hdescribes first (hvalues ▸ List.mem_cons_self ..)).columns_eq]
    refine ⟨(r.table, first.columns, records.values.flatMap RecordRows.rows),
      List.mem_append_left _ (mem_tableRows.2 ⟨records, first, rest, hrecords, hvalues, ?_⟩), rfl, ?_⟩
    · rw [hvalues]
    · obtain ⟨values, hv, rfl⟩ := List.mem_map.1 hown
      exact hcolumns ▸ List.mem_map_of_mem (List.mem_flatMap.2 ⟨r, hmem, hv⟩)
  · have hset : set ∈ s.edgeSets := List.mem_flatMap.2 ⟨r, hr, hset⟩
    refine ⟨(set.linkTable, LinkTable.columns, s.edgesInto set.linkTable),
      List.mem_append_right _ (mem_linkItems.2 ⟨List.mem_map_of_mem hset, rfl⟩), rfl, ?_⟩
    obtain ⟨values, hv, rfl⟩ := List.mem_map.1 hedge
    refine List.mem_map_of_mem (List.mem_flatMap.2 ⟨set, List.mem_filter.2 ⟨hset, ?_⟩, hv⟩)
    exact decide_eq_true rfl

end

end CopyState

/-! ## The batch on a namespace -/

section
variable {s : Schema} {codes : List String} {held : Held} {contents : Contents}

/-- Records of which no two have one identity bring no identity twice to a table. -/
theorem RecordRows.nodup_ids_flatMap (hfree : s.CollisionFree)
    (hcodes : Naming.Apart codes) {records : List RecordRows}
    (hdescribes : ∀ r ∈ records, ∃ t ∈ s.allTables, r.Describes t codes)
    (hnodup : (records.map fun r => (r.table, r.sysId)).Nodup) (name : Ident) :
    ((records.flatMap fun r => r.stored name).map fun row => row.cell Column.id).Nodup := by
  rw [List.map_flatMap]
  refine List.nodup_flatMap.2 ⟨fun r hr => ?_, ?_⟩
  · obtain ⟨t, ht, hdescribes⟩ := hdescribes r hr
    exact hdescribes.nodup_ids (hfree.nodup_linkTables_of_table ht) (hfree.name_notMem_links ht) name
  · refine (List.pairwise_map.1 hnodup).imp_of_mem fun {r r'} hr hr' hne id hid hid' => hne ?_
    obtain ⟨row, hrow, rfl⟩ := List.mem_map.1 hid
    obtain ⟨row', hrow', he⟩ := List.mem_map.1 hid'
    obtain ⟨t, ht, hr⟩ := hdescribes r hr
    obtain ⟨t', ht', hr'⟩ := hdescribes r' hr'
    obtain ⟨rfl, hsys⟩ := (hr.keeps hrow).inj (hr'.keeps hrow') hfree hcodes ht ht' he.symm
    rw [hr.table_eq, hr'.table_eq, hsys]

/-- Records that are new, no two with one identity, are held beside the others when what they bring
comes to what is there. -/
theorem Contents.Shows.putAll (hfree : s.CollisionFree) :
    ∀ {records : List RecordRows} {held : Held} {contents : Contents},
      contents.Shows s codes held →
      (∀ r ∈ records, (∃ t ∈ s.allTables, r.Describes t codes) ∧ held r.table r.sysId = none) →
      (records.map fun r => (r.table, r.sysId)).Nodup →
      Contents.Shows s codes (held.setAll records) fun name row =>
        (∃ r ∈ records, row ∈ r.stored name) ∨ contents name row := by
  intro records
  induction records with
  | nil =>
    intro held contents h _ _
    have hsame : contents = fun name row => (∃ r ∈ ([] : List RecordRows), row ∈ r.stored name) ∨
        contents name row := by
      funext name row
      simp
    rw [← hsame]
    exact h
  | cons r records ih =>
    intro held contents h hrecords hnodup
    rw [List.map_cons, List.nodup_cons] at hnodup
    obtain ⟨hnew, hnodup⟩ := hnodup
    obtain ⟨⟨t, ht, hdescribes⟩, hnone⟩ := hrecords r (List.mem_cons_self ..)
    rw [hdescribes.table_eq] at hnone
    -- nothing of the record is there, so nothing is replaced
    have hput : contents.put t r = fun name row => row ∈ r.stored name ∨ contents name row := by
      funext name row
      refine propext (or_congr_right (and_iff_left_of_imp fun hrow howns => ?_))
      have hstored := (h.iff t ht r.sysId name row howns).1 hrow
      unfold Held.stored at hstored
      rw [hnone] at hstored
      cases hstored
    have h₁ := h.put hfree ht hdescribes
    rw [hput, ← hdescribes.table_eq] at h₁
    have hrest := ih h₁ (fun r' hr' => by
      obtain ⟨hdescribes', hnone'⟩ := hrecords r' (List.mem_cons_of_mem _ hr')
      refine ⟨hdescribes', (if_neg fun hsame => hnew ?_).trans hnone'⟩
      rw [← hsame.1, ← hsame.2]
      exact List.mem_map_of_mem hr') hnodup
    have hsame : (fun name row => (∃ r' ∈ records, row ∈ r'.stored name) ∨
          row ∈ r.stored name ∨ contents name row)
        = fun name row => (∃ r' ∈ r :: records, row ∈ r'.stored name) ∨ contents name row := by
      funext name row
      simp only [List.mem_cons, or_and_right, exists_or, exists_eq_left, or_assoc, or_left_comm]
    exact hsame ▸ hrest

end

section
variable {m : Mapping} {held : Held} {contents : Contents} {s : CopyState}

/-- The records that are kept have identities of their own. -/
theorem CopyState.Keeps.nodup_keys {schema : Schema} {codes : List String}
    (h : s.Keeps schema codes) : (s.records.values.map fun r => (r.table, r.sysId)).Nodup := by
  have hids : s.records.values.map (fun r => (r.table, r.sysId)) = s.records.ids :=
    ByRecord.map_values fun table sysId r hget => by
      obtain ⟨htable, hsys, -⟩ := h table sysId r hget
      rw [htable, hsys]
  exact hids ▸ s.records.nodup_ids

/-- What is kept can be copied if nothing is held under its identities: a row that is there belongs
to a record that is held. -/
theorem CopyState.Keeps.copyable (h : s.Keeps m.schema m.space.localeCodes) (hm : m.Sound)
    (hshows : contents.Shows m.schema m.space.localeCodes held)
    (hnew : ∀ r ∈ s.records.values,
      (∃ t ∈ m.schema.allTables, r.Describes t m.space.localeCodes) ∧ held r.table r.sysId = none) :
    ∀ item ∈ s.items, m.schema.Copyable contents item := by
  intro item hitem
  obtain ⟨htable, hfit, records, hsublist, hstored⟩ := h.item_spec hm.collisionFree hitem
  refine ⟨htable, hfit, ?_, fun row hrow new hmem hid => ?_⟩
  · rw [hstored]
    exact RecordRows.nodup_ids_flatMap hm.collisionFree hm.codes_apart
      (fun r hr => (hnew r (hsublist.subset hr)).1) ((hsublist.map _).nodup h.nodup_keys) item.1
  · rw [hstored] at hmem
    obtain ⟨r, hr, hmem⟩ := List.mem_flatMap.1 hmem
    obtain ⟨⟨t, ht, hdescribes⟩, hnone⟩ := hnew r (hsublist.subset hr)
    obtain ⟨t', ht', sysId, hkeeps⟩ := hshows.regular.keeps (List.mem_map_of_mem htable) hrow
    obtain ⟨rfl, rfl⟩ :=
      hkeeps.inj (hdescribes.keeps hmem) hm.collisionFree hm.codes_apart ht' ht hid
    have hheld := (hshows.iff t' ht' r.sysId item.1 row hkeeps.owns).1 hrow
    unfold Held.stored at hheld
    rw [← hdescribes.table_eq, hnone] at hheld
    cases hheld

/-- What is copied is what the records that are kept bring to their tables. -/
theorem CopyState.Keeps.exists_item_iff {schema : Schema} {codes : List String}
    (h : s.Keeps schema codes) (hfree : schema.CollisionFree) {name : Ident} {row : Row} :
    (∃ item ∈ s.items, name = item.1 ∧ row ∈ item.stored) ↔
      ∃ r ∈ s.records.values, row ∈ r.stored name := by
  constructor
  · rintro ⟨item, hitem, rfl, hrow⟩
    obtain ⟨-, -, records, hsublist, hstored⟩ := h.item_spec hfree hitem
    rw [hstored] at hrow
    obtain ⟨r, hr, hrow⟩ := List.mem_flatMap.1 hrow
    exact ⟨r, hsublist.subset hr, hrow⟩
  · rintro ⟨r, hr, hrow⟩
    exact h.exists_item hfree hr hrow

/-- The batch of a page leaves the stale records and takes in those that are kept, if none of these is
held and not stale. -/
theorem Replicated.copyBatch {base n : Namespace}
    (h : Replicated m.schema m.space.localeCodes base n held) (hm : m.Sound)
    (hbase : m.schema.Installed base) (ns : Ident) (hkeeps : s.Keeps m.schema m.space.localeCodes)
    (hstale : ∀ table sysId, s.stale.has table sysId = true →
      ∃ l ∈ m.schema.allTables, l.name = table)
    (hnew : ∀ table sysId r, s.records.get? table sysId = some r →
      s.stale.has table sysId = true ∨ held table sysId = none) :
    ∃ n', n.applyAll (s.batch ns) = .ok n' ∧
      Replicated m.schema m.space.localeCodes base n' fun table sysId =>
        (s.records.get? table sysId).or
          (if s.stale.has table sysId then none else held table sysId) := by
  have hfree := hm.collisionFree
  have htables : ∀ pair ∈ s.stale.ids, ∃ l ∈ m.schema.allTables, l.name = pair.1 :=
    fun pair hpair => hstale pair.1 pair.2 (ByRecord.mem_ids.1 hpair)
  obtain ⟨n₁, hdelete, contents, hmirror, hshows⟩ := Replicated.deleteAll hm hbase ns htables h
  let left : Held := fun table sysId => if s.stale.has table sysId then none else held table sysId
  have hleft : (fun table sysId => if (table, sysId) ∈ s.stale.ids then none
      else held table sysId) = left := by
    funext table sysId
    exact if_congr ByRecord.mem_ids rfl rfl
  rw [hleft] at hshows
  have hrecords : ∀ r ∈ s.records.values,
      (∃ t ∈ m.schema.allTables, r.Describes t m.space.localeCodes) ∧
        left r.table r.sysId = none := by
    intro r hr
    obtain ⟨table, sysId, hget⟩ := ByRecord.mem_values.1 hr
    obtain ⟨rfl, rfl, hdescribes⟩ := hkeeps table sysId r hget
    refine ⟨hdescribes, ?_⟩
    rcases hnew _ _ r hget with hstale | hnone
    · exact if_pos hstale
    · exact (if_congr Iff.rfl rfl hnone).trans (ite_self _)
  obtain ⟨n', hcopy, h'⟩ :=
    hmirror.copyAll hfree ns (hkeeps.nodup_items hfree) (hkeeps.copyable hm hshows hrecords)
  have hheld : (fun table sysId => (s.records.get? table sysId).or (left table sysId))
      = left.setAll s.records.values := by
    funext table sysId
    refine (Held.setAll_values (fun table sysId r hget => ?_) left table sysId).symm
    obtain ⟨htable, hsys, -⟩ := hkeeps table sysId r hget
    exact ⟨htable, hsys⟩
  refine ⟨n', ?_, _, h'.congr fun name _ row => or_congr_left (hkeeps.exists_item_iff hfree),
    hheld ▸ hshows.putAll hfree hrecords hkeeps.nodup_keys⟩
  rw [CopyState.batch_eq]
  exact Namespace.applyAll_append.2 ⟨n₁, hdelete, hcopy⟩

end

end ContentReplica
