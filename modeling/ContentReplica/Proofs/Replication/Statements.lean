import ContentReplica.Proofs.Replication.Records
import ContentReplica.Proofs.Store.Contents
import ContentReplica.Proofs.Store.Frame

/-!
# What the statements of a record do

The statements that bring a record up to date put its rows and edges in place of all that it had
(`Mirror.recordStatements`), and those that delete a record remove all that it had
(`Mirror.deleteRecord`). Which rows a record has is a matter of the rows alone (`TableLayout.Owns`).

Both need, and keep, that the rows and edges of a namespace are those of records, and that every edge
is owned by a row that is there (`Contents.Regular`): then no edge outlives its record.
-/

namespace ContentReplica

/-! ## Conditions on identities -/

/-- The only value that equals a text is that text. -/
theorem Value.equals_text {v : Value} {s : String} : v.equals (.text s) = true ↔ v = .text s := by
  cases v <;> simp [Value.equals]

/-- A condition on a text column holds when the column has that text. -/
theorem Predicate.holds_textEq {row : Row} {column : Ident} {s : String} :
    (Predicate.textEq column.text s).holds row = true ↔ row.cell column = .text s :=
  Value.equals_text

/-- The condition by which the rows of a record in other locales are removed. -/
theorem Predicate.holds_stale {row : Row} {sysId locale s : String} {locales : List String}
    (h : RowOf sysId locale row) :
    (Predicate.and [.textEq Column.sysId.text s,
      .noneOf ⟨Column.locale, .text⟩ (locales.map .text)]).holds row = true ↔
      sysId = s ∧ locale ∉ locales := by
  have hmeets : meets (.text locale) (locales.map .text) = true ↔ locale ∈ locales := by
    unfold meets
    dsimp only
    rw [List.any_map, List.any_eq_true]
    constructor
    · rintro ⟨l, hl, he⟩
      exact Value.text.inj (Value.equals_text.1 he) ▸ hl
    · exact fun hl => ⟨locale, hl, Value.equals_text.2 rfl⟩
  have hnone : (Predicate.noneOf ⟨Column.locale, .text⟩ (locales.map .text)).holds row
      = !meets (.text locale) (locales.map .text) := by
    unfold holds
    dsimp only
    rw [h.locale]
  unfold holds allHold allHold allHold
  rw [Bool.and_eq_true, Bool.and_true, hnone, Predicate.holds_textEq, h.sysId, Value.text.injEq,
    Bool.not_eq_true', ← Bool.not_eq_true, hmeets]

/-! ## The rows of a record -/

/-- The rows that a record brings to a table or a link table. -/
def RecordRows.stored (r : RecordRows) (name : Ident) : List Row :=
  (if name = r.table then r.rows.map (Row.ofCells r.columns) else [])
    ++ (r.edges.filter fun set => set.linkTable = name).flatMap fun set =>
      set.rows.map (Row.ofCells LinkTable.columns)

/-- A row of a table, or an edge of one of its link tables, belongs to a record. -/
def TableLayout.Owns (t : TableLayout) (sysId : String) (name : Ident) (row : Row) : Prop :=
  (name = t.name ∧ row.cell Column.sysId = .text sysId) ∨
    (name ∈ t.linkTables.map LinkTable.name ∧ row.cell Column.ownerSysId = .text sysId)

/-- What a record brings to a table are its rows there, and its edges where they are kept. -/
theorem RecordRows.mem_stored {r : RecordRows} {name : Ident} {row : Row} : row ∈ r.stored name ↔
    (name = r.table ∧ row ∈ r.rows.map (Row.ofCells r.columns)) ∨
      ∃ set ∈ r.edges, name = set.linkTable ∧
        row ∈ set.rows.map (Row.ofCells LinkTable.columns) := by
  have hedges : (row ∈ (r.edges.filter fun set => set.linkTable = name).flatMap fun set =>
        set.rows.map (Row.ofCells LinkTable.columns)) ↔
      ∃ set ∈ r.edges, name = set.linkTable ∧
        row ∈ set.rows.map (Row.ofCells LinkTable.columns) := by
    simp only [List.mem_flatMap, List.mem_filter, decide_eq_true_eq, and_assoc]
    exact exists_congr fun set => and_congr_right fun _ => and_congr_left fun _ => eq_comm
  unfold stored
  rw [List.mem_append, hedges]
  split
  · next h => simp [h]
  · next h => simp [h]

namespace Contents

/-- The contents without the rows of a record. -/
def remove (contents : Contents) (t : TableLayout) (sysId : String) : Contents := fun name row =>
  contents name row ∧ ¬ t.Owns sysId name row

/-- The contents with the rows of a record in place of all that it had. -/
def put (contents : Contents) (t : TableLayout) (r : RecordRows) : Contents := fun name row =>
  row ∈ r.stored name ∨ contents.remove t r.sysId name row

/-- The rows of tables are rows of records, the edges of link tables are edges of records, and the
row that owns an edge is there. -/
structure Regular (s : Schema) (codes : List String) (contents : Contents) : Prop where
  rows : ∀ t ∈ s.allTables, ∀ row, contents t.name row →
    ∃ sysId, ∃ locale ∈ codes, RowOf sysId locale row
  edges : ∀ t ∈ s.allTables, ∀ l ∈ t.linkTables, ∀ row, contents l.name row →
    ∃ sysId, ∃ locale ∈ codes, ∃ position, EdgeOf sysId locale position row ∧
      ∃ owner, contents t.name owner ∧ RowOf sysId locale owner

namespace Regular

variable {s : Schema} {codes : List String} {contents : Contents}

/-- Nothing is regular. -/
theorem empty : Regular s codes fun _ _ => False := ⟨nofun, nofun⟩

/-- Without a record the contents stay regular: its edges go with its rows. -/
theorem remove (h : contents.Regular s codes) (hfree : s.CollisionFree) {t : TableLayout}
    (ht : t ∈ s.allTables) (sysId : String) : (contents.remove t sysId).Regular s codes where
  rows t' ht' row hrow := h.rows t' ht' row hrow.1
  edges t' ht' l hl row hrow := by
    obtain ⟨s₁, locale, hlocale, position, hedge, owner, howner, hownerOf⟩ :=
      h.edges t' ht' l hl row hrow.1
    refine ⟨s₁, locale, hlocale, position, hedge, owner, ⟨howner, ?_⟩, hownerOf⟩
    rintro (⟨hname, hsys⟩ | ⟨hname, -⟩)
    · have hlink : l.name ∈ t.linkTables.map LinkTable.name :=
        hfree.table_eq ht' ht hname ▸ List.mem_map_of_mem hl
      refine hrow.2 (.inr ⟨hlink, ?_⟩)
      rw [hedge.ownerSysId, ← hownerOf.sysId, hsys]
    · obtain ⟨l', hl', hname⟩ := List.mem_map.1 hname
      exact hfree.table_ne_link ht' (Schema.mem_linkTables ht hl') hname.symm

/-- With a record brought up to date the contents stay regular: it brings the rows that own its
edges. -/
theorem put (h : contents.Regular s codes) (hfree : s.CollisionFree) {t : TableLayout}
    (ht : t ∈ s.allTables) {r : RecordRows} (hr : r.Describes t codes) :
    (contents.put t r).Regular s codes where
  rows t' ht' row hrow := by
    rcases hrow with hrow | hrow
    · rcases RecordRows.mem_stored.1 hrow with ⟨-, hrow⟩ | ⟨set, hset, hname, -⟩
      · rw [hr.columns_eq] at hrow
        obtain ⟨locale, hl, hrowOf⟩ := hr.rowOf_of_mem hrow
        exact ⟨_, locale, hr.locales_subset _ hl, hrowOf⟩
      · obtain ⟨l, hl, hlink⟩ := hr.exists_link hset
        exact absurd (hname.trans hlink.symm)
          (hfree.table_ne_link ht' (Schema.mem_linkTables ht hl))
    · exact (h.remove hfree ht r.sysId).rows t' ht' row hrow
  edges t' ht' l hl row hrow := by
    rcases hrow with hrow | hrow
    · rcases RecordRows.mem_stored.1 hrow with ⟨hname, -⟩ | ⟨set, hset, hname, hrow⟩
      · exact absurd (hname.trans hr.table_eq).symm
          (hfree.table_ne_link ht (Schema.mem_linkTables ht' hl))
      · obtain ⟨l', hl', hlink⟩ := hr.exists_link hset
        obtain rfl := hfree.owner_eq ht ht' hl' hl (hlink.trans hname.symm)
        obtain ⟨values, hv, rfl⟩ := List.mem_map.1 hrow
        obtain ⟨locale, hlocale, position, hedge⟩ := hr.edgeOf set hset values hv
        obtain ⟨owner, howner, hownerOf⟩ := hr.exists_rowOf hlocale
        refine ⟨_, locale, hr.locales_subset _ hlocale, position, hedge, owner, .inl ?_, hownerOf⟩
        rw [RecordRows.mem_stored, hr.table_eq, hr.columns_eq]
        exact .inl ⟨rfl, howner⟩
    · obtain ⟨s₁, locale, hlocale, position, hedge, owner, howner, hownerOf⟩ :=
        (h.remove hfree ht r.sysId).edges t' ht' l hl row hrow
      exact ⟨s₁, locale, hlocale, position, hedge, owner, .inr howner, hownerOf⟩

end Regular

end Contents

/-! ## Deleting a record -/

section
variable {s : Schema} {base n : Namespace} {codes : List String} {contents : Contents}

/-- A record's rows are removed from its table, and its edges with them. -/
theorem Mirror.deleteRecord (h : Mirror s base n contents) (hfree : s.CollisionFree)
    (hbase : s.Installed base) (hcodes : Naming.Apart codes)
    (hreg : contents.Regular s codes) {t : TableLayout} (ht : t ∈ s.allTables) (sysId : String) :
    ∃ n', n.deleteRows t.name (.textEq Column.sysId.text sysId) = .ok n' ∧
      Mirror s base n' (contents.remove t sysId) := by
  obtain ⟨n', hrun, h'⟩ := h.deleteRecords hfree hbase ht (.textEq Column.sysId.text sysId)
  refine ⟨n', hrun, h'.congr fun name _ row => ?_⟩
  have howned : name ∈ t.linkTables.map LinkTable.name → contents name row →
      (OwnedBy (contents t.name) (.textEq Column.sysId.text sysId) row ↔
        row.cell Column.ownerSysId = .text sysId) := by
    intro hname hrow
    obtain ⟨l, hl, rfl⟩ := List.mem_map.1 hname
    obtain ⟨s₁, locale, hlocale, position, hedge, owner, howner, hownerOf⟩ :=
      hreg.edges t ht l hl row hrow
    rw [hedge.ownerSysId, Value.text.injEq]
    constructor
    · rintro ⟨o, key, ho, hp, hid, hkey⟩
      obtain ⟨s₂, locale₂, hlocale₂, hrowOf⟩ := hreg.rows t ht o ho
      rw [Predicate.holds_textEq, hrowOf.sysId, Value.text.injEq] at hp
      exact (hedge.sysId_eq_of_owner hcodes hrowOf hlocale hlocale₂ hid hkey).trans hp
    · rintro rfl
      refine ⟨owner, _, howner, Predicate.holds_textEq.2 hownerOf.sysId, hownerOf.id, ?_⟩
      rw [hedge.ownerId]
      rfl
  unfold Contents.remove TableLayout.Owns
  rw [Bool.eq_false_iff, ne_eq, Predicate.holds_textEq]
  by_cases hrow : contents name row
  · by_cases hname : name ∈ t.linkTables.map LinkTable.name
    · have := howned hname hrow
      tauto
    · tauto
  · tauto

/-! ## Replacing edges -/

/-- The edges of one array of links take the place of those that the record had in its link
table. -/
theorem Mirror.edgeStatements (h : Mirror s base n contents) (hfree : s.CollisionFree)
    (hbase : s.Installed base) (ns : Ident) (sysId : String) {set : EdgeSet} {l : LinkTable}
    (hl : l ∈ s.linkTables) (hname : l.name = set.linkTable)
    (hfit : ∀ values ∈ set.rows, FitsColumns LinkTable.columns values)
    (hnodup : (set.rows.map fun values =>
      (Row.ofCells LinkTable.columns values).cell Column.id).Nodup)
    (hnew : ∀ row, contents set.linkTable row → row.cell Column.ownerSysId ≠ .text sysId →
      ∀ new ∈ set.rows.map (Row.ofCells LinkTable.columns),
        row.cell Column.id ≠ new.cell Column.id) :
    ∃ n', n.applyAll (Mapping.edgeStatements ns sysId set) = .ok n' ∧
      Mirror s base n' fun name row =>
        (name = set.linkTable ∧ row ∈ set.rows.map (Row.ofCells LinkTable.columns)) ∨
          contents name row ∧ (name = set.linkTable → row.cell Column.ownerSysId ≠ .text sysId) := by
  obtain ⟨n₁, hdelete, h₁⟩ :=
    h.deleteEdges hfree hbase hl (.textEq Column.ownerSysId.text sysId)
  rw [hname] at hdelete h₁
  have h₁ : Mirror s base n₁ fun name row => contents name row ∧
      (name = set.linkTable → row.cell Column.ownerSysId ≠ .text sysId) :=
    h₁.congr fun name _ row => by
      rw [Bool.eq_false_iff, ne_eq, Predicate.holds_textEq]
  unfold Mapping.edgeStatements
  cases hrows : set.rows with
  | nil =>
    refine ⟨n₁, Namespace.applyAll_cons.2 ⟨n₁, hdelete, rfl⟩, h₁.congr fun name _ row => ?_⟩
    simp
  | cons values rows =>
    rw [← hrows]
    have hx : (set.linkTable, LinkTable.columns) ∈ s.contentTables :=
      hname ▸ Schema.mem_contentTables_of_link hl
    obtain ⟨n', hinsert, h'⟩ := h₁.insert hfree ⟨ns, set.linkTable⟩ hx hfit hnodup
      fun row hrow new => hnew row hrow.1 (hrow.2 rfl) new
    refine ⟨n', Namespace.applyAll_cons.2 ⟨n₁, hdelete, ?_⟩, h'.congr fun name _ row => ?_⟩
    · rw [if_neg (by simp [hrows])]
      exact Namespace.applyAll_cons.2 ⟨n', hinsert, rfl⟩
    · by_cases hn : name = set.linkTable
      · subst hn
        rw [Function.update_self]
        tauto
      · rw [Function.update_of_ne hn]
        tauto

/-- The edges of all arrays of links take the place of those that the record had. -/
theorem Mirror.allEdgeStatements (hfree : s.CollisionFree) (hbase : s.Installed base) (ns : Ident)
    (sysId : String) :
    ∀ {sets : List EdgeSet} {n : Namespace} {contents : Contents}, Mirror s base n contents →
      (sets.map EdgeSet.linkTable).Nodup →
      (∀ set ∈ sets, (∃ l ∈ s.linkTables, l.name = set.linkTable) ∧
        (∀ values ∈ set.rows, FitsColumns LinkTable.columns values) ∧
        (set.rows.map fun values =>
          (Row.ofCells LinkTable.columns values).cell Column.id).Nodup ∧
        ∀ row, contents set.linkTable row → row.cell Column.ownerSysId ≠ .text sysId →
          ∀ new ∈ set.rows.map (Row.ofCells LinkTable.columns),
            row.cell Column.id ≠ new.cell Column.id) →
      ∃ n', n.applyAll (sets.flatMap (Mapping.edgeStatements ns sysId)) = .ok n' ∧
        Mirror s base n' fun name row =>
          (∃ set ∈ sets, name = set.linkTable ∧
            row ∈ set.rows.map (Row.ofCells LinkTable.columns)) ∨
          contents name row ∧
            (name ∈ sets.map EdgeSet.linkTable → row.cell Column.ownerSysId ≠ .text sysId) := by
  intro sets
  induction sets with
  | nil => exact fun h _ _ => ⟨_, rfl, h.congr fun _ _ _ => by simp⟩
  | cons set sets ih =>
    intro n contents h hnodup hsets
    rw [List.map_cons, List.nodup_cons] at hnodup
    obtain ⟨hset, hnodup⟩ := hnodup
    obtain ⟨⟨l, hl, hname⟩, hfit, hids, hnew⟩ := hsets set (List.mem_cons_self ..)
    obtain ⟨n₁, hfirst, h₁⟩ := h.edgeStatements hfree hbase ns sysId hl hname hfit hids hnew
    have hne : ∀ set' ∈ sets, set'.linkTable ≠ set.linkTable := fun set' hs he =>
      hset (he ▸ List.mem_map_of_mem hs)
    obtain ⟨n', hrest, h'⟩ := ih h₁ hnodup fun set' hs => by
      obtain ⟨hl, hfit, hids, hnew⟩ := hsets set' (List.mem_cons_of_mem _ hs)
      refine ⟨hl, hfit, hids, fun row hrow => hnew row ?_⟩
      rcases hrow with ⟨he, -⟩ | ⟨hrow, -⟩
      · exact absurd he (hne set' hs)
      · exact hrow
    refine ⟨n', ?_, h'.congr fun name _ row => ?_⟩
    · rw [List.flatMap_cons]
      exact Namespace.applyAll_append.2 ⟨n₁, hfirst, hrest⟩
    · rw [List.map_cons, List.mem_cons]
      constructor
      · rintro (⟨set', hs, hrow⟩ | ⟨⟨hn, hrow⟩ | ⟨hrow, hn⟩, hall⟩)
        · exact .inl ⟨set', List.mem_cons_of_mem _ hs, hrow⟩
        · exact .inl ⟨set, List.mem_cons_self .., hn, hrow⟩
        · exact .inr ⟨hrow, fun h => h.elim hn hall⟩
      · rintro (⟨set', hs, hn, hrow⟩ | ⟨hrow, hall⟩)
        · rcases List.mem_cons.1 hs with rfl | hs
          · exact .inr ⟨.inl ⟨hn, hrow⟩, fun hm => absurd (hn ▸ hm) hset⟩
          · exact .inl ⟨set', hs, hn, hrow⟩
        · exact .inr ⟨.inr ⟨hrow, fun hn => hall (.inl hn)⟩, fun hm => hall (.inr hm)⟩

/-! ## Bringing a record up to date -/

/-- The rows of a record are the new ones once rows in locales that it no longer has are gone. -/
theorem Mirror.upsertRecord (h : Mirror s base n contents) (hfree : s.CollisionFree)
    (hbase : s.Installed base) (hcodes : Naming.Apart codes)
    (hreg : contents.Regular s codes) {t : TableLayout} (ht : t ∈ s.allTables) {r : RecordRows}
    (hr : r.Describes t codes) :
    ∃ n₁ n', n.upsert t.name t.columns r.rows Column.id = .ok n₁ ∧
      n₁.deleteRows t.name (.and [.textEq Column.sysId.text r.sysId,
        .noneOf ⟨Column.locale, .text⟩ (r.locales.map .text)]) = .ok n' ∧
      ∃ contents', Mirror s base n' contents' ∧
        (∀ row, contents' t.name row ↔ row ∈ r.rows.map (Row.ofCells t.columns) ∨
          contents t.name row ∧ row.cell Column.sysId ≠ .text r.sysId) ∧
        ∀ name ≠ t.name, ∀ row, (contents' name row → contents name row) ∧
          (contents name row → (name ∈ t.linkTables.map LinkTable.name →
            row.cell Column.ownerSysId ≠ .text r.sysId) → contents' name row) := by
  obtain ⟨n₁, hupsert, h₁⟩ :=
    h.upsert hfree (Schema.mem_contentTables_of_table ht) hr.rows_fit hr.rows_nodup
  obtain ⟨n', hdelete, h'⟩ := h₁.deleteRecords hfree hbase ht
    (.and [.textEq Column.sysId.text r.sysId,
      .noneOf ⟨Column.locale, .text⟩ (r.locales.map .text)])
  refine ⟨n₁, n', hupsert, hdelete, _, h', fun row => ?_, fun name hname row => ?_⟩
  · have hlink := hfree.name_notMem_links ht
    rw [Function.update_self]
    constructor
    · rintro ⟨hrow | ⟨hrow, hids⟩, hp, -⟩
      · exact .inl hrow
      · obtain ⟨sysId, locale, -, hrowOf⟩ := hreg.rows t ht row hrow
        refine .inr ⟨hrow, fun he => Bool.eq_false_iff.1 (hp rfl) ?_⟩
        rw [hrowOf.sysId, Value.text.injEq] at he
        refine (Predicate.holds_stale hrowOf).2 ⟨he, fun hl => ?_⟩
        obtain ⟨new, hnew, hnewOf⟩ := hr.exists_rowOf hl
        refine hids new hnew ?_
        rw [hrowOf.id, hnewOf.id, he]
    · rintro (hrow | ⟨hrow, hne⟩)
      · obtain ⟨locale, hl, hrowOf⟩ := hr.rowOf_of_mem hrow
        refine ⟨.inl hrow, fun _ => Bool.eq_false_iff.2 fun hp => ?_, fun hm => absurd hm hlink⟩
        exact ((Predicate.holds_stale hrowOf).1 hp).2 hl
      · obtain ⟨sysId, locale, hl, hrowOf⟩ := hreg.rows t ht row hrow
        rw [hrowOf.sysId, ne_eq, Value.text.injEq] at hne
        refine ⟨.inr ⟨hrow, fun new hnew hid => hne ?_⟩, fun _ => Bool.eq_false_iff.2 fun hp => ?_,
          fun hm => absurd hm hlink⟩
        · obtain ⟨locale', hl', hnewOf⟩ := hr.rowOf_of_mem hnew
          exact (hrowOf.inj hcodes hnewOf hl (hr.locales_subset _ hl') hid).1
        · exact hne ((Predicate.holds_stale hrowOf).1 hp).1
  · rw [Function.update_of_ne hname, Function.update_self]
    refine ⟨fun hrow => hrow.1, fun hrow hedge => ⟨hrow, fun he => absurd he hname, ?_⟩⟩
    rintro hm ⟨owner, key, howner, hp, hid, hkey⟩
    obtain ⟨l, hl, rfl⟩ := List.mem_map.1 hm
    obtain ⟨sysId, locale, hlocale, position, hedgeOf, -⟩ := hreg.edges t ht l hl row hrow
    have hownerOf : ∃ sysId, ∃ locale ∈ codes, RowOf sysId locale owner := by
      rcases howner with howner | ⟨howner, -⟩
      · obtain ⟨locale, hl, hrowOf⟩ := hr.rowOf_of_mem howner
        exact ⟨_, locale, hr.locales_subset _ hl, hrowOf⟩
      · exact hreg.rows t ht owner howner
    obtain ⟨sysId', locale', hlocale', hrowOf⟩ := hownerOf
    have hsys := ((Predicate.holds_stale hrowOf).1 hp).1
    have howns := hedgeOf.sysId_eq_of_owner hcodes hrowOf hlocale hlocale' hid hkey
    refine hedge hm ?_
    rw [hedgeOf.ownerSysId, howns, hsys]

/-- A record brought up to date: its rows and edges stand in place of all that it had. -/
theorem Mirror.recordStatements (h : Mirror s base n contents) (hfree : s.CollisionFree)
    (hbase : s.Installed base) (hcodes : Naming.Apart codes)
    (hreg : contents.Regular s codes) (ns : Ident) {t : TableLayout} (ht : t ∈ s.allTables)
    {r : RecordRows} (hr : r.Describes t codes) :
    ∃ n', n.applyAll (Mapping.recordStatements ns r) = .ok n' ∧
      Mirror s base n' (contents.put t r) := by
  obtain ⟨n₁, n₂, hupsert, hdelete, contents', h₂, htable, hothers⟩ :=
    h.upsertRecord hfree hbase hcodes hreg ht hr
  have hnodup : (r.edges.map EdgeSet.linkTable).Nodup :=
    hr.links_eq ▸ hfree.nodup_linkTables_of_table ht
  obtain ⟨n', hedges, h'⟩ := h₂.allEdgeStatements hfree hbase ns r.sysId hnodup fun set hset => by
    obtain ⟨l, hl, hname⟩ := hr.exists_link hset
    refine ⟨⟨l, Schema.mem_linkTables ht hl, hname⟩, hr.edges_fit set hset,
      hr.edges_nodup set hset, fun row hrow hsys new hnew hid => hsys ?_⟩
    have hne : set.linkTable ≠ t.name := fun he =>
      hfree.name_notMem_links ht (he ▸ hname ▸ List.mem_map_of_mem hl)
    obtain ⟨sysId, locale, hlocale, position, hedge, -⟩ :=
      hreg.edges t ht l hl row (hname ▸ (hothers _ hne row).1 hrow)
    obtain ⟨values, hv, rfl⟩ := List.mem_map.1 hnew
    obtain ⟨locale', hl', position', hedge'⟩ := hr.edgeOf set hset values hv
    have howner := (hedge.owner_inj hedge' hid).1
    rw [hedge.ownerSysId,
      (hcodes.rowId_inj hlocale (hr.locales_subset _ hl') howner).1]
  refine ⟨n', ?_, h'.congr fun name _ row => ?_⟩
  · unfold Mapping.recordStatements
    refine Namespace.applyAll_append.2 ⟨n₂, Namespace.applyAll_cons.2 ⟨n₁, ?_, ?_⟩, hedges⟩
    · rw [hr.table_eq, hr.columns_eq]
      exact hupsert
    · rw [hr.table_eq]
      exact Namespace.applyAll_cons.2 ⟨n₂, hdelete, rfl⟩
  · unfold Contents.put Contents.remove TableLayout.Owns
    rw [RecordRows.mem_stored, hr.links_eq, hr.table_eq, hr.columns_eq]
    by_cases hname : name = t.name
    · subst hname
      have hlink := hfree.name_notMem_links ht
      rw [htable row]
      simp only [hlink, true_and, false_imp_iff, and_true, false_and, or_false, ne_eq]
      rw [← or_assoc, or_comm (a := ∃ set ∈ r.edges, _)]
    · constructor
      · rintro (hedge | ⟨hrow, hsys⟩)
        · exact .inl (.inr hedge)
        · refine .inr ⟨(hothers name hname row).1 hrow, ?_⟩
          rintro (⟨he, -⟩ | ⟨hm, he⟩)
          · exact hname he
          · exact hsys hm he
      · rintro ((⟨he, -⟩ | hedge) | ⟨hrow, hnot⟩)
        · exact absurd he hname
        · exact .inl hedge
        · have hsys : name ∈ t.linkTables.map LinkTable.name →
              row.cell Column.ownerSysId ≠ .text r.sysId := fun hm he => hnot (.inr ⟨hm, he⟩)
          exact .inr ⟨(hothers name hname row).2 hrow hsys, hsys⟩

end

end ContentReplica
