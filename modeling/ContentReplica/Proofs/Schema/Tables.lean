import ContentReplica.Proofs.Store.Table
import ContentReplica.Schema.Compiler
import Mathlib.Data.List.Nodup

/-!
# The tables of a compiled schema

`Schema.CollisionFree` says that no two tables of a replica share a name, and `Schema.Compiled` that a
schema is what the compilation of content types gave. The columns of fields keep clear of
those that describe a record (`Compiled.column_not_reserved`), so a row has its identity, its
record and its locale where they are looked for.
-/

namespace ContentReplica

/-! ## Names -/

/-- A field never takes a column that describes the record. -/
theorem Naming.column_not_reserved (fieldId : String) :
    Naming.column fieldId ∉ Column.reserved := by
  unfold Naming.column
  dsimp only
  split
  · next h =>
    have : ∀ name ∈ Column.reserved,
        Ident.sanitize ("field_" ++ name.text) ∉ Column.reserved := by decide +kernel
    exact this _ (List.contains_iff_mem.1 h)
  · next h => exact fun hm => h (List.contains_iff_mem.2 hm)

namespace Schema

/-- The tables that hold content, each with its columns: those of content types and of assets, and
the link tables. -/
def contentTables (s : Schema) : List (Ident × List ColumnDef) :=
  s.allTables.map (fun t => (t.name, t.columns))
    ++ s.linkTables.map fun l => (l.name, LinkTable.columns)

/-- The names of all tables of a replica: of content types, of assets, the link tables, the table
of locales and the table of the sync token. -/
def tableNames (s : Schema) : List Ident :=
  s.contentTables.map Prod.fst ++ [localesTable, syncTokenTable]

/-- No two tables of a replica share a name. -/
def CollisionFree (s : Schema) : Prop := s.tableNames.Nodup

instance (s : Schema) : Decidable s.CollisionFree := inferInstanceAs (Decidable (List.Nodup _))

/-- A schema to which content types were compiled: all of them, or those of one identity. -/
inductive Compiled (s : Schema) : Prop where
  | all (types : List ContentType) (h : s = compile types)
  | one (types : List ContentType) (id : String) (h : compileOne? types id = .ok s)

/-- The table of a content type is one of the tables. -/
theorem entryTable?_eq_some {s : Schema} {contentType : String} {t : TableLayout}
    (h : s.entryTable? contentType = some t) : t ∈ s.tables ∧ t.contentType = contentType :=
  ⟨List.mem_of_find?_eq_some h, by simpa using List.find?_some h⟩

/-! ## Compiled tables -/

/-- Each table of a compiled schema is the layout of a content type. -/
theorem Compiled.layout {s : Schema} (h : s.Compiled) :
    ∀ t ∈ s.tables, ∃ known c, t = layoutType known c := by
  intro t ht
  cases h with
  | all types h =>
    rw [h] at ht
    obtain ⟨c, -, rfl⟩ := List.mem_map.1 ht
    exact ⟨_, c, rfl⟩
  | one types id h =>
    unfold compileOne? at h
    split at h
    · cases h
    · dsimp only at h
      split at h
      · cases h
      · cases h
        obtain ⟨c, -, rfl⟩ := List.mem_map.1 ht
        exact ⟨_, c, rfl⟩

/-- The columns of fields are not among those that describe a record. -/
theorem Compiled.column_not_reserved {s : Schema} (h : s.Compiled) :
    ∀ t ∈ s.allTables, ∀ f ∈ t.fields, f.column ∉ Column.reserved := by
  intro t ht f hf
  rcases List.mem_append.1 ht with ht | ht
  · obtain ⟨known, c, rfl⟩ := h.layout t ht
    obtain ⟨g, -, hg⟩ := List.mem_filterMap.1 hf
    unfold layoutField? at hg
    split at hg
    · cases hg
    · cases hg
      dsimp only
      exact Naming.column_not_reserved g.id
  · rw [List.mem_singleton.1 ht] at hf
    obtain ⟨g, -, rfl⟩ := List.mem_map.1 hf
    dsimp only
    exact Naming.column_not_reserved g.id

/-! ## Content tables -/

section
variable {s : Schema}

/-- The table of a content type or of assets holds content. -/
theorem mem_contentTables_of_table {t : TableLayout} (h : t ∈ s.allTables) :
    (t.name, t.columns) ∈ s.contentTables :=
  List.mem_append_left _ (List.mem_map_of_mem h)

/-- A link table holds content. -/
theorem mem_contentTables_of_link {l : LinkTable} (h : l ∈ s.linkTables) :
    (l.name, LinkTable.columns) ∈ s.contentTables :=
  List.mem_append_right _ (List.mem_map_of_mem h)

/-- The link tables of a table are link tables of the schema; that of assets has none. -/
theorem mem_linkTables {t : TableLayout} {l : LinkTable} (ht : t ∈ s.allTables)
    (hl : l ∈ t.linkTables) : l ∈ s.linkTables := by
  rcases List.mem_append.1 ht with ht | ht
  · exact List.mem_flatMap.2 ⟨t, ht, hl⟩
  · rw [List.mem_singleton.1 ht] at hl
    cases hl

namespace CollisionFree

/-- The names of the tables that hold content differ. -/
theorem nodup_contentTables (h : s.CollisionFree) : (s.contentTables.map Prod.fst).Nodup :=
  (List.nodup_append.1 h).1

/-- The name of a table that holds content settles its columns. -/
theorem columns_eq (h : s.CollisionFree) {name : Ident} {columns columns' : List ColumnDef}
    (hx : (name, columns) ∈ s.contentTables) (hy : (name, columns') ∈ s.contentTables) :
    columns = columns' :=
  congrArg Prod.snd (List.inj_on_of_nodup_map h.nodup_contentTables hx hy rfl)

/-- The tables of content types and of assets have names of their own. -/
theorem nodup_allTables (h : s.CollisionFree) : (s.allTables.map TableLayout.name).Nodup := by
  have := h.nodup_contentTables
  rw [contentTables, List.map_append, List.nodup_append] at this
  rw [List.map_map] at this
  exact this.1

/-- Two tables of one name are the same table. -/
theorem table_eq (h : s.CollisionFree) {t t' : TableLayout} (ht : t ∈ s.allTables)
    (ht' : t' ∈ s.allTables) (hname : t.name = t'.name) : t = t' :=
  List.inj_on_of_nodup_map h.nodup_allTables ht ht' hname

/-- No table of a content type or of assets has the name of a link table. -/
theorem table_ne_link (h : s.CollisionFree) {t : TableLayout} {l : LinkTable}
    (ht : t ∈ s.allTables) (hl : l ∈ s.linkTables) : t.name ≠ l.name := by
  have := h.nodup_contentTables
  rw [contentTables, List.map_append, List.nodup_append] at this
  exact this.2.2 _ (List.mem_map.2 ⟨_, List.mem_map_of_mem ht, rfl⟩) _
    (List.mem_map.2 ⟨_, List.mem_map_of_mem hl, rfl⟩)

/-- The names of all link tables differ. -/
theorem nodup_linkTables (h : s.CollisionFree) : (s.linkTables.map LinkTable.name).Nodup := by
  have := h.nodup_contentTables
  rw [contentTables, List.map_append, List.nodup_append] at this
  rw [List.map_map, List.map_map] at this
  exact this.2.1

/-- The names of the link tables of one table differ. -/
theorem nodup_linkTables_of_table (h : s.CollisionFree) {t : TableLayout} (ht : t ∈ s.allTables) :
    (t.linkTables.map LinkTable.name).Nodup := by
  rcases List.mem_append.1 ht with ht | ht
  · have hsublist : t.linkTables.Sublist s.linkTables :=
      List.sublist_flatten_of_mem (List.mem_map_of_mem ht)
    exact h.nodup_linkTables.sublist (hsublist.map LinkTable.name)
  · rw [List.mem_singleton.1 ht]
    exact List.nodup_nil

/-- The table of a content type or of assets is none of its own link tables. -/
theorem name_notMem_links (h : s.CollisionFree) {t : TableLayout} (ht : t ∈ s.allTables) :
    t.name ∉ t.linkTables.map LinkTable.name := by
  intro hm
  obtain ⟨l, hl, he⟩ := List.mem_map.1 hm
  exact h.table_ne_link ht (mem_linkTables ht hl) he.symm

/-- A link table belongs to one table. -/
theorem owner_eq (h : s.CollisionFree) {t t' : TableLayout} (ht : t ∈ s.allTables)
    (ht' : t' ∈ s.allTables) {l l' : LinkTable} (hl : l ∈ t.linkTables) (hl' : l' ∈ t'.linkTables)
    (hname : l.name = l'.name) : t = t' := by
  have hlink : l = l' := List.inj_on_of_nodup_map h.nodup_linkTables (mem_linkTables ht hl)
    (mem_linkTables ht' hl') hname
  have howner : ∀ {t : TableLayout} {l : LinkTable}, l ∈ t.linkTables → l.ownerTable = t.name := by
    intro t l hl
    obtain ⟨f, -, hf⟩ := List.mem_filterMap.1 hl
    unfold TableLayout.linkTable? at hf
    split at hf
    · cases hf
      rfl
    · cases hf
  exact h.table_eq ht ht' ((howner hl).symm.trans (hlink ▸ howner hl'))

/-- The table of the sync token holds no content. -/
theorem token_notMem (h : s.CollisionFree) : syncTokenTable ∉ s.contentTables.map Prod.fst :=
  fun hm => (List.nodup_append.1 h).2.2 _ hm _ (by simp) rfl

/-- The table of locales holds no content. -/
theorem locales_notMem (h : s.CollisionFree) : localesTable ∉ s.contentTables.map Prod.fst :=
  fun hm => (List.nodup_append.1 h).2.2 _ hm _ (by simp) rfl

end CollisionFree

end

end Schema

/-! ## Columns -/

/-- The tables of records are keyed by identity. -/
theorem TableLayout.keyedById (t : TableLayout) : KeyedById t.columns := rfl

/-- The link tables are keyed by identity. -/
theorem LinkTable.keyedById : KeyedById LinkTable.columns := rfl

/-- Every table that holds content is keyed by identity. -/
theorem Schema.keyedById {s : Schema} {name : Ident} {columns : List ColumnDef}
    (h : (name, columns) ∈ s.contentTables) : KeyedById columns := by
  rcases List.mem_append.1 h with h | h
  · obtain ⟨t, -, he⟩ := List.mem_map.1 h
    cases he
    exact t.keyedById
  · obtain ⟨l, -, he⟩ := List.mem_map.1 h
    cases he
    exact LinkTable.keyedById

end ContentReplica
