import ContentReplica.Proofs.Schema.Sift
import Mathlib.Data.List.Flatten

/-!
# The names of a compiled schema

A compilation gives each content type a table of its own, other than that of assets, and each field a
column of its own. It does not look for the other clashes: `Schema.FaithfulNames` says that the names
of link tables and indexes tell these apart and that no table of a content type has the name of a link
table or of a table beside the content. Then no two tables of a compiled schema share a name
(`FaithfulNames.collisionFree`), and no two indexes do (`FaithfulNames.nodup_indexNames`).
-/

namespace ContentReplica

/-! ## Link tables -/

/-- The name of a link table begins with a letter, unlike those of the tables of assets, of locales and
of the sync token. -/
theorem Naming.head?_linkTable (table column : Ident) :
    (Naming.linkTable table column).text.toList.head? = some 'c' := by
  obtain ⟨rest, hrest⟩ :
      ∃ rest, ("con_" ++ table.text ++ "_" ++ column.text).toList = 'c' :: rest :=
    ⟨'o' :: 'n' :: '_' :: (table.text.toList ++ "_".toList ++ column.text.toList), by
      simp [String.toList_append]⟩
  have hsnake : Ident.snake false false ('c' :: rest) = 'c' :: Ident.snake true false rest := by
    rw [Ident.snake, if_neg (by decide), if_pos (by decide)]
  have hnamed (cs : List Char) : Ident.afterDigit (Ident.named ('c' :: cs)) = 'c' :: cs := by
    unfold Ident.named
    rw [if_neg (by simp)]
    rfl
  unfold linkTable Ident.sanitize
  rw [hrest, hsnake, hnamed, String.toList_ofList]
  unfold Ident.shortened
  split <;> rfl

namespace TableLayout

variable {t : TableLayout} {f : FieldLayout} {l : LinkTable}

/-- The link table of a field names it. -/
theorem fieldId_of_linkTable? (h : t.linkTable? f = some l) : l.fieldId = f.fieldId := by
  unfold linkTable? at h
  split at h
  · obtain rfl := Option.some.inj h
    rfl
  · cases h

/-- A link table names the table that owns it. -/
theorem ownerTable_of_mem (h : l ∈ t.linkTables) : l.ownerTable = t.name := by
  obtain ⟨f, -, hl⟩ := List.mem_filterMap.1 h
  unfold linkTable? at hl
  split at hl
  · obtain rfl := Option.some.inj hl
    rfl
  · cases hl

end TableLayout

namespace Schema

variable {s : Schema}

/-- The content types of a compiled schema have tables of their own. -/
theorem Compiled.nodup_names (h : s.Compiled) : (s.tables.map TableLayout.name).Nodup := by
  obtain ⟨types, p, htables⟩ := h.exists_sift
  have hnames : s.tables.map TableLayout.name
      = ((sift [] types).1.filter p).map fun c => Naming.table c.id := by
    rw [htables, List.map_map]
    rfl
  rw [hnames]
  exact nodup_sift.1.sublist (List.filter_sublist.map _)

/-- None of these is the table of assets. -/
theorem Compiled.name_ne_assets (h : s.Compiled) : ∀ t ∈ s.tables, t.name ≠ Naming.assetsTable := by
  intro t ht
  obtain ⟨known, c, hc, rfl⟩ := h.checked t ht
  exact table_ne_assets hc

/-- The link tables of a compiled schema are named for a table and a column. -/
theorem Compiled.exists_linkTable_name (h : s.Compiled) :
    ∀ l ∈ s.linkTables, ∃ table column, l.name = Naming.linkTable table column := by
  intro l hl
  obtain ⟨t, ht, hl⟩ := List.mem_flatMap.1 hl
  obtain ⟨f, hf, hlink⟩ := List.mem_filterMap.1 hl
  obtain ⟨known, c, -, rfl⟩ := h.checked t ht
  obtain ⟨g, -, hg⟩ := List.mem_filterMap.1 hf
  unfold layoutField? at hg
  split at hg
  · cases hg
  · next shape _ =>
    obtain rfl := Option.some.inj hg
    cases shape with
    | links scope =>
      obtain rfl := Option.some.inj hlink
      exact ⟨_, _, rfl⟩
    | scalar kind | scalars kind | link scope => cases hlink

/-- The link tables of a compiled schema differ, in their owner or in the field they are for. -/
theorem Compiled.nodup_linkTables (h : s.Compiled) : s.linkTables.Nodup := by
  refine List.nodup_flatMap.2 ⟨fun t ht => ?_, ?_⟩
  · have hsublist : (t.linkTables.map LinkTable.fieldId).Sublist
        (t.fields.map FieldLayout.fieldId) :=
      map_filterMap_sublist (fun _ _ => TableLayout.fieldId_of_linkTable?) t.fields
    exact ((h.nodup_fieldIds (List.mem_append_left _ ht)).sublist hsublist).of_map _
  · refine (List.pairwise_map.1 h.nodup_names).imp fun {t t'} hne l hl hl' => hne ?_
    rw [← TableLayout.ownerTable_of_mem hl, ← TableLayout.ownerTable_of_mem hl']

end Schema

/-! ## Indexes -/

/-- The indexes of a link table. -/
def LinkTable.indexes (l : LinkTable) : List IndexLayout :=
  [Column.ownerId, Column.ownerSysId, Column.targetSysId].map fun column =>
    .on l.name [column] false

/-- The indexes of a link table differ in their columns. -/
theorem LinkTable.nodup_indexes (l : LinkTable) : l.indexes.Nodup := by
  have hcolumns : (l.indexes.map IndexLayout.columns).Nodup :=
    show [[Column.ownerId], [Column.ownerSysId], [Column.targetSysId]].Nodup by decide
  exact hcolumns.of_map _

namespace TableLayout

variable {t : TableLayout} {f : FieldLayout} {i : IndexLayout}

/-- An index that a field brings is on its column first. -/
theorem head?_columns_of_fieldIndexes (h : i ∈ t.fieldIndexes f) :
    i.columns.head? = some f.column := by
  have hunique (h : i ∈ if f.unique then [IndexLayout.on t.name [f.column, Column.locale] false]
      else []) : i.columns.head? = some f.column := by
    split at h
    · rw [List.mem_singleton.1 h]
      rfl
    · cases h
  unfold fieldIndexes at h
  dsimp only at h
  split at h
  · exact hunique h
  · rcases List.mem_cons.1 h with rfl | h
    · rfl
    · exact hunique h
  · cases h

/-- The indexes that a field brings differ in their columns. -/
theorem nodup_fieldIndexes (t : TableLayout) (f : FieldLayout) : (t.fieldIndexes f).Nodup := by
  unfold fieldIndexes
  dsimp only
  split
  · split
    · exact List.nodup_singleton _
    · exact List.nodup_nil
  · split
    · refine List.nodup_cons.2 ⟨fun hm => ?_, List.nodup_singleton _⟩
      have hcolumns := congrArg IndexLayout.columns (List.mem_singleton.1 hm)
      cases hcolumns
    · exact List.nodup_singleton _
  · exact List.nodup_nil

/-- The indexes of a table whose fields have columns of their own differ. -/
theorem nodup_indexes (hnodup : (t.fields.map FieldLayout.column).Nodup)
    (hreserved : ∀ f ∈ t.fields, f.column ∉ Column.reserved) : t.indexes.Nodup := by
  refine List.nodup_append.2 ⟨?_, List.nodup_flatMap.2 ⟨fun f _ => t.nodup_fieldIndexes f, ?_⟩, ?_⟩
  · have hcolumns : [[Column.sysId, Column.locale], [Column.sysId]].Nodup := by decide
    exact List.Nodup.of_map IndexLayout.columns hcolumns
  · refine (List.pairwise_map.1 hnodup).imp fun {f g} hne i hi hi' => hne ?_
    exact Option.some.inj ((head?_columns_of_fieldIndexes hi).symm.trans
      (head?_columns_of_fieldIndexes hi'))
  · -- The first column of a system index is reserved.
    rintro i hi j hj rfl
    obtain ⟨f, hf, hj⟩ := List.mem_flatMap.1 hj
    have hhead : i.columns.head? = some Column.sysId := by
      rcases List.mem_cons.1 hi with rfl | hi
      · rfl
      · rw [List.mem_singleton.1 hi]
        rfl
    have hcolumn := Option.some.inj (hhead.symm.trans (head?_columns_of_fieldIndexes hj))
    exact hreserved f hf (hcolumn ▸ by decide)

end TableLayout

namespace Schema

variable {s : Schema}

/-- The indexes of a schema, each with the name of its table. -/
def indexes (s : Schema) : List (Ident × IndexLayout) :=
  s.allTables.flatMap (fun t => t.indexes.map fun i => (t.name, i))
    ++ s.linkTables.flatMap fun l => l.indexes.map fun i => (l.name, i)

/-- The names of all indexes. -/
def indexNames (s : Schema) : List Ident := s.indexes.map fun i => i.2.name

/-- The indexes of a compiled schema differ, in their table or in their columns. -/
theorem Compiled.nodup_indexes (h : s.Compiled) (hfree : s.CollisionFree) : s.indexes.Nodup := by
  have hpairs {name : Ident} {indexes : List IndexLayout} (hnodup : indexes.Nodup) :
      (indexes.map fun i => (name, i)).Nodup := by
    refine List.Nodup.of_map Prod.snd ?_
    rwa [List.map_map, show (Prod.snd ∘ fun i => (name, i)) = @id IndexLayout from rfl, List.map_id]
  have hnames {name name' : Ident} {indexes indexes' : List IndexLayout} (hne : name ≠ name') :
      (indexes.map fun i => (name, i)).Disjoint (indexes'.map fun i => (name', i)) := by
    intro p hp hp'
    obtain ⟨i, -, rfl⟩ := List.mem_map.1 hp
    obtain ⟨j, -, he⟩ := List.mem_map.1 hp'
    exact hne (congrArg Prod.fst he).symm
  refine List.nodup_append'.2 ⟨List.nodup_flatMap.2 ⟨fun t ht => hpairs ?_, ?_⟩,
    List.nodup_flatMap.2 ⟨fun l _ => hpairs l.nodup_indexes, ?_⟩, ?_⟩
  · exact t.nodup_indexes (h.nodup_columns t ht) (h.column_not_reserved t ht)
  · exact (List.pairwise_map.1 hfree.nodup_allTables).imp fun {t t'} => hnames
  · exact (List.pairwise_map.1 hfree.nodup_linkTables).imp fun {l l'} => hnames
  · intro p hp hp'
    obtain ⟨t, ht, hp⟩ := List.mem_flatMap.1 hp
    obtain ⟨l, hl, hp'⟩ := List.mem_flatMap.1 hp'
    exact hnames (hfree.table_ne_link ht hl) hp hp'

/-! ## Faithful names -/

/-- The names of link tables and indexes tell these apart, and those of the tables of content types
tell them apart from link tables and from the tables beside the content. -/
structure FaithfulNames (s : Schema) : Prop where
  locales : ∀ t ∈ s.tables, t.name ≠ localesTable
  token : ∀ t ∈ s.tables, t.name ≠ syncTokenTable
  tables : ∀ t ∈ s.tables, ∀ l ∈ s.linkTables, t.name ≠ l.name
  links : ∀ l ∈ s.linkTables, ∀ l' ∈ s.linkTables, l.name = l'.name → l = l'
  indexes : ∀ i ∈ s.indexes, ∀ j ∈ s.indexes, i.2.name = j.2.name → i = j

namespace FaithfulNames

/-- No two tables of a compiled schema with faithful names share a name. -/
theorem collisionFree (hnames : s.FaithfulNames) (h : s.Compiled) : s.CollisionFree := by
  have hlink {l : LinkTable} (hl : l ∈ s.linkTables) {name : Ident}
      (hname : name.text.toList.head? = some '_') : name ≠ l.name := by
    rintro rfl
    obtain ⟨table, column, he⟩ := h.exists_linkTable_name l hl
    rw [he, Naming.head?_linkTable] at hname
    cases hname
  have hcontent : s.contentTables.map Prod.fst
      = (s.tables.map TableLayout.name ++ [Naming.assetsTable])
        ++ s.linkTables.map LinkTable.name := by
    unfold contentTables allTables
    simp only [List.map_append, List.map_map]
    rfl
  unfold CollisionFree tableNames
  rw [hcontent]
  refine List.nodup_append.2 ⟨List.nodup_append.2 ⟨List.nodup_append.2 ⟨h.nodup_names,
    List.nodup_singleton _, ?_⟩, ?_, ?_⟩, by decide, ?_⟩
  · intro name hname name' hname'
    obtain ⟨t, ht, rfl⟩ := List.mem_map.1 hname
    rw [List.mem_singleton.1 hname']
    exact h.name_ne_assets t ht
  · exact h.nodup_linkTables.map_on hnames.links
  · intro name hname name' hname'
    obtain ⟨l, hl, rfl⟩ := List.mem_map.1 hname'
    rcases List.mem_append.1 hname with hname | hname
    · obtain ⟨t, ht, rfl⟩ := List.mem_map.1 hname
      exact hnames.tables t ht l hl
    · rw [List.mem_singleton.1 hname]
      exact hlink hl (by decide)
  · intro name hname name' hname'
    have hbeside : name' = localesTable ∨ name' = syncTokenTable := by simpa using hname'
    rcases List.mem_append.1 hname with hname | hname
    · rcases List.mem_append.1 hname with hname | hname
      · obtain ⟨t, ht, rfl⟩ := List.mem_map.1 hname
        rcases hbeside with rfl | rfl
        · exact hnames.locales t ht
        · exact hnames.token t ht
      · rw [List.mem_singleton.1 hname]
        rcases hbeside with rfl | rfl <;> decide
    · obtain ⟨l, hl, rfl⟩ := List.mem_map.1 hname
      rcases hbeside with rfl | rfl
      · exact (hlink hl (by decide)).symm
      · exact (hlink hl (by decide)).symm

/-- No two indexes of a compiled schema with faithful names share a name. -/
theorem nodup_indexNames (hnames : s.FaithfulNames) (h : s.Compiled) : s.indexNames.Nodup :=
  (h.nodup_indexes (hnames.collisionFree h)).map_on hnames.indexes

end FaithfulNames

end Schema

end ContentReplica
