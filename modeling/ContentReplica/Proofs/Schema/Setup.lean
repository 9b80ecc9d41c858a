import ContentReplica.Proofs.Store.Contents
import ContentReplica.Proofs.Store.Frame
import ContentReplica.Schema.Ddl
import Mathlib.Data.List.Perm.Basic

/-!
# Setting up a schema

The statements of `Schema.ddl` set up a schema in a namespace that does not exist yet, if no two
tables share a name: all of them are applied, and the tables stand empty with their triggers
(`Schema.applyAll_ddl`).

While the statements run, `Namespace.SetUp` tells the tables that stand so far and the triggers.
-/

namespace ContentReplica

/-- The tables of the namespace are new ones with the given names and columns; the triggers are the
given ones. -/
structure Namespace.SetUp (n : Namespace) (tables : List (Ident × List ColumnDef))
    (triggers : SortedMap Ident (List Ident)) : Prop where
  get?_iff : ∀ name t, n.tables.get? name = some t ↔
    ∃ columns, (name, columns) ∈ tables ∧ t = Table.new columns
  triggers_eq : n.triggers = triggers

namespace Namespace.SetUp

variable {n : Namespace} {tables : List (Ident × List ColumnDef)}
  {triggers : SortedMap Ident (List Ident)}

/-- Nothing stands in an empty namespace. -/
theorem empty : Namespace.empty.SetUp [] .empty where
  get?_iff name t := by
    rw [show Namespace.empty.tables.get? name = none from SortedMap.get?_empty name]
    exact ⟨nofun, fun ⟨_, h, _⟩ => absurd h List.not_mem_nil⟩
  triggers_eq := rfl

/-! ## Tables -/

/-- A table of a name that is free is created. -/
theorem createTable (h : n.SetUp tables triggers) {name : Ident} (ns : Ident)
    (columns : List ColumnDef) (hnew : name ∉ tables.map Prod.fst) :
    (n.createTable ⟨⟨ns, name⟩, columns⟩).SetUp (tables ++ [(name, columns)]) triggers := by
  have hfree : n.tables.contains name = false := by
    rw [SortedMap.contains_eq_false]
    cases hold : n.tables.get? name with
    | none => rfl
    | some t =>
      obtain ⟨columns', hm, -⟩ := (h.get?_iff name t).1 hold
      exact absurd (List.mem_map_of_mem hm) hnew
  unfold Namespace.createTable
  dsimp only
  rw [hfree, if_neg Bool.false_ne_true]
  refine ⟨fun name' t => ?_, h.triggers_eq⟩
  simp only [List.mem_append, List.mem_singleton, Prod.mk.injEq]
  by_cases hname : name' = name
  · subst hname
    rw [show (n.withTable name' (.new columns)).tables.get? name' = some (.new columns) from
      SortedMap.get?_insert_self .., Option.some.injEq]
    constructor
    · rintro rfl
      exact ⟨columns, .inr ⟨rfl, rfl⟩, rfl⟩
    · rintro ⟨columns', hm | ⟨-, rfl⟩, rfl⟩
      · exact absurd (List.mem_map_of_mem hm) hnew
      · rfl
  · rw [show (n.withTable name (.new columns)).tables.get? name' = n.tables.get? name' from
      SortedMap.get?_insert_of_ne _ _ hname, h.get?_iff]
    simp [hname]

/-- An index of a table that stands is created, if the table has its columns. -/
theorem createIndex (h : n.SetUp tables triggers) {name : Ident} (ns : Ident)
    {columns : List ColumnDef} (hm : (name, columns) ∈ tables) {i : IndexLayout}
    (hi : ∀ c ∈ i.columns, c ∈ columns.map ColumnDef.name) :
    ∃ n', n.apply (Schema.indexStatement ⟨ns, name⟩ i) = .ok n' ∧ n'.SetUp tables triggers := by
  refine ⟨{ n with indexes := n.indexes.insert i.name name }, ?_, h.get?_iff, h.triggers_eq⟩
  have htable : n.table name = .ok (.new columns) := by
    unfold Namespace.table
    rw [(h.get?_iff name _).2 ⟨columns, hm, rfl⟩]
  have hcheck : (Table.new columns).checkColumns i.columns = .ok () := by
    unfold Table.checkColumns
    rw [List.find?_eq_none.2]
    intro c hc
    obtain ⟨d, hd, rfl⟩ := List.mem_map.1 (hi c hc)
    have : (Table.new columns).hasColumn d.name = true :=
      List.any_eq_true.2 ⟨d, hd, beq_self_eq_true _⟩
    simp [this]
  unfold Schema.indexStatement
  change n.createIndex _ = _
  unfold Namespace.createIndex
  dsimp only
  rw [htable]
  dsimp only [bind, Except.bind]
  rw [hcheck]
  rfl

/-- A table is created with its indexes. -/
theorem table (h : n.SetUp tables triggers) {name : Ident} (ns : Ident) {columns : List ColumnDef}
    (hnew : name ∉ tables.map Prod.fst) {indexes : List IndexLayout}
    (hi : ∀ i ∈ indexes, ∀ c ∈ i.columns, c ∈ columns.map ColumnDef.name) :
    ∃ n', n.applyAll (.createTable ⟨⟨ns, name⟩, columns⟩
        :: indexes.map (Schema.indexStatement ⟨ns, name⟩)) = .ok n' ∧
      n'.SetUp (tables ++ [(name, columns)]) triggers := by
  have h₁ := h.createTable ns columns hnew
  suffices ∀ {n₁ : Namespace}, n₁.SetUp (tables ++ [(name, columns)]) triggers →
      ∃ n', n₁.applyAll (indexes.map (Schema.indexStatement ⟨ns, name⟩)) = .ok n' ∧
        n'.SetUp (tables ++ [(name, columns)]) triggers by
    obtain ⟨n', hrun, h'⟩ := this h₁
    exact ⟨n', Namespace.applyAll_cons.2 ⟨_, rfl, hrun⟩, h'⟩
  clear h₁
  induction indexes with
  | nil => exact fun h => ⟨_, rfl, h⟩
  | cons i indexes ih =>
    intro n₁ h₁
    obtain ⟨n₂, hfirst, h₂⟩ :=
      h₁.createIndex ns (List.mem_append_right _ (List.mem_singleton.2 rfl))
        (hi i (List.mem_cons_self ..))
    obtain ⟨n', hrest, h'⟩ := ih (fun i h => hi i (List.mem_cons_of_mem _ h)) h₂
    exact ⟨n', Namespace.applyAll_cons.2 ⟨n₂, hfirst, hrest⟩, h'⟩

/-- Blocks of statements run one after the other, if each of them creates tables of names that are
free. -/
theorem flatMap {α : Type} {block : α → List Statement} {made : α → List (Ident × List ColumnDef)} :
    ∀ {xs : List α} {n : Namespace} {tables : List (Ident × List ColumnDef)},
      (∀ x ∈ xs, ∀ {n : Namespace} {tables : List (Ident × List ColumnDef)},
        n.SetUp tables triggers → ((tables ++ made x).map Prod.fst).Nodup →
        ∃ n', n.applyAll (block x) = .ok n' ∧ n'.SetUp (tables ++ made x) triggers) →
      n.SetUp tables triggers → ((tables ++ xs.flatMap made).map Prod.fst).Nodup →
      ∃ n', n.applyAll (xs.flatMap block) = .ok n' ∧
        n'.SetUp (tables ++ xs.flatMap made) triggers := by
  intro xs
  induction xs with
  | nil =>
    intro n tables _ h _
    refine ⟨n, rfl, ?_⟩
    rwa [List.flatMap_nil, List.append_nil]
  | cons x xs ih =>
    intro n tables hblock h hnodup
    rw [List.flatMap_cons, ← List.append_assoc] at hnodup
    have hfirstNodup : ((tables ++ made x).map Prod.fst).Nodup := by
      rw [List.map_append] at hnodup
      exact (List.nodup_append.1 hnodup).1
    obtain ⟨n₁, hfirst, h₁⟩ := hblock x (List.mem_cons_self ..) h hfirstNodup
    obtain ⟨n', hrest, h'⟩ := ih (fun x hx => hblock x (List.mem_cons_of_mem _ hx)) h₁ hnodup
    rw [List.flatMap_cons, List.flatMap_cons, ← List.append_assoc]
    exact ⟨n', Namespace.applyAll_append.2 ⟨n₁, hfirst, hrest⟩, h'⟩

/-- A name is free when no two of the tables to stand share one. -/
theorem notMem_of_nodup {name : Ident} {columns : List ColumnDef}
    {rest : List (Ident × List ColumnDef)}
    (h : ((tables ++ (name, columns) :: rest).map Prod.fst).Nodup) :
    name ∉ tables.map Prod.fst := by
  rw [List.map_append, List.map_cons, List.nodup_append] at h
  exact fun hm => h.2.2 name hm name (List.mem_cons_self ..) rfl

/-- A link table is created with its indexes. -/
theorem linkTable (h : n.SetUp tables triggers) (ns : Ident) (l : LinkTable)
    (hnodup : ((tables ++ [(l.name, LinkTable.columns)]).map Prod.fst).Nodup) :
    ∃ n', n.applyAll (Schema.linkTableStatements ns l) = .ok n' ∧
      n'.SetUp (tables ++ [(l.name, LinkTable.columns)]) triggers := by
  have hcolumns : ∀ c ∈ [Column.ownerId, Column.ownerSysId, Column.targetSysId],
      c ∈ LinkTable.columns.map ColumnDef.name := by decide
  have hindexes : ∀ i ∈ [Column.ownerId, Column.ownerSysId, Column.targetSysId].map fun column =>
      IndexLayout.on l.name [column] false, ∀ c ∈ i.columns,
        c ∈ LinkTable.columns.map ColumnDef.name := by
    intro i hi c hc
    obtain ⟨column, hcolumn, rfl⟩ := List.mem_map.1 hi
    rw [List.mem_singleton.1 hc]
    exact hcolumns column hcolumn
  exact h.table ns (notMem_of_nodup hnodup) hindexes

end Namespace.SetUp

/-- The tables that a layout brings: its own and its link tables. -/
def TableLayout.block (t : TableLayout) : List (Ident × List ColumnDef) :=
  (t.name, t.columns) :: t.linkTables.map fun l => (l.name, LinkTable.columns)

/-- The indexes of a table are on columns that it has. -/
theorem TableLayout.mem_columns_of_index {t : TableLayout} {i : IndexLayout} (hi : i ∈ t.indexes)
    {c : Ident} (hc : c ∈ i.columns) : c ∈ t.columns.map ColumnDef.name := by
  have hsystem : ∀ c ∈ [Column.sysId, Column.locale], c ∈ t.columns.map ColumnDef.name := by
    intro c hc
    unfold columns
    rw [List.map_append]
    refine List.mem_append_left _ ?_
    revert c
    decide
  have hfield : ∀ f ∈ t.fields, f.columnDef?.isSome → f.column ∈ t.columns.map ColumnDef.name := by
    intro f hf hsome
    obtain ⟨d, hd⟩ := Option.isSome_iff_exists.1 hsome
    have hname : d.name = f.column := by
      obtain ⟨type, -, rfl⟩ := Option.map_eq_some_iff.1 hd
      rfl
    rw [← hname]
    exact List.mem_map_of_mem (List.mem_append_right _ (List.mem_filterMap.2 ⟨f, hf, hd⟩))
  rcases List.mem_append.1 hi with hi | hi
  · simp only [List.mem_cons, List.not_mem_nil, or_false] at hi
    rcases hi with rfl | rfl
    · exact hsystem c hc
    · exact hsystem c (List.mem_cons.2 (.inl (List.mem_singleton.1 hc)))
  · obtain ⟨f, hf, hi⟩ := List.mem_flatMap.1 hi
    have hlocale := hsystem Column.locale (by decide)
    have hunique : ∀ i ∈ (if f.unique then [IndexLayout.on t.name [f.column, Column.locale] false]
        else []), ∀ c ∈ i.columns, c = f.column ∨ c = Column.locale := by
      intro i hi c hc
      split at hi
      · rw [List.mem_singleton.1 hi] at hc
        rcases List.mem_cons.1 hc with hc | hc
        · exact .inl hc
        · exact .inr (List.mem_singleton.1 hc)
      · cases hi
    unfold fieldIndexes at hi
    unfold FieldLayout.columnDef? Placement.columnType? at hfield
    have hcolumn := hfield f hf
    cases hp : f.placement with
    | value type =>
      rw [hp] at hi hcolumn
      rcases hunique i hi c hc with rfl | rfl
      · exact hcolumn rfl
      · exact hlocale
    | link target =>
      rw [hp] at hi hcolumn
      rcases List.mem_cons.1 hi with rfl | hi
      · rw [List.mem_singleton.1 hc]
        exact hcolumn rfl
      · rcases hunique i hi c hc with rfl | rfl
        · exact hcolumn rfl
        · exact hlocale
    | links table target =>
      rw [hp] at hi
      cases hi

namespace Namespace.SetUp

variable {n : Namespace} {tables : List (Ident × List ColumnDef)}
  {triggers : SortedMap Ident (List Ident)}

/-- A table is created with its indexes and link tables. -/
theorem layout (h : n.SetUp tables triggers) (ns : Ident) (t : TableLayout)
    (hnodup : ((tables ++ t.block).map Prod.fst).Nodup) :
    ∃ n', n.applyAll (Schema.tableStatements ns t) = .ok n' ∧
      n'.SetUp (tables ++ t.block) triggers := by
  obtain ⟨n₁, hfirst, h₁⟩ := h.table ns (notMem_of_nodup hnodup) fun i hi c hc =>
    t.mem_columns_of_index hi hc
  have hblock : tables ++ t.block
      = tables ++ [(t.name, t.columns)] ++ t.linkTables.flatMap fun l =>
        [(l.name, LinkTable.columns)] := by
    rw [← List.map_eq_flatMap, TableLayout.block, List.append_cons]
  rw [hblock] at hnodup ⊢
  obtain ⟨n', hrest, h'⟩ := flatMap (fun l _ _ _ h => h.linkTable ns l) h₁ hnodup
  exact ⟨n', Namespace.applyAll_append.2 ⟨n₁, hfirst, hrest⟩, h'⟩

end Namespace.SetUp

/-! ## Triggers -/

namespace Namespace.SetUp

variable {n : Namespace} {tables : List (Ident × List ColumnDef)}

/-- The triggers of tables that stand are created. -/
theorem createTriggers (ns : Ident) :
    ∀ {pairs : List (Ident × List Ident)} {n : Namespace} {triggers : SortedMap Ident (List Ident)},
      n.SetUp tables triggers → (∀ p ∈ pairs, p.1 ∈ tables.map Prod.fst) →
      (pairs.map Prod.fst).Nodup → (∀ p ∈ pairs, triggers.get? p.1 = none) →
      ∃ n' triggers', n.applyAll (pairs.map fun (table, links) =>
          .createDeleteTrigger ⟨⟨ns, table⟩, links⟩) = .ok n' ∧
        n'.SetUp tables triggers' ∧ ∀ name links, triggers'.get? name = some links ↔
          (name, links) ∈ pairs ∨ triggers.get? name = some links := by
  intro pairs
  induction pairs with
  | nil => exact fun h _ _ _ => ⟨_, _, rfl, h, fun _ _ => by simp⟩
  | cons p pairs ih =>
    obtain ⟨table, links⟩ := p
    intro n triggers h htables hnodup hfree
    rw [List.map_cons, List.nodup_cons] at hnodup
    obtain ⟨⟨stored, columns⟩, hm, hname⟩ := List.mem_map.1 (htables _ (List.mem_cons_self ..))
    obtain rfl : stored = table := hname
    have htable : n.table stored = .ok (.new columns) := by
      unfold Namespace.table
      rw [(h.get?_iff stored _).2 ⟨columns, hm, rfl⟩]
    have h₁ : { n with triggers := n.triggers.insert stored links }.SetUp tables
        (triggers.insert stored links) := ⟨h.get?_iff, congrArg (·.insert stored links) h.triggers_eq⟩
    have hnone : triggers.get? stored = none := hfree _ (List.mem_cons_self ..)
    obtain ⟨n', triggers', hrest, h', hget⟩ :=
      ih h₁ (fun p hp => htables p (List.mem_cons_of_mem _ hp)) hnodup.2 fun p hp => by
        have hm : p.1 ∈ pairs.map Prod.fst := List.mem_map_of_mem hp
        have hne : p.1 ≠ stored := fun he => hnodup.1 (he ▸ hm)
        rw [SortedMap.get?_insert_of_ne _ _ hne]
        exact hfree p (List.mem_cons_of_mem _ hp)
    refine ⟨n', triggers', Namespace.applyAll_cons.2 ⟨_, ?_, hrest⟩, h', fun name links' => ?_⟩
    · change n.createTrigger _ = _
      unfold Namespace.createTrigger
      dsimp only
      rw [htable]
      rfl
    · rw [hget, List.mem_cons, Prod.mk.injEq, SortedMap.get?_insert_eq]
      by_cases he : name = stored
      · subst he
        rw [if_pos rfl, hnone, Option.some.injEq, eq_comm (a := links)]
        simp [or_comm]
      · simp [he]

end Namespace.SetUp

/-! ## Locales -/

/-- The row of a locale is written to the table of locales, as it is if its code is new there. -/
theorem Schema.upsertRow_locale {t : Table} (ht : t.columns = localeColumns) (code : String)
    (fallback : Value) (isDefault : Bool) :
    ∃ t', t.upsertRow localeColumns [.text code, fallback, .bool isDefault] = .ok t' ∧
      t'.columns = localeColumns ∧ (t.rows.get? code = none → t'.rows = t.rows.insert code
        (Row.ofCells localeColumns [.text code, fallback, .bool isDefault])) := by
  have hfull : t.fullRow localeColumns [.text code, fallback, .bool isDefault]
      = .ok (Row.ofCells localeColumns [.text code, fallback, .bool isDefault]) := by
    refine Table.fullRow_eq_ok ht rfl fun c hc hn => ?_
    have hrequired : c.name = Column.code ∨ c.name = Column.isDefault := by
      revert c
      decide
    rcases hrequired with he | he
    · rw [he]
      rfl
    · rw [he]
      rfl
  have hkey : t.keyOf (Row.ofCells localeColumns [.text code, fallback, .bool isDefault])
      = .ok (code, t) := by
    have hcolumn : t.keyColumn? = some Column.code := by
      unfold Table.keyColumn?
      rw [ht]
      rfl
    unfold Table.keyOf
    rw [hcolumn]
    rfl
  unfold Table.upsertRow
  rw [hfull]
  dsimp only [bind, Except.bind]
  rw [hkey]
  dsimp only
  cases t.rows.get? code with
  | none => exact ⟨_, rfl, ht, fun _ => rfl⟩
  | some stored => exact ⟨_, rfl, ht, nofun⟩

/-- The rows of the locales are written to the table of locales, and nothing else changes. -/
theorem Namespace.upsert_locales {n : Namespace} {space : Space} {rows : List (List Value)}
    (hrows : space.locales.mapM (Schema.localeRow space) = .ok rows)
    (ht : n.tables.get? localesTable = some (.new Schema.localeColumns)) :
    ∃ t', rows.foldlM (Table.upsertRow Schema.localeColumns) (.new Schema.localeColumns) = .ok t' ∧
      n.upsert localesTable Schema.localeColumns rows Column.code
        = .ok (n.withTable localesTable t') := by
  have hform : ∀ values ∈ rows, ∃ code fallback isDefault,
      values = [.text code, fallback, .bool isDefault] := by
    intro values hv
    obtain ⟨l, -, hl⟩ := exists_of_mapM hrows hv
    unfold Schema.localeRow at hl
    split at hl
    · exact ⟨l.code, .null, l.isDefault, (pure_eq_ok.1 hl).symm⟩
    · obtain ⟨fallback, -, hl⟩ := bind_eq_ok.1 hl
      exact ⟨l.code, fallback, l.isDefault, (pure_eq_ok.1 hl).symm⟩
  have hfold : ∀ {t : Table}, t.columns = Schema.localeColumns →
      ∃ t', rows.foldlM (Table.upsertRow Schema.localeColumns) t = .ok t' := by
    clear hrows ht
    induction rows with
    | nil => exact fun _ => ⟨_, rfl⟩
    | cons values rows ih =>
      intro t ht
      obtain ⟨code, fallback, isDefault, rfl⟩ := hform values (List.mem_cons_self ..)
      obtain ⟨t₁, hfirst, ht₁, -⟩ := Schema.upsertRow_locale ht code fallback isDefault
      obtain ⟨t', hrest⟩ := ih (fun v hv => hform v (List.mem_cons_of_mem _ hv)) ht₁
      exact ⟨t', bind_eq_ok.2 ⟨t₁, hfirst, hrest⟩⟩
  obtain ⟨t', hrun⟩ := hfold (t := .new Schema.localeColumns) rfl
  refine ⟨t', hrun, ?_⟩
  have htable : n.table localesTable = .ok (.new Schema.localeColumns) := by
    unfold Namespace.table
    rw [ht]
  have hcheck : (Table.new Schema.localeColumns).checkColumns
      (Schema.localeColumns.map ColumnDef.name) = .ok () := Table.checkColumns_self rfl
  unfold Namespace.upsert
  rw [htable]
  dsimp only [bind, Except.bind]
  rw [hcheck]
  dsimp only
  rw [if_neg fun hne => hne rfl, hrun]
  rfl

/-! ## The whole schema -/

/-- The tables of a replica and those that the blocks of its layouts bring are the same. -/
theorem Schema.flatMap_block_perm (s : Schema) :
    (s.allTables.flatMap TableLayout.block).Perm s.contentTables := by
  have hperm := List.map_append_flatMap_perm s.allTables
    (fun t => (t.name, t.columns)) fun t => t.linkTables.map fun l => (l.name, LinkTable.columns)
  have hlinks : (s.allTables.flatMap fun t =>
      t.linkTables.map fun l => (l.name, LinkTable.columns))
      = s.linkTables.map fun l => (l.name, LinkTable.columns) := by
    rw [allTables, List.flatMap_append, linkTables, List.map_flatMap]
    exact List.append_nil _
  rw [hlinks] at hperm
  exact hperm.symm

/-- A trigger is set up for each table that has link tables. -/
theorem Schema.mem_deleteTriggers {s : Schema} {name : Ident} {links : List Ident} :
    (name, links) ∈ s.deleteTriggers ↔ ∃ t ∈ s.tables, t.linkTables ≠ [] ∧ name = t.name ∧
      links = t.linkTables.map LinkTable.name := by
  unfold deleteTriggers
  rw [List.mem_filterMap]
  refine exists_congr fun t => and_congr_right fun _ => ?_
  cases hlinks : t.linkTables with
  | nil => simp
  | cons l rest => simp [eq_comm]

/-- No table has two triggers. -/
theorem Schema.CollisionFree.nodup_deleteTriggers {s : Schema} (h : s.CollisionFree) :
    (s.deleteTriggers.map Prod.fst).Nodup := by
  have hsublist : (s.deleteTriggers.map Prod.fst).Sublist (s.tables.map TableLayout.name) := by
    refine map_filterMap_sublist (fun t trigger htrigger => ?_) s.tables
    split at htrigger
    · cases htrigger
    · obtain rfl := Option.some.inj htrigger
      rfl
  have htables := h.nodup_allTables
  rw [allTables, List.map_append] at htables
  exact (List.nodup_append.1 htables).1.sublist hsublist

section
variable {s : Schema} {triggers : SortedMap Ident (List Ident)}

/-- Where the triggers are those of the schema, the trigger of a table names its link tables. -/
theorem Schema.CollisionFree.trigger_of_table (hfree : s.CollisionFree)
    (h : ∀ name links, triggers.get? name = some links ↔ ∃ t ∈ s.tables, t.linkTables ≠ [] ∧
      name = t.name ∧ links = t.linkTables.map LinkTable.name) {t : TableLayout}
    (ht : t ∈ s.allTables) : (triggers.get? t.name).getD [] = t.linkTables.map LinkTable.name := by
  cases hlinks : triggers.get? t.name with
  | some links =>
    obtain ⟨t', ht', -, hname, rfl⟩ := (h _ _).1 hlinks
    rw [hfree.table_eq ht (List.mem_append_left _ ht') hname]
    rfl
  | none =>
    rcases List.mem_append.1 ht with ht | ht
    · by_cases hempty : t.linkTables = []
      · rw [hempty]
        rfl
      · rw [(h _ _).2 ⟨t, ht, hempty, rfl, rfl⟩] at hlinks
        cases hlinks
    -- the assets have no link tables
    · rw [List.mem_singleton.1 ht]
      rfl

/-- Where the triggers are those of the schema, a link table has none. -/
theorem Schema.CollisionFree.trigger_of_link (hfree : s.CollisionFree)
    (h : ∀ name links, triggers.get? name = some links ↔ ∃ t ∈ s.tables, t.linkTables ≠ [] ∧
      name = t.name ∧ links = t.linkTables.map LinkTable.name) {l : LinkTable}
    (hl : l ∈ s.linkTables) : triggers.get? l.name = none := by
  cases hlinks : triggers.get? l.name with
  | none => rfl
  | some links =>
    obtain ⟨t, ht, -, hname, -⟩ := (h _ _).1 hlinks
    exact absurd hname.symm (hfree.table_ne_link (List.mem_append_left _ ht) hl)

end

/-- The statements that set up a schema in a namespace that exists. -/
def Schema.setupStatements (s : Schema) (ns : Ident) (rows : List (List Value)) : List Statement :=
  [.createTable ⟨⟨ns, syncTokenTable⟩, syncTokenColumns⟩,
      .createTable ⟨⟨ns, localesTable⟩, localeColumns⟩]
    ++ s.allTables.flatMap (tableStatements ns)
    ++ s.deleteTriggers.map (fun (table, links) => .createDeleteTrigger ⟨⟨ns, table⟩, links⟩)
    ++ [.upsert ⟨ns, localesTable⟩ localeColumns rows Column.code]

/-- Each of these statements changes the namespace from within. -/
theorem Schema.setupStatements_local {s : Schema} {ns : Ident} {rows : List (List Value)}
    {statement : Statement} (h : statement ∈ s.setupStatements ns rows) :
    statement.InNamespace ns := by
  have hindex (name : QualifiedName) (i : IndexLayout) (hn : name.namespaceName = ns) :
      (indexStatement name i).InNamespace ns := ⟨rfl, hn⟩
  have hlink (l : LinkTable) (hs : statement ∈ linkTableStatements ns l) :
      statement.InNamespace ns := by
    rcases List.mem_cons.1 hs with rfl | hs
    · exact ⟨rfl, rfl⟩
    · obtain ⟨column, -, rfl⟩ := List.mem_map.1 hs
      exact hindex _ _ rfl
  have htable (t : TableLayout) (hs : statement ∈ tableStatements ns t) :
      statement.InNamespace ns := by
    rcases List.mem_append.1 hs with hs | hs
    · rcases List.mem_cons.1 hs with rfl | hs
      · exact ⟨rfl, rfl⟩
      · obtain ⟨i, -, rfl⟩ := List.mem_map.1 hs
        exact hindex _ _ rfl
    · obtain ⟨l, -, hs⟩ := List.mem_flatMap.1 hs
      exact hlink l hs
  unfold setupStatements at h
  simp only [List.mem_append, List.mem_cons, List.not_mem_nil, or_false] at h
  rcases h with (((rfl | rfl) | hs) | hs) | rfl
  · exact ⟨rfl, rfl⟩
  · exact ⟨rfl, rfl⟩
  · obtain ⟨t, -, hs⟩ := List.mem_flatMap.1 hs
    exact htable t hs
  · obtain ⟨p, -, rfl⟩ := List.mem_map.1 hs
    exact ⟨rfl, rfl⟩
  · exact ⟨rfl, rfl⟩

/-- The statements of a schema create the namespace and then set up the schema in it. -/
theorem Schema.ddl_eq_ok {s : Schema} {ns : Ident} {space : Space} {statements : List Statement}
    (h : s.ddl ns space = .ok statements) :
    ∃ rows, space.locales.mapM (localeRow space) = .ok rows ∧
      statements = .createNamespace ns :: s.setupStatements ns rows := by
  obtain ⟨rows, hrows, h⟩ := bind_eq_ok.1 h
  exact ⟨rows, hrows, (pure_eq_ok.1 h).symm⟩

/-- Where the statements of a schema were applied, the schema was set up in the namespace as it was, in
an empty one if there was none. -/
theorem Schema.exists_namespace_of_ddl {s : Schema} {ns : Ident} {space : Space}
    {statements : List Statement} (h : s.ddl ns space = .ok statements) {d d' : Database}
    (hrun : d.applyAll statements = .ok d') :
    ∃ rows n, ((d.namespaces.get? ns).getD .empty).applyAll (s.setupStatements ns rows) = .ok n ∧
      d'.namespaces.get? ns = some n := by
  obtain ⟨rows, -, rfl⟩ := ddl_eq_ok h
  obtain ⟨d₁, hcreate, hsetUp⟩ := bind_eq_ok.1 hrun
  have hbase : d₁.namespaces.get? ns = some ((d.namespaces.get? ns).getD .empty) := by
    change Except.ok (if d.namespaces.contains ns then d else d.withNamespace ns .empty) = _ at hcreate
    obtain rfl := Except.ok.inj hcreate
    split
    · next hold =>
      obtain ⟨n, hn⟩ := SortedMap.contains_eq_true.1 hold
      rw [hn, Option.getD_some]
    · next hnone =>
      rw [SortedMap.contains_eq_false.1 (Bool.eq_false_iff.2 hnone), Option.getD_none]
      exact Database.get?_withNamespace_self ..
  obtain ⟨n, hn, hget⟩ :=
    Database.exists_namespace_of_applyAll hbase (fun _ => setupStatements_local) hsetUp
  exact ⟨rows, n, hn, hget⟩

/-- The table of the locales of a space holds the row of each, written in their order. -/
def Namespace.HasLocales (n : Namespace) (space : Space) : Prop :=
  ∃ rows t, space.locales.mapM (Schema.localeRow space) = .ok rows ∧
    rows.foldlM (Table.upsertRow Schema.localeColumns) (.new Schema.localeColumns) = .ok t ∧
    n.tables.get? localesTable = some t

/-- A schema whose tables have names of their own is set up in a namespace that does not exist yet,
with the locales of the space and without views. -/
theorem Schema.applyAll_ddl_locales {s : Schema} (hfree : s.CollisionFree) {ns : Ident}
    {space : Space} {statements : List Statement} (h : s.ddl ns space = .ok statements)
    {d : Database} (hns : d.namespaces.get? ns = none) :
    ∃ base, d.applyAll statements = .ok (d.withNamespace ns base) ∧ s.Installed base ∧
      base.HasLocales space ∧ base.views = .empty := by
  obtain ⟨rows, hrows, rfl⟩ := ddl_eq_ok h
  let old : List (Ident × List ColumnDef) :=
    [(syncTokenTable, syncTokenColumns), (localesTable, localeColumns)]
  have h₀ : ((Namespace.empty.createTable ⟨⟨ns, syncTokenTable⟩, syncTokenColumns⟩).createTable
      ⟨⟨ns, localesTable⟩, localeColumns⟩).SetUp old .empty :=
    (Namespace.SetUp.empty.createTable ns _ (by decide)).createTable ns _ (by decide)
  have hnames : ((old ++ s.allTables.flatMap TableLayout.block).map Prod.fst).Nodup := by
    have hperm := (s.flatMap_block_perm.append_left old).trans List.perm_append_comm
    rw [(hperm.map Prod.fst).nodup_iff, List.map_append]
    refine (List.Perm.append_left _ ?_).nodup_iff.1 hfree
    exact List.Perm.swap _ _ _
  obtain ⟨n₁, htables, h₁⟩ :=
    Namespace.SetUp.flatMap (fun t _ _ _ h => h.layout ns t) h₀ hnames
  have hstand : ∀ {name columns}, (name, columns) ∈ s.contentTables →
      (name, columns) ∈ old ++ s.allTables.flatMap TableLayout.block := fun hx =>
    List.mem_append_right _ (s.flatMap_block_perm.mem_iff.2 hx)
  have hpairs : ∀ p ∈ s.deleteTriggers,
      p.1 ∈ (old ++ s.allTables.flatMap TableLayout.block).map Prod.fst := by
    intro p hp
    obtain ⟨t, ht, -, hname, -⟩ := mem_deleteTriggers.1 hp
    rw [hname]
    exact List.mem_map_of_mem (hstand (mem_contentTables_of_table (List.mem_append_left _ ht)))
  obtain ⟨n₂, triggers, htriggers, h₂, hget⟩ := h₁.createTriggers ns hpairs
    hfree.nodup_deleteTriggers fun p _ => SortedMap.get?_empty _
  have htrigger : ∀ name links, n₂.triggers.get? name = some links ↔
      ∃ t ∈ s.tables, t.linkTables ≠ [] ∧ name = t.name ∧
        links = t.linkTables.map LinkTable.name := by
    intro name links
    rw [h₂.triggers_eq, hget, SortedMap.get?_empty, mem_deleteTriggers]
    exact or_iff_left nofun
  obtain ⟨t', hwritten, hlocales⟩ := Namespace.upsert_locales hrows
    ((h₂.get?_iff localesTable _).2 ⟨localeColumns, by simp [old], rfl⟩)
  have hsetUp : Namespace.empty.applyAll (setupStatements s ns rows)
      = .ok (n₂.withTable localesTable t') := by
    refine Namespace.applyAll_append.2 ⟨n₂, Namespace.applyAll_append.2 ⟨n₁, ?_, htriggers⟩,
      Namespace.applyAll_cons.2 ⟨_, hlocales, rfl⟩⟩
    exact Namespace.applyAll_append.2 ⟨_, rfl, htables⟩
  refine ⟨n₂.withTable localesTable t', ?_, ?_,
    ⟨rows, t', hrows, hwritten, SortedMap.get?_insert_self ..⟩, Namespace.applyAll_views hsetUp⟩
  · have hcreate : d.apply (.createNamespace ns) = .ok (d.withNamespace ns .empty) := by
      change Except.ok (if d.namespaces.contains ns then d else d.withNamespace ns .empty) = _
      rw [SortedMap.contains_eq_false.2 hns]
      rfl
    have hrest : (d.withNamespace ns .empty).applyAll (setupStatements s ns rows)
        = .ok ((d.withNamespace ns .empty).withNamespace ns (n₂.withTable localesTable t')) :=
      Database.applyAll_of_namespace (Database.get?_withNamespace_self ..)
        (fun _ => setupStatements_local) hsetUp
    rw [Database.withNamespace_withNamespace] at hrest
    exact bind_eq_ok.2 ⟨_, hcreate, hrest⟩
  · refine ⟨fun name columns hx => ?_, ?_, fun t ht => ?_, fun l hl => ?_⟩
    · have hne : name ≠ localesTable := fun he =>
        hfree.locales_notMem (he ▸ List.mem_map_of_mem hx)
      exact (SortedMap.get?_insert_of_ne _ _ hne).trans
        ((h₂.get?_iff name _).2 ⟨columns, hstand hx, rfl⟩)
    · have hne : syncTokenTable ≠ localesTable := by decide
      exact ⟨_, (SortedMap.get?_insert_of_ne _ _ hne).trans
        ((h₂.get?_iff syncTokenTable _).2 ⟨syncTokenColumns, by simp [old], rfl⟩)⟩
    · exact hfree.trigger_of_table htrigger ht
    · exact hfree.trigger_of_link htrigger hl

/-- A schema whose tables have names of their own is set up in a namespace that does not exist
yet. -/
theorem Schema.applyAll_ddl {s : Schema} (hfree : s.CollisionFree) {ns : Ident} {space : Space}
    {statements : List Statement} (h : s.ddl ns space = .ok statements) {d : Database}
    (hns : d.namespaces.get? ns = none) :
    ∃ base, d.applyAll statements = .ok (d.withNamespace ns base) ∧ s.Installed base := by
  obtain ⟨base, happly, hbase, -⟩ := applyAll_ddl_locales hfree h hns
  exact ⟨base, happly, hbase⟩

end ContentReplica
