import ContentReplica.Proofs.Schema.Tables
import ContentReplica.Store.Apply
import Mathlib.Logic.Function.Basic

/-!
# What a namespace holds

`Schema.Installed s base` says that the tables and triggers of a schema stand in a namespace. From
there on the tables that hold content are told by their rows: `Mirror s base n contents` says that
`n` is `base` but for those tables, and that each of them holds exactly the rows in `contents`. The
namespace is settled by this (`Mirror.unique`).

Each statement on content is an equation on `contents`: `Mirror.upsert`, `Mirror.insert`,
`Mirror.deleteEdges` for a link table, and `Mirror.deleteRecords` for a table whose rows own edges,
where the delete trigger takes the edges along. `Mirror.saveToken` stores a token beside them.
-/

namespace ContentReplica

/-- The rows of tables, by the name of the table. -/
abbrev Contents := Ident → Row → Prop

/-- The tables that hold content stand empty in a namespace, with the token table beside them and
a trigger on every table whose rows own edges. -/
structure Schema.Installed (s : Schema) (base : Namespace) : Prop where
  tables : ∀ name columns, (name, columns) ∈ s.contentTables →
    base.tables.get? name = some (Table.new columns)
  token : ∃ t, base.tables.get? syncTokenTable = some t
  triggers : ∀ t ∈ s.allTables,
    (base.triggers.get? t.name).getD [] = t.linkTables.map LinkTable.name
  noTriggers : ∀ l ∈ s.linkTables, base.triggers.get? l.name = none

/-- The namespace is `base` but for the tables that hold content, and these hold exactly the given
rows. -/
structure Mirror (s : Schema) (base n : Namespace) (contents : Contents) : Prop where
  indexes : n.indexes = base.indexes
  functions : n.functions = base.functions
  views : n.views = base.views
  triggers : n.triggers = base.triggers
  others : ∀ name, name ∉ s.contentTables.map Prod.fst → n.tables.get? name = base.tables.get? name
  tables : ∀ name columns, (name, columns) ∈ s.contentTables →
    ∃ t, n.tables.get? name = some t ∧ t.Holds columns (contents name)

namespace Mirror

variable {s : Schema} {base n : Namespace} {contents contents' : Contents}

/-- A namespace in which the tables of a schema stand holds nothing. -/
theorem empty (h : s.Installed base) : Mirror s base base fun _ _ => False where
  indexes := rfl
  functions := rfl
  views := rfl
  triggers := rfl
  others _ _ := rfl
  tables name columns hx := ⟨_, h.tables name columns hx, Table.holds_new columns⟩

/-- Only the rows of tables that hold content count. -/
theorem congr (h : Mirror s base n contents)
    (heq : ∀ name ∈ s.contentTables.map Prod.fst, ∀ row, contents name row ↔ contents' name row) :
    Mirror s base n contents' :=
  { h with
    tables := fun name columns hx => by
      obtain ⟨t, ht, hold⟩ := h.tables name columns hx
      exact ⟨t, ht, hold.congr (heq name (List.mem_map_of_mem hx))⟩ }

/-- What a namespace holds settles it. -/
theorem unique {n' : Namespace} (h : Mirror s base n contents) (h' : Mirror s base n' contents) :
    n = n' := by
  have htables : n.tables = n'.tables := by
    refine SortedMap.ext_get? fun name => ?_
    by_cases hname : name ∈ s.contentTables.map Prod.fst
    · obtain ⟨⟨_, columns⟩, hx, rfl⟩ := List.mem_map.1 hname
      obtain ⟨t, ht, hold⟩ := h.tables _ columns hx
      obtain ⟨t', ht', hold'⟩ := h'.tables _ columns hx
      rw [ht, ht', hold.unique hold']
    · rw [h.others name hname, h'.others name hname]
  have hindexes := h.indexes.trans h'.indexes.symm
  have hfunctions := h.functions.trans h'.functions.symm
  have hviews := h.views.trans h'.views.symm
  have htriggers := h.triggers.trans h'.triggers.symm
  cases n
  cases n'
  cases htables
  cases hindexes
  cases hfunctions
  cases hviews
  cases htriggers
  rfl

/-- One table that holds content is replaced by one that holds other rows. -/
theorem withTable (h : Mirror s base n contents) (hfree : s.CollisionFree) {name : Ident}
    {columns : List ColumnDef} (hx : (name, columns) ∈ s.contentTables) {t : Table}
    {rows : Row → Prop} (ht : t.Holds columns rows) :
    Mirror s base (n.withTable name t) (Function.update contents name rows) where
  indexes := h.indexes
  functions := h.functions
  views := h.views
  triggers := h.triggers
  others name' hn := by
    have hne : name' ≠ name := fun he => hn (he ▸ List.mem_map_of_mem hx)
    exact (SortedMap.get?_insert_of_ne _ _ hne).trans (h.others name' hn)
  tables name' columns' hx' := by
    by_cases hname : name' = name
    · subst hname
      rw [hfree.columns_eq hx' hx, Function.update_self]
      exact ⟨t, SortedMap.get?_insert_self .., ht⟩
    · obtain ⟨t', ht', hold⟩ := h.tables name' columns' hx'
      rw [Function.update_of_ne hname]
      exact ⟨t', (SortedMap.get?_insert_of_ne _ _ hname).trans ht', hold⟩

/-- A table that holds content is found. -/
theorem table_eq_ok (h : Mirror s base n contents) {name : Ident} {columns : List ColumnDef}
    (hx : (name, columns) ∈ s.contentTables) :
    ∃ t, n.table name = .ok t ∧ t.Holds columns (contents name) := by
  obtain ⟨t, ht, hold⟩ := h.tables name columns hx
  refine ⟨t, ?_, hold⟩
  unfold Namespace.table
  rw [ht]

/-! ## Adding rows -/

/-- Upserted rows take the place of those with the same identities. -/
theorem upsert (h : Mirror s base n contents) (hfree : s.CollisionFree) {name : Ident}
    {columns : List ColumnDef} (hx : (name, columns) ∈ s.contentTables)
    {values : List (List Value)} (hfit : ∀ v ∈ values, FitsColumns columns v)
    (hnodup : (values.map fun v => (Row.ofCells columns v).cell Column.id).Nodup) :
    ∃ n', n.upsert name columns values Column.id = .ok n' ∧
      Mirror s base n' (Function.update contents name fun r =>
        r ∈ values.map (Row.ofCells columns) ∨ contents name r ∧
          ∀ new ∈ values.map (Row.ofCells columns), r.cell Column.id ≠ new.cell Column.id) := by
  obtain ⟨t, ht, hold⟩ := h.table_eq_ok hx
  have hkey := Schema.keyedById hx
  obtain ⟨t', hrun, hold'⟩ := hold.upsertRows hkey hfit hnodup
  refine ⟨n.withTable name t', ?_, h.withTable hfree hx hold'⟩
  have hcolumn : t.keyColumn? = some Column.id := by
    unfold Table.keyColumn?
    rw [hold.columns_eq]
    exact hkey
  unfold Namespace.upsert
  rw [ht]
  dsimp only [bind, Except.bind]
  rw [Table.checkColumns_self hold.columns_eq]
  dsimp only
  rw [if_neg fun hne => hne hcolumn]
  dsimp only [pure, Except.pure]
  rw [hrun]

/-- Inserted rows come to those that are there. -/
theorem insert (h : Mirror s base n contents) (hfree : s.CollisionFree) (name : QualifiedName)
    {columns : List ColumnDef} (hx : (name.name, columns) ∈ s.contentTables)
    {values : List (List Value)} (hfit : ∀ v ∈ values, FitsColumns columns v)
    (hnodup : (values.map fun v => (Row.ofCells columns v).cell Column.id).Nodup)
    (hnew : ∀ r, contents name.name r → ∀ new ∈ values.map (Row.ofCells columns),
      r.cell Column.id ≠ new.cell Column.id) :
    ∃ n', n.insert name columns values = .ok n' ∧
      Mirror s base n' (Function.update contents name.name fun r =>
        r ∈ values.map (Row.ofCells columns) ∨ contents name.name r) := by
  obtain ⟨t, ht, hold⟩ := h.table_eq_ok hx
  obtain ⟨t', hrun, hold'⟩ :=
    hold.insertRows (Schema.keyedById hx) name.text hfit hnodup hnew
  refine ⟨n.withTable name.name t', ?_, h.withTable hfree hx hold'⟩
  unfold Namespace.insert
  rw [ht]
  dsimp only [bind, Except.bind]
  rw [Table.checkColumns_self hold.columns_eq]
  dsimp only
  rw [hrun]
  rfl

/-! ## Removing rows -/

/-- A row of the given table satisfies a condition and owns the edge. -/
def OwnedBy (rows : Row → Prop) (p : Predicate) (edge : Row) : Prop :=
  ∃ owner key, rows owner ∧ p.holds owner = true ∧ owner.cell Column.id = .text key ∧
    (edge.cell Column.ownerId).toText? = some key

/-- Rows removed from a table that holds content are gone from it. -/
theorem filterTable (h : Mirror s base n contents) (hfree : s.CollisionFree) {name : Ident}
    {columns : List ColumnDef} (hx : (name, columns) ∈ s.contentTables) (keep : Row → Bool) :
    ∃ t, n.table name = .ok t ∧ t.Holds columns (contents name) ∧
      Mirror s base (n.withTable name { t with rows := t.rows.filter fun _ row => keep row })
        fun name' r => contents name' r ∧ (name' = name → keep r = true) := by
  obtain ⟨t, ht, hold⟩ := h.table_eq_ok hx
  refine ⟨t, ht, hold, (h.withTable hfree hx (hold.filter keep)).congr fun name' _ r => ?_⟩
  by_cases hname : name' = name
  · subst hname
    simp
  · simp [hname]

/-- What a delete trigger does to link tables: the edges that do not survive are gone from each. -/
theorem cascade (hfree : s.CollisionFree) (survives : Row → Bool) :
    ∀ {links : List Ident} {n : Namespace} {contents : Contents},
      (∀ link ∈ links, (link, LinkTable.columns) ∈ s.contentTables) → Mirror s base n contents →
      ∃ n', links.foldlM (fun n link => do
          let edges ← Namespace.table n link
          return n.withTable link
            { edges with rows := edges.rows.filter fun _ row => survives row }) n = .ok n' ∧
        Mirror s base n' fun name r => contents name r ∧ (name ∈ links → survives r = true) := by
  intro links
  induction links with
  | nil => exact fun _ h => ⟨_, rfl, h.congr fun _ _ _ => by simp⟩
  | cons link links ih =>
    intro n contents hlinks h
    obtain ⟨t, ht, -, h₁⟩ := h.filterTable hfree (hlinks link (List.mem_cons_self ..)) survives
    obtain ⟨n', hrun, h'⟩ := ih (fun l hl => hlinks l (List.mem_cons_of_mem _ hl)) h₁
    refine ⟨n', ?_, h'.congr fun name _ r => ?_⟩
    · rw [List.foldlM_cons, ht]
      exact hrun
    · rw [List.mem_cons]
      tauto

/-- Rows removed from a link table are gone, and nothing else changes. -/
theorem deleteEdges (h : Mirror s base n contents) (hfree : s.CollisionFree)
    (hbase : s.Installed base) {l : LinkTable} (hl : l ∈ s.linkTables) (p : Predicate) :
    ∃ n', n.deleteRows l.name p = .ok n' ∧
      Mirror s base n' fun name r => contents name r ∧ (name = l.name → p.holds r = false) := by
  obtain ⟨t, ht, -, h'⟩ :=
    h.filterTable hfree (Schema.mem_contentTables_of_link hl) fun row => !p.holds row
  refine ⟨_, ?_, h'.congr fun name _ r => ?_⟩
  · unfold Namespace.deleteRows
    rw [ht]
    dsimp only [bind, Except.bind]
    rw [h.triggers, hbase.noTriggers l hl]
    rfl
  · simp

/-- The identities of the rows that a deletion removes. -/
def doomed (table : Table) (p : Predicate) : List String :=
  (table.rows.filter fun _ row => p.holds row).values.filterMap fun row =>
    (row.cell Column.id).toText?

/-- An identity is removed when a row of it satisfies the condition. -/
theorem mem_doomed {table : Table} {columns : List ColumnDef} {rows : Row → Prop}
    (hold : table.Holds columns rows) {p : Predicate} {key : String} :
    key ∈ doomed table p ↔
      ∃ owner, rows owner ∧ p.holds owner = true ∧ owner.cell Column.id = .text key := by
  have hmem : ∀ owner : Row, owner ∈ (table.rows.filter fun _ row => p.holds row).values ↔
      (rows owner ∧ p.holds owner = true) ∧ ∃ key, owner.cell Column.id = .text key :=
    fun owner => (hold.filter p.holds).mem_values
  unfold doomed
  rw [List.mem_filterMap]
  constructor
  · rintro ⟨owner, howner, hkey⟩
    obtain ⟨⟨hrow, hp⟩, key', hid⟩ := (hmem owner).1 howner
    rw [hid] at hkey
    cases hkey
    exact ⟨owner, hrow, hp, hid⟩
  · rintro ⟨owner, hrow, hp, hid⟩
    refine ⟨owner, (hmem owner).2 ⟨⟨hrow, hp⟩, key, hid⟩, ?_⟩
    rw [hid]
    rfl

/-- Whether an edge survives: it is not owned by a row that is removed. -/
def survives (removed : List String) (row : Row) : Bool :=
  match (row.cell Column.ownerId).toText? with
  | some owner => !removed.contains owner
  | none => true

/-- An edge survives unless it is owned by a row that satisfies the condition. -/
theorem survives_doomed {table : Table} {columns : List ColumnDef} {rows : Row → Prop}
    (hold : table.Holds columns rows) {p : Predicate} {row : Row} :
    survives (doomed table p) row = true ↔ ¬ OwnedBy rows p row := by
  unfold survives OwnedBy
  cases howner : (row.cell Column.ownerId).toText? with
  | none => simp
  | some owner =>
    dsimp only
    rw [Bool.not_eq_true', List.contains_eq_mem, decide_eq_false_iff_not, mem_doomed hold]
    refine not_congr ⟨?_, ?_⟩
    · rintro ⟨o, hrow, hp, hid⟩
      exact ⟨o, owner, hrow, hp, hid, rfl⟩
    · rintro ⟨o, key, hrow, hp, hid, hkey⟩
      cases hkey
      exact ⟨o, hrow, hp, hid⟩

/-- Rows removed from a table of records are gone, and with them the edges that they own. -/
theorem deleteRecords (h : Mirror s base n contents) (hfree : s.CollisionFree)
    (hbase : s.Installed base) {t : TableLayout} (ht : t ∈ s.allTables) (p : Predicate) :
    ∃ n', n.deleteRows t.name p = .ok n' ∧
      Mirror s base n' fun name r => contents name r ∧ (name = t.name → p.holds r = false) ∧
        (name ∈ t.linkTables.map LinkTable.name → ¬ OwnedBy (contents t.name) p r) := by
  obtain ⟨table, htable, hold, h₁⟩ :=
    h.filterTable hfree (Schema.mem_contentTables_of_table ht) fun row => !p.holds row
  have hlinks : ∀ link ∈ t.linkTables.map LinkTable.name,
      (link, LinkTable.columns) ∈ s.contentTables := by
    intro link hlink
    obtain ⟨l, hl, rfl⟩ := List.mem_map.1 hlink
    exact Schema.mem_contentTables_of_link (Schema.mem_linkTables ht hl)
  obtain ⟨n', hrun, h'⟩ := cascade hfree (survives (doomed table p)) hlinks h₁
  refine ⟨n', ?_, h'.congr fun name _ r => ?_⟩
  · unfold Namespace.deleteRows
    rw [htable]
    dsimp only [bind, Except.bind]
    rw [h.triggers, hbase.triggers t ht]
    exact hrun
  · rw [survives_doomed hold, Bool.not_eq_true']
    tauto

/-! ## The sync token -/

/-- A stored token stands beside the content. -/
theorem saveToken (h : Mirror s base n contents) (hfree : s.CollisionFree)
    (hbase : s.Installed base) (token : String) :
    ∃ n' base', n.saveToken token = .ok n' ∧ base.saveToken token = .ok base' ∧
      s.Installed base' ∧ Mirror s base' n' contents := by
  obtain ⟨t, ht⟩ := hbase.token
  have hfreeToken := hfree.token_notMem
  have htn : n.table syncTokenTable = .ok t := by
    unfold Namespace.table
    rw [h.others _ hfreeToken, ht]
  have htb : base.table syncTokenTable = .ok t := by
    unfold Namespace.table
    rw [ht]
  let t' : Table :=
    { t with rows := t.rows.insert Namespace.tokenKey (Namespace.tokenRow token) }
  have hne : ∀ name columns, (name, columns) ∈ s.contentTables → name ≠ syncTokenTable :=
    fun name columns hx he => hfreeToken (he ▸ List.mem_map_of_mem hx)
  refine ⟨n.withTable syncTokenTable t', base.withTable syncTokenTable t', ?_, ?_, ?_, ?_⟩
  · unfold Namespace.saveToken
    rw [htn]
    rfl
  · unfold Namespace.saveToken
    rw [htb]
    rfl
  · refine ⟨fun name columns hx => ?_, ⟨t', SortedMap.get?_insert_self ..⟩, hbase.triggers,
      hbase.noTriggers⟩
    exact (SortedMap.get?_insert_of_ne _ _ (hne name columns hx)).trans
      (hbase.tables name columns hx)
  · refine ⟨h.indexes, h.functions, h.views, h.triggers, fun name hn => ?_,
      fun name columns hx => ?_⟩
    · by_cases he : name = syncTokenTable
      · rw [he]
        exact (SortedMap.get?_insert_self ..).trans (SortedMap.get?_insert_self ..).symm
      · exact (SortedMap.get?_insert_of_ne _ _ he).trans
          ((h.others name hn).trans (SortedMap.get?_insert_of_ne _ _ he).symm)
    · obtain ⟨u, hu, hold⟩ := h.tables name columns hx
      exact ⟨u, (SortedMap.get?_insert_of_ne _ _ (hne name columns hx)).trans hu, hold⟩

end Mirror

/-- A token that is stored once more changes nothing. -/
theorem Namespace.saveToken_saveToken {n n' : Namespace} {token : String}
    (h : n.saveToken token = .ok n') : n'.saveToken token = .ok n' := by
  unfold Namespace.saveToken at h
  obtain ⟨t, ht, h⟩ := bind_eq_ok.1 h
  obtain rfl := pure_eq_ok.1 h
  unfold Namespace.saveToken
  refine bind_eq_ok.2
    ⟨{ t with rows := t.rows.insert Namespace.tokenKey (Namespace.tokenRow token) }, ?_, ?_⟩
  · unfold Namespace.table Namespace.withTable
    dsimp only
    rw [SortedMap.get?_insert_self]
  · rw [pure_eq_ok]
    unfold Namespace.withTable
    dsimp only
    rw [SortedMap.insert_insert, SortedMap.insert_insert]

end ContentReplica
