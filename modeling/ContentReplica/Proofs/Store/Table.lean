import ContentReplica.Proofs.Lookup
import ContentReplica.Proofs.Outcome
import ContentReplica.Store.Database
import Mathlib.Data.List.Nodup

/-!
# What a table holds

`Table.Holds t columns rows` says that a table with the given columns holds exactly the rows that
satisfy `rows`, each under its own identity. It determines the table (`Table.Holds.unique`), and each
way of changing a table is told by it: `Holds.upsertRows` for rows that overwrite those with the
same identity, `Holds.insertRows` for new rows, `Holds.filter` for a deletion.
-/

namespace ContentReplica

/-! ## Rows from cells -/

namespace Row

/-- A row with more cells written into it, a later cell of a column in place of an earlier one. -/
def write (row : Row) (cells : List (ColumnDef × Value)) : Row :=
  cells.foldl (fun r (c, v) => r.insert c.name v) row

/-- The row with the given values under the given columns. -/
def ofCells (columns : List ColumnDef) (values : List Value) : Row :=
  write .empty (columns.zip values)

/-- The row has no other columns than the given ones. -/
def Within (columns : List ColumnDef) (row : Row) : Prop :=
  ∀ name v, row.get? name = some v → name ∈ columns.map ColumnDef.name

/-- What a column holds after writing: the written cell, if there is one. -/
theorem get?_write (cells : List (ColumnDef × Value)) (row : Row) (name : Ident) :
    (row.write cells).get? name =
      if name ∈ cells.map (·.1.name) then (write .empty cells).get? name else row.get? name := by
  induction cells generalizing row with
  | nil => simp [write]
  | cons cell cells ih =>
    obtain ⟨c, v⟩ := cell
    have hcons (r : Row) : write r ((c, v) :: cells) = write (r.insert c.name v) cells := rfl
    rw [hcons, hcons, ih (row.insert c.name v), ih (SortedMap.insert .empty c.name v)]
    by_cases hm : name ∈ cells.map (·.1.name)
    · simp [hm]
    · by_cases hn : name = c.name
      · simp [hn]
      · rw [if_neg hm, if_neg hm, SortedMap.get?_insert_of_ne _ _ hn, if_neg]
        simp only [List.map_cons, List.mem_cons, not_or]
        exact ⟨hn, hm⟩

/-- The names of a row's cells are those of its columns. -/
theorem map_name_zip {columns : List ColumnDef} {values : List Value}
    (h : values.length = columns.length) :
    (columns.zip values).map (·.1.name) = columns.map ColumnDef.name := by
  have hfst : (columns.zip values).map Prod.fst = columns :=
    List.map_fst_zip (Nat.le_of_eq h.symm)
  have := congrArg (List.map ColumnDef.name) hfst
  rwa [List.map_map] at this

/-- Writing all its columns into a row leaves nothing of what they held. -/
theorem write_eq_ofCells {columns : List ColumnDef} {values : List Value} {row : Row}
    (h : values.length = columns.length) (hrow : row.Within columns) :
    row.write (columns.zip values) = ofCells columns values := by
  refine SortedMap.ext_get? fun name => ?_
  rw [get?_write, ofCells, map_name_zip h]
  split
  · rfl
  · next hn =>
    have hfree : (write .empty (columns.zip values)).get? name = none := by
      rw [get?_write, map_name_zip h, if_neg hn]
      rfl
    rw [hfree]
    cases hv : row.get? name with
    | none => rfl
    | some v => exact absurd (hrow name v hv) hn

/-- A row of cells has no columns but the given ones. -/
theorem ofCells_within {columns : List ColumnDef} {values : List Value}
    (h : values.length = columns.length) : (ofCells columns values).Within columns := by
  intro name v hv
  rw [ofCells, get?_write, map_name_zip h] at hv
  split at hv
  · assumption
  · cases hv

/-- The row of NULLs that a full row begins with has the columns of its table. -/
theorem blank_within (columns : List ColumnDef) :
    ((columns.foldl (fun r c => r.insert c.name .null) .empty : Row)).Within columns := by
  suffices ∀ (done : List ColumnDef) (row : Row), row.Within done →
      (columns.foldl (fun r c => r.insert c.name .null) row : Row).Within (done ++ columns) from
    this [] .empty nofun
  induction columns with
  | nil => intro done row h; simpa using h
  | cons c columns ih =>
    intro done row h
    have := ih (done ++ [c]) (row.insert c.name .null) fun name v hv => by
      rw [SortedMap.get?_insert_eq] at hv
      rw [List.map_append, List.mem_append]
      split at hv
      · exact .inr (by simp [*])
      · exact .inl (h name v hv)
    simpa using this

end Row

/-- A column has a text when its cell is that text. -/
theorem Row.text?_eq_some {row : Row} {column : Ident} {s : String} :
    row.text? column = some s ↔ row.cell column = .text s := by
  unfold Row.text? Row.cell
  cases row.get? column with
  | none => exact ⟨nofun, nofun⟩
  | some v => cases v <;> simp [Value.asText?]

/-! ## Rows that fit a table -/

/-- The values make a row of the columns: one value for each, no NULL where none may be, and a text
as identity. -/
structure FitsColumns (columns : List ColumnDef) (values : List Value) : Prop where
  length : values.length = columns.length
  notNull : ∀ c ∈ columns, c.notNull = true →
    ((Row.ofCells columns values).cell c.name).isNull = false
  identity : ∃ key, (Row.ofCells columns values).cell Column.id = .text key

/-- The columns are keyed by the identity of rows. -/
def KeyedById (columns : List ColumnDef) : Prop :=
  (primaryKey? columns).map ColumnDef.name = some Column.id

namespace Table

/-- The table has the given columns and holds exactly the given rows, each under its identity. -/
structure Holds (t : Table) (columns : List ColumnDef) (rows : Row → Prop) : Prop where
  columns_eq : t.columns = columns
  sequence_eq : t.sequence = 0
  within : ∀ row, rows row → row.Within columns
  get?_iff : ∀ key row,
    t.rows.get? key = some row ↔ rows row ∧ row.cell Column.id = .text key

/-- A new table holds nothing. -/
theorem holds_new (columns : List ColumnDef) : (Table.new columns).Holds columns fun _ => False :=
  ⟨rfl, rfl, nofun, fun _ _ => ⟨nofun, fun h => h.1.elim⟩⟩

/-- A full row of values for all columns is the row of its cells. -/
theorem fullRow_eq_ok {t : Table} {columns : List ColumnDef} {values : List Value}
    (ht : t.columns = columns) (hlength : values.length = columns.length)
    (hnull : ∀ c ∈ columns, c.notNull = true →
      ((Row.ofCells columns values).cell c.name).isNull = false) :
    t.fullRow columns values = .ok (Row.ofCells columns values) := by
  subst ht
  have hrow := Row.write_eq_ofCells hlength (Row.blank_within t.columns)
  have hfind : t.columns.find? (fun c => c.notNull &&
      ((Row.ofCells t.columns values).cell c.name).isNull) = none := by
    refine List.find?_eq_none.2 fun c hc hn => ?_
    obtain ⟨hreq, hn⟩ := Bool.and_eq_true _ _ ▸ hn
    rw [hnull c hc hreq] at hn
    cases hn
  unfold fullRow
  rw [if_neg fun hne => hne hlength.symm]
  unfold Row.write at hrow
  dsimp only [pure_bind]
  rw [hrow, hfind]
  rfl

/-- A full row that fits is the row of its cells. -/
theorem fullRow_of_fits {t : Table} {columns : List ColumnDef} {values : List Value}
    (ht : t.columns = columns) (h : FitsColumns columns values) :
    t.fullRow columns values = .ok (Row.ofCells columns values) :=
  fullRow_eq_ok ht h.length h.notNull

namespace Holds

variable {t : Table} {columns : List ColumnDef} {rows rows' : Row → Prop}

/-- Only the rows count, not how they are described. -/
theorem congr (h : t.Holds columns rows) (heq : ∀ row, rows row ↔ rows' row) :
    t.Holds columns rows' :=
  ⟨h.columns_eq, h.sequence_eq, fun row hr => h.within row ((heq row).2 hr),
    fun key row => (h.get?_iff key row).trans (and_congr_left' (heq row))⟩

/-- What a table holds determines it. -/
theorem unique {t' : Table} (h : t.Holds columns rows) (h' : t'.Holds columns rows) : t = t' := by
  have hrows : t.rows = t'.rows := SortedMap.ext_get? fun key =>
    Option.ext fun row => (h.get?_iff key row).trans (h'.get?_iff key row).symm
  obtain ⟨c, r, n⟩ := t
  obtain ⟨c', r', n'⟩ := t'
  cases hrows
  cases h.columns_eq.trans h'.columns_eq.symm
  cases h.sequence_eq.trans h'.sequence_eq.symm
  rfl

/-- The stored rows are those that the table holds under some identity. -/
theorem mem_values (h : t.Holds columns rows) {row : Row} :
    row ∈ t.rows.values ↔ rows row ∧ ∃ key, row.cell Column.id = .text key := by
  rw [SortedMap.mem_values]
  constructor
  · rintro ⟨key, hk⟩
    have ⟨hr, hid⟩ := (h.get?_iff key row).1 hk
    exact ⟨hr, key, hid⟩
  · rintro ⟨hr, key, hid⟩
    exact ⟨key, (h.get?_iff key row).2 ⟨hr, hid⟩⟩

/-- No row is stored twice. -/
theorem nodup_values (h : t.Holds columns rows) : t.rows.values.Nodup := by
  have hkeys : t.rows.values.map (fun row => row.cell Column.id) = t.rows.keys.map Value.text := by
    unfold SortedMap.values SortedMap.keys
    rw [List.map_map, List.map_map]
    refine List.map_congr_left fun e he => ?_
    exact ((h.get?_iff e.1 e.2).1 ((SortedMap.mem_entries_iff t.rows e).1 he)).2
  refine List.Nodup.of_map (fun row : Row => row.cell Column.id) ?_
  rw [hkeys]
  exact t.rows.nodup_keys.map fun _ _ => Value.text.inj

/-- A deletion keeps the rows that pass its test. -/
theorem filter (h : t.Holds columns rows) (p : Row → Bool) :
    Holds { t with rows := t.rows.filter fun _ row => p row } columns
      fun row => rows row ∧ p row = true := by
  refine ⟨h.columns_eq, h.sequence_eq, fun row hr => h.within row hr.1, fun key row => ?_⟩
  rw [SortedMap.get?_filter_eq_some, h.get?_iff]
  tauto

/-- A row stored under its identity takes the place of the one with the same identity. -/
theorem insert (h : t.Holds columns rows) {key : String} {row : Row}
    (hid : row.cell Column.id = .text key) (hw : row.Within columns) :
    Holds { t with rows := t.rows.insert key row } columns
      fun r => r = row ∨ rows r ∧ r.cell Column.id ≠ .text key := by
  refine ⟨h.columns_eq, h.sequence_eq, ?_, fun k r => ?_⟩
  · rintro r (rfl | hr)
    · exact hw
    · exact h.within r hr.1
  · rw [SortedMap.get?_insert_eq]
    by_cases hk : k = key
    · subst hk
      rw [if_pos rfl, Option.some.injEq]
      constructor
      · rintro rfl
        exact ⟨.inl rfl, hid⟩
      · rintro ⟨rfl | ⟨-, hne⟩, hr⟩
        · rfl
        · exact absurd hr hne
    · rw [if_neg hk, h.get?_iff]
      constructor
      · rintro ⟨hr, hrk⟩
        refine ⟨.inr ⟨hr, fun he => hk ?_⟩, hrk⟩
        exact Value.text.inj (hrk.symm.trans he)
      · rintro ⟨rfl | ⟨hr, -⟩, hrk⟩
        · exact absurd (Value.text.inj (hrk.symm.trans hid)) hk
        · exact ⟨hr, hrk⟩

/-- The key of a row is its identity. -/
theorem keyOf (h : t.Holds columns rows) (hkey : KeyedById columns) {row : Row} {key : String}
    (hid : row.cell Column.id = .text key) : t.keyOf row = .ok (key, t) := by
  unfold Table.keyOf keyColumn?
  rw [h.columns_eq, show (primaryKey? columns).map ColumnDef.name = some Column.id from hkey]
  dsimp only
  rw [hid]
  rfl

/-- A row that fits is upserted: it takes the place of the one with the same identity. -/
theorem upsertRow (h : t.Holds columns rows) (hkey : KeyedById columns) {values : List Value}
    (hfit : FitsColumns columns values) :
    ∃ t', Table.upsertRow columns t values = .ok t' ∧ t'.Holds columns fun r =>
      r = Row.ofCells columns values ∨
        rows r ∧ r.cell Column.id ≠ (Row.ofCells columns values).cell Column.id := by
  obtain ⟨key, hid⟩ := hfit.identity
  refine ⟨{ t with rows := t.rows.insert key (Row.ofCells columns values) }, ?_, ?_⟩
  · unfold Table.upsertRow
    rw [fullRow_of_fits h.columns_eq hfit]
    dsimp only [bind, Except.bind]
    rw [h.keyOf hkey hid]
    dsimp only
    cases hold : t.rows.get? key with
    | none => rfl
    | some stored =>
      have hwithin := h.within stored ((h.get?_iff key stored).1 hold).1
      have hmerge := Row.write_eq_ofCells hfit.length hwithin
      unfold Row.write at hmerge
      dsimp only
      rw [hmerge]
      rfl
  · rw [hid]
    exact h.insert hid (Row.ofCells_within hfit.length)

/-- A row that fits and whose identity is not there yet is inserted. -/
theorem insertRow (h : t.Holds columns rows) (hkey : KeyedById columns) (name : String)
    {values : List Value} (hfit : FitsColumns columns values)
    (hnew : ∀ r, rows r → r.cell Column.id ≠ (Row.ofCells columns values).cell Column.id) :
    ∃ t', Table.insertRow name columns t values = .ok t' ∧ t'.Holds columns fun r =>
      r = Row.ofCells columns values ∨ rows r := by
  obtain ⟨key, hid⟩ := hfit.identity
  rw [hid] at hnew
  have hfree : t.rows.contains key = false := by
    rw [SortedMap.contains_eq_false]
    cases hold : t.rows.get? key with
    | none => rfl
    | some stored =>
      have ⟨hr, hk⟩ := (h.get?_iff key stored).1 hold
      exact absurd hk (hnew stored hr)
  refine ⟨{ t with rows := t.rows.insert key (Row.ofCells columns values) }, ?_, ?_⟩
  · unfold Table.insertRow
    rw [fullRow_of_fits h.columns_eq hfit]
    dsimp only [bind, Except.bind]
    rw [h.keyOf hkey hid]
    simp [hfree, pure, Except.pure]
  · refine (h.insert hid (Row.ofCells_within hfit.length)).congr fun r => or_congr_right ?_
    exact and_iff_left_of_imp fun hr => hnew r hr

/-- Rows that fit, no two with one identity, are upserted: they take the place of those with the
same identities. -/
theorem upsertRows (h : t.Holds columns rows) (hkey : KeyedById columns) :
    ∀ {values : List (List Value)}, (∀ v ∈ values, FitsColumns columns v) →
      (values.map fun v => (Row.ofCells columns v).cell Column.id).Nodup →
      ∃ t', values.foldlM (Table.upsertRow columns) t = .ok t' ∧ t'.Holds columns fun r =>
        r ∈ values.map (Row.ofCells columns) ∨
          rows r ∧ ∀ n ∈ values.map (Row.ofCells columns), r.cell Column.id ≠ n.cell Column.id := by
  intro values
  induction values generalizing t rows with
  | nil => exact fun _ _ => ⟨t, rfl, h.congr fun r => by simp⟩
  | cons v values ih =>
    intro hfit hnodup
    rw [List.map_cons, List.nodup_cons] at hnodup
    obtain ⟨hv, hnodup⟩ := hnodup
    obtain ⟨t₁, hrun, h₁⟩ := h.upsertRow hkey (hfit v (List.mem_cons_self ..))
    obtain ⟨t', hruns, h'⟩ := ih h₁ (fun v hv => hfit v (List.mem_cons_of_mem _ hv)) hnodup
    refine ⟨t', ?_, h'.congr fun r => ?_⟩
    · rw [List.foldlM_cons, hrun]
      exact hruns
    · rw [List.map_cons, List.mem_cons, List.forall_mem_cons]
      constructor
      · rintro (hr | ⟨rfl | ⟨hr, hne⟩, hall⟩)
        · exact .inl (.inr hr)
        · exact .inl (.inl rfl)
        · exact .inr ⟨hr, hne, hall⟩
      · rintro ((rfl | hr) | ⟨hr, hne, hall⟩)
        · refine .inr ⟨.inl rfl, fun n hn he => hv ?_⟩
          obtain ⟨w, hw, rfl⟩ := List.mem_map.1 hn
          exact List.mem_map.2 ⟨w, hw, he.symm⟩
        · exact .inl hr
        · exact .inr ⟨.inr ⟨hr, hne⟩, hall⟩

/-- Rows that fit, no two with one identity and none with an identity that is there already, are
inserted. -/
theorem insertRows (h : t.Holds columns rows) (hkey : KeyedById columns) (name : String) :
    ∀ {values : List (List Value)}, (∀ v ∈ values, FitsColumns columns v) →
      (values.map fun v => (Row.ofCells columns v).cell Column.id).Nodup →
      (∀ r, rows r → ∀ n ∈ values.map (Row.ofCells columns),
        r.cell Column.id ≠ n.cell Column.id) →
      ∃ t', values.foldlM (Table.insertRow name columns) t = .ok t' ∧ t'.Holds columns fun r =>
        r ∈ values.map (Row.ofCells columns) ∨ rows r := by
  intro values
  induction values generalizing t rows with
  | nil => exact fun _ _ _ => ⟨t, rfl, h.congr fun r => by simp⟩
  | cons v values ih =>
    intro hfit hnodup hnew
    rw [List.map_cons, List.nodup_cons] at hnodup
    obtain ⟨hv, hnodup⟩ := hnodup
    obtain ⟨t₁, hrun, h₁⟩ := h.insertRow hkey name (hfit v (List.mem_cons_self ..))
      fun r hr => hnew r hr _ (List.mem_cons_self ..)
    have hnew₁ : ∀ r, r = Row.ofCells columns v ∨ rows r →
        ∀ n ∈ values.map (Row.ofCells columns), r.cell Column.id ≠ n.cell Column.id := by
      rintro r (rfl | hr) n hn
      · intro he
        obtain ⟨w, hw, rfl⟩ := List.mem_map.1 hn
        exact hv (List.mem_map.2 ⟨w, hw, he.symm⟩)
      · exact hnew r hr n (List.mem_cons_of_mem _ hn)
    obtain ⟨t', hruns, h'⟩ := ih h₁ (fun v hv => hfit v (List.mem_cons_of_mem _ hv)) hnodup hnew₁
    refine ⟨t', ?_, h'.congr fun r => ?_⟩
    · rw [List.foldlM_cons, hrun]
      exact hruns
    · rw [List.map_cons, List.mem_cons]
      tauto

end Holds

/-- A table has columns that are among its own. -/
theorem checkColumns_of_mem {t : Table} {given : List Ident}
    (h : ∀ c ∈ given, c ∈ t.columns.map ColumnDef.name) : t.checkColumns given = .ok () := by
  unfold checkColumns
  rw [List.find?_eq_none.2]
  intro c hc
  obtain ⟨d, hd, rfl⟩ := List.mem_map.1 (h c hc)
  have : t.hasColumn d.name = true := List.any_eq_true.2 ⟨d, hd, beq_self_eq_true _⟩
  simp [this]

/-- A table has the columns that it has. -/
theorem checkColumns_self {t : Table} {columns : List ColumnDef} (h : t.columns = columns) :
    t.checkColumns (columns.map ColumnDef.name) = .ok () :=
  checkColumns_of_mem fun _ hc => h ▸ hc

end Table

end ContentReplica
