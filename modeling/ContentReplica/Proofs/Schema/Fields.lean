import ContentReplica.Proofs.Replication.Records
import ContentReplica.Proofs.Schema.Tables

/-!
# The fields of compiled tables

The fields of a table have columns of their own (`Schema.Compiled.nodup_columns`), hence also
identities of their own, since the identity of a field settles its column. So a row has the cell of
each field where that field is looked for: `TableLayout.Carries` tells a row by the metadata and the
values that it was made of (`Mapping.carries_entryRow`, `Mapping.carries_assetRow`).
-/

namespace ContentReplica

/-! ## Columns of their own -/

namespace Schema

/-- Fields that pass the check have different columns, none of which was taken before. -/
theorem checkFields_eq_ok :
    ∀ {fields : List Field} {seen : List Ident}, checkFields seen fields = .ok () →
      (fields.map fun f => Naming.column f.id).Nodup ∧ ∀ f ∈ fields, Naming.column f.id ∉ seen := by
  intro fields
  induction fields with
  | nil => exact fun _ => ⟨.nil, fun _ hf => absurd hf List.not_mem_nil⟩
  | cons f fields ih =>
    intro seen h
    unfold checkFields at h
    obtain ⟨_, -, h⟩ := bind_eq_ok.1 h
    dsimp only at h
    split at h
    · cases h
    · next hseen =>
      obtain ⟨hnodup, hrest⟩ := ih h
      have hnew : Naming.column f.id ∉ seen := fun hm => hseen (List.contains_iff_mem.2 hm)
      refine ⟨List.nodup_cons.2 ⟨fun hm => ?_, hnodup⟩, List.forall_mem_cons.2 ⟨hnew, fun g hg hm =>
        hrest g hg (List.mem_cons_of_mem _ hm)⟩⟩
      obtain ⟨g, hg, he⟩ := List.mem_map.1 hm
      have hnone := hrest g hg
      rw [he] at hnone
      exact hnone (List.mem_cons_self ..)

/-- A content type that gets a table passed its check. -/
theorem checkType_of_mem_sift :
    ∀ {types : List ContentType} {taken : List Ident} {c : ContentType},
      c ∈ (sift taken types).1 → checkType c = .ok () := by
  intro types
  induction types with
  | nil => exact fun h => absurd h List.not_mem_nil
  | cons c' types ih =>
    intro taken c hc
    unfold sift at hc
    split at hc
    · exact ih hc
    · next hcheck =>
      dsimp only at hc
      split at hc
      · exact ih hc
      · rcases List.mem_cons.1 hc with rfl | hc
        · exact hcheck
        · exact ih hc

/-- Each table of a compiled schema is the layout of a content type that passed its check. -/
theorem Compiled.checked {s : Schema} (h : s.Compiled) :
    ∀ t ∈ s.tables, ∃ known c, checkType c = .ok () ∧ t = layoutType known c := by
  intro t ht
  cases h with
  | all types h =>
    rw [h] at ht
    obtain ⟨c, hc, rfl⟩ := List.mem_map.1 ht
    exact ⟨_, c, checkType_of_mem_sift hc, rfl⟩
  | one types id h =>
    unfold compileOne? at h
    split at h
    · cases h
    · dsimp only at h
      split at h
      · cases h
      · cases h
        obtain ⟨c, hc, rfl⟩ := List.mem_map.1 ht
        exact ⟨_, c, checkType_of_mem_sift (List.mem_of_mem_filter hc), rfl⟩

/-- The column of a field of a compiled table is named for the field. -/
theorem layoutField?_eq_some {known : List String} {table : Ident} {f : Field} {l : FieldLayout}
    (h : layoutField? known table f = some l) :
    l.fieldId = f.id ∧ l.column = Naming.column f.id := by
  unfold layoutField? at h
  split at h
  · cases h
  · cases h
    dsimp only
    exact ⟨rfl, rfl⟩

/-- The fields of a checked content type have columns of their own. -/
theorem nodup_columns_layoutType {c : ContentType} (hc : checkType c = .ok ()) (known : List String) :
    ((layoutType known c).fields.map FieldLayout.column).Nodup := by
  have hfields : checkFields [] c.delivered = .ok () := by
    unfold checkType at hc
    dsimp only at hc
    split at hc
    · cases hc
    · split at hc
      · cases hc
      · exact hc
  have hsublist : ((layoutType known c).fields.map FieldLayout.column).Sublist
      (c.delivered.map fun f => Naming.column f.id) :=
    map_filterMap_sublist (fun _ _ hl => (layoutField?_eq_some hl).2) c.delivered
  exact (checkFields_eq_ok hfields).1.sublist hsublist

/-- The fields of each table have columns of their own. -/
theorem Compiled.nodup_columns {s : Schema} (h : s.Compiled) :
    ∀ t ∈ s.allTables, (t.fields.map FieldLayout.column).Nodup := by
  intro t ht
  rcases List.mem_append.1 ht with ht | ht
  · obtain ⟨known, c, hc, rfl⟩ := h.checked t ht
    exact nodup_columns_layoutType hc known
  · have hcolumns : assetLayout.fields.map FieldLayout.column = [⟨"title"⟩, ⟨"description"⟩,
        ⟨"file_name"⟩, ⟨"content_type"⟩, ⟨"url"⟩] := by decide +kernel
    rw [List.mem_singleton.1 ht, hcolumns]
    decide

/-- The column of a field is named for it. -/
theorem Compiled.column_eq {s : Schema} (h : s.Compiled) :
    ∀ t ∈ s.allTables, ∀ f ∈ t.fields, f.column = Naming.column f.fieldId := by
  intro t ht f hf
  rcases List.mem_append.1 ht with ht | ht
  · obtain ⟨known, c, -, rfl⟩ := h.checked t ht
    obtain ⟨g, -, hg⟩ := List.mem_filterMap.1 hf
    obtain ⟨hid, hcolumn⟩ := layoutField?_eq_some hg
    rw [hid, hcolumn]
  · rw [List.mem_singleton.1 ht] at hf
    obtain ⟨g, -, rfl⟩ := List.mem_map.1 hf
    dsimp only

end Schema

/-- A field is found by its identity. -/
theorem TableLayout.field?_eq_some {s : Schema} (h : s.Compiled) {t : TableLayout}
    (ht : t ∈ s.allTables) {f : FieldLayout} (hf : f ∈ t.fields) : t.field? f.fieldId = some f := by
  cases hfound : t.field? f.fieldId with
  | none => exact absurd (List.find?_eq_none.1 hfound f hf) (by simp)
  | some g =>
    have hg := List.mem_of_find?_eq_some hfound
    have hid : g.fieldId = f.fieldId := by simpa using List.find?_some hfound
    have hcolumn : g.column = f.column := by
      rw [h.column_eq t ht g hg, h.column_eq t ht f hf, hid]
    rw [List.inj_on_of_nodup_map (h.nodup_columns t ht) hg hf hcolumn]

/-- The fields of a table have identities of their own. -/
theorem Schema.Compiled.nodup_fieldIds {s : Schema} (h : s.Compiled) {t : TableLayout}
    (ht : t ∈ s.allTables) : (t.fields.map FieldLayout.fieldId).Nodup := by
  have hnodup := h.nodup_columns t ht
  have hnamed : t.fields.map FieldLayout.column
      = (t.fields.map FieldLayout.fieldId).map Naming.column := by
    rw [List.map_map]
    refine List.map_congr_left fun f hf => ?_
    rw [Function.comp_apply, h.column_eq t ht f hf]
  rw [hnamed] at hnodup
  exact .of_map _ hnodup

/-! ## Cells of a row -/

namespace Row

/-- A written cell is read back if no other cell has its column. -/
theorem get?_write_of_mem {c : ColumnDef} {v : Value} :
    ∀ {cells : List (ColumnDef × Value)} {row : Row}, (cells.map (·.1.name)).Nodup →
      (c, v) ∈ cells → (row.write cells).get? c.name = some v := by
  intro cells
  induction cells with
  | nil => exact fun _ h => absurd h List.not_mem_nil
  | cons cell cells ih =>
    intro row hnodup h
    rw [List.map_cons, List.nodup_cons] at hnodup
    have hcons : row.write (cell :: cells) = write (row.insert cell.1.name cell.2) cells := rfl
    rw [hcons]
    rcases List.mem_cons.1 h with rfl | h
    · rw [get?_write, if_neg hnodup.1]
      exact SortedMap.get?_insert_self ..
    · exact ih hnodup.2 h

/-- A row of cells holds each of them in its column if the columns differ. -/
theorem cell_ofCells_of_mem {columns : List ColumnDef} {values : List Value} {c : ColumnDef}
    {v : Value} (hlength : values.length = columns.length)
    (hnodup : (columns.map ColumnDef.name).Nodup) (h : (c, v) ∈ columns.zip values) :
    (ofCells columns values).cell c.name = v := by
  unfold cell ofCells
  rw [get?_write_of_mem (by rwa [map_name_zip hlength]) h]
  rfl

end Row

/-- The columns of a compiled table differ. -/
theorem Schema.Compiled.nodup_columnNames {s : Schema} (h : s.Compiled) {t : TableLayout}
    (ht : t ∈ s.allTables) : (t.columns.map ColumnDef.name).Nodup := by
  have hfields : ((t.fields.filterMap FieldLayout.columnDef?).map ColumnDef.name).Sublist
      (t.fields.map FieldLayout.column) := by
    refine map_filterMap_sublist (fun f c hc => ?_) t.fields
    obtain ⟨type, -, rfl⟩ := Option.map_eq_some_iff.1 hc
    rfl
  rw [TableLayout.columns, List.map_append, List.nodup_append]
  refine ⟨by decide, (h.nodup_columns t ht).sublist hfields, fun name hname name' hname' he => ?_⟩
  obtain ⟨f, hf, rfl⟩ := List.mem_map.1 (hfields.subset hname')
  have hreserved : ∀ name ∈ systemColumns.map ColumnDef.name, name ∈ Column.reserved := by decide
  exact h.column_not_reserved t ht f hf (he ▸ hreserved name hname)

/-- Each cell of a field stands beside the column of its field. -/
theorem mem_zip_of_filterMapM {cell? : FieldLayout → Except Error (Option Value)} :
    ∀ {fields : List FieldLayout} {cells : List Value},
      (∀ f ∈ fields, ∀ o, cell? f = .ok o → o.isSome = f.columnDef?.isSome) →
      fields.filterMapM cell? = .ok cells →
      ∀ f ∈ fields, ∃ o, cell? f = .ok o ∧ ∀ v, o = some v → ∃ c, f.columnDef? = some c ∧
        (c, v) ∈ (fields.filterMap FieldLayout.columnDef?).zip cells := by
  intro fields
  induction fields with
  | nil => exact fun _ _ _ hf => absurd hf List.not_mem_nil
  | cons f fields ih =>
    intro cells hcell h
    obtain ⟨hfirst, hcell⟩ := List.forall_mem_cons.1 hcell
    rw [List.filterMapM_cons] at h
    obtain ⟨o, ho, h⟩ := bind_eq_ok.1 h
    have hsome := hfirst o ho
    cases o with
    | none =>
      have hnone : f.columnDef? = none := Option.isNone_iff_eq_none.1 (by simpa using hsome.symm)
      rw [List.filterMap_cons_none hnone]
      exact List.forall_mem_cons.2 ⟨⟨none, ho, nofun⟩, ih hcell h⟩
    | some v =>
      obtain ⟨c, hc⟩ := Option.isSome_iff_exists.1 hsome.symm
      obtain ⟨rest, hrest, h⟩ := bind_eq_ok.1 h
      obtain rfl := pure_eq_ok.1 h
      rw [List.filterMap_cons_some hc, List.zip_cons_cons]
      refine List.forall_mem_cons.2 ⟨⟨some v, ho, fun v' he => ⟨c, hc, ?_⟩⟩, fun g hg => ?_⟩
      · exact Option.some.inj he ▸ List.mem_cons_self ..
      · obtain ⟨o, ho, hzip⟩ := ih hcell hrest g hg
        refine ⟨o, ho, fun v' he => ?_⟩
        obtain ⟨c', hc', hm⟩ := hzip v' he
        exact ⟨c', hc', List.mem_cons_of_mem _ hm⟩

/-! ## What a row carries -/

/-- A field has a column when its placement has one. -/
theorem FieldLayout.isSome_columnDef? {f : FieldLayout} {placement : Placement}
    (h : f.placement = placement) : f.columnDef?.isSome = placement.columnType?.isSome := by
  unfold columnDef?
  rw [Option.isSome_map, h]

/-- A row is that of a record in a locale: it holds the metadata, and a value for each field that has
a column. -/
structure TableLayout.Carries (t : TableLayout) (sys : RecordSys) (locale : String)
    (value : FieldLayout → Value) (row : Row) : Prop where
  rowOf : RowOf sys.id locale row
  version : row.cell Column.version = .int sys.version
  createdAt : row.cell Column.createdAt = .ofText? sys.createdAt?
  updatedAt : row.cell Column.updatedAt = .ofText? sys.updatedAt?
  field : ∀ f ∈ t.fields, f.columnDef?.isSome = true → row.cell f.column = value f

/-- A row of cells carries them. -/
theorem Schema.Compiled.carries {s : Schema} (h : s.Compiled) {t : TableLayout}
    (ht : t ∈ s.allTables) (sys : RecordSys) (locale : String) {value : FieldLayout → Value}
    {cells : List Value} (hlength : cells.length = (t.fields.filterMap FieldLayout.columnDef?).length)
    (hcells : ∀ f ∈ t.fields, ∀ c, f.columnDef? = some c →
      (c, value f) ∈ (t.fields.filterMap FieldLayout.columnDef?).zip cells) :
    t.Carries sys locale value
      (Row.ofCells t.columns (Mapping.systemCells sys locale ++ cells)) := by
  have hwidth : (Mapping.systemCells sys locale ++ cells).length = t.columns.length := by
    rw [List.length_append, hlength, TableLayout.columns, List.length_append]
    rfl
  have hcell {c : ColumnDef} {v : Value} (hm : (c, v) ∈
      systemColumns.zip (Mapping.systemCells sys locale) ++
        (t.fields.filterMap FieldLayout.columnDef?).zip cells) :
      (Row.ofCells t.columns (Mapping.systemCells sys locale ++ cells)).cell c.name = v := by
    have hsystem : systemColumns.length = (Mapping.systemCells sys locale).length := rfl
    refine Row.cell_ofCells_of_mem hwidth (h.nodup_columnNames ht) ?_
    rwa [TableLayout.columns, List.zip_append hsystem]
  have hsystem {c : ColumnDef} {v : Value} (hm : (c, v) ∈
      systemColumns.zip (Mapping.systemCells sys locale)) := hcell (List.mem_append_left _ hm)
  refine ⟨(fits_systemCells (h.column_not_reserved t ht) sys locale hlength).2,
    hsystem (c := .optional Column.version .integer) ?_,
    hsystem (c := .optional Column.createdAt .date) ?_,
    hsystem (c := .optional Column.updatedAt .date) ?_, fun f hf hsome => ?_⟩
  · simp [systemColumns, Mapping.systemCells]
  · simp [systemColumns, Mapping.systemCells]
  · simp [systemColumns, Mapping.systemCells]
  · obtain ⟨c, hc⟩ := Option.isSome_iff_exists.1 hsome
    obtain ⟨type, -, rfl⟩ := Option.map_eq_some_iff.1 hc
    exact hcell (List.mem_append_right _ (hcells f hf _ hc))

namespace Mapping

variable {m : Mapping} {t : TableLayout} {locale : String}

/-- The value that an entry leaves in the column of a field in one locale. -/
def entryValue (m : Mapping) (t : TableLayout) (e : Entry) (locale : String) (f : FieldLayout) :
    Value :=
  match m.fieldCell? t e locale f with
  | .ok (some v) => v
  | _ => .null

/-- The row of an entry carries the values of its fields, all of which convert. -/
theorem carries_entryRow (h : m.schema.Compiled) (ht : t ∈ m.schema.allTables) {e : Entry}
    {values : List Value} (hrow : m.entryRow t e locale = .ok values) :
    t.Carries e.sys locale (m.entryValue t e locale) (Row.ofCells t.columns values) ∧
      ∀ f ∈ t.fields, ∃ o, m.fieldCell? t e locale f = .ok o := by
  obtain ⟨cells, hcells, hrow⟩ := bind_eq_ok.1 hrow
  obtain rfl := pure_eq_ok.1 hrow
  have hzip := mem_zip_of_filterMapM (fun f _ o ho => isSome_fieldCell? ho) hcells
  refine ⟨h.carries ht e.sys locale (length_fieldCells hcells) fun f hf c hc => ?_, fun f hf => ?_⟩
  · obtain ⟨o, ho, hm⟩ := hzip f hf
    have hsome : o.isSome = true := by rw [isSome_fieldCell? ho, hc]; rfl
    obtain ⟨v, rfl⟩ := Option.isSome_iff_exists.1 hsome
    obtain ⟨c', hc', hm⟩ := hm v rfl
    obtain rfl := Option.some.inj (hc.symm.trans hc')
    unfold entryValue
    rw [ho]
    exact hm
  · obtain ⟨o, ho, -⟩ := hzip f hf
    exact ⟨o, ho⟩

/-- The value that an asset leaves in the column of a field in one locale. -/
def assetValue (m : Mapping) (a : Asset) (locale : String) (f : FieldLayout) : Value :=
  match AssetField.all.find? fun g => g.id = f.fieldId with
  | some g => .ofText? (m.assetText? a locale g)
  | none => .null

/-- The row of an asset carries its texts. -/
theorem carries_assetRow (h : m.schema.Compiled) (a : Asset) :
    assetLayout.Carries a.sys locale (m.assetValue a locale)
      (Row.ofCells assetLayout.columns (m.assetRow a locale)) := by
  refine h.carries (List.mem_append_right _ (List.mem_singleton_self _)) a.sys locale rfl
    fun f hf c hc => ?_
  obtain ⟨g, -, rfl⟩ := List.mem_map.1 hf
  obtain rfl := Option.some.inj hc
  cases g <;> simp [assetLayout, AssetField.all, FieldLayout.columnDef?, Placement.columnType?,
    assetValue, AssetField.id]

end Mapping

end ContentReplica
