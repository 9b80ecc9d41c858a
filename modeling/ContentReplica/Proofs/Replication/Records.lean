import ContentReplica.Proofs.Schema.Tables
import ContentReplica.Replication.PageBatch

/-!
# The rows of a record

What `Mapping.entryRows` and `Mapping.assetRows` make of a record. `RecordRows.Describes t codes r`
says that `r` fits the table `t` and the link tables of `t`: each row is that of the record in one
locale (`RowOf`), each edge belongs to such a row (`EdgeOf`), and no two have one identity. Every
record that converts is of this kind (`Mapping.describes_entryRows`, `Mapping.describes_assetRows`).

Identities are texts joined by `_`. Where locale codes can be told from what stands before them
(`Naming.Apart`), as codes without `_` can, the identity of a row settles its record and its locale
(`Naming.Apart.rowId_inj`).
-/

namespace ContentReplica

/-! ## Identities -/

namespace Naming

/-- Codes that can be told from what stands before them: none of them ends in the separator and
another. -/
def Apart (codes : List String) : Prop :=
  ∀ code ∈ codes, ∀ other ∈ codes, ¬ '_' :: other.toList <:+ code.toList

instance (codes : List String) : Decidable (Apart codes) :=
  inferInstanceAs (Decidable (∀ code ∈ codes, ∀ other ∈ codes, _))

/-- The identity of a row settles the record and the locale, unless one of two locales ends in the
separator and the other. -/
theorem eq_of_rowId_eq {sysId sysId' locale locale' : String}
    (hl : ¬ '_' :: locale'.toList <:+ locale.toList) (hl' : ¬ '_' :: locale.toList <:+ locale'.toList)
    (h : rowId sysId locale = rowId sysId' locale') : sysId = sysId' ∧ locale = locale' := by
  have hlist : sysId.toList ++ '_' :: locale.toList = sysId'.toList ++ '_' :: locale'.toList := by
    have := congrArg String.toList h
    simpa [rowId, String.toList_append] using this
  rcases List.append_eq_append_iff.1 hlist with ⟨cs, hcs, htail⟩ | ⟨cs, hcs, htail⟩
  · cases cs with
    | nil => exact ⟨String.toList_inj.1 (by simpa using hcs.symm),
        String.toList_inj.1 (List.cons.inj htail).2⟩
    | cons c cs => exact absurd ⟨cs, (List.cons.inj htail).2.symm⟩ hl
  · cases cs with
    | nil => exact ⟨String.toList_inj.1 (by simpa using hcs),
        String.toList_inj.1 (List.cons.inj htail).2.symm⟩
    | cons c cs => exact absurd ⟨cs, (List.cons.inj htail).2.symm⟩ hl'

/-- A text without the separator does not end in it and something else. -/
theorem not_suffix_of_plain {code other : String} (h : '_' ∉ code.toList) :
    ¬ '_' :: other.toList <:+ code.toList :=
  fun hsuffix => h (hsuffix.subset (List.mem_cons_self ..))

/-- The identity of a row settles the record and the locale, if locales hold no separator. -/
theorem rowId_inj {sysId sysId' locale locale' : String} (hl : '_' ∉ locale.toList)
    (hl' : '_' ∉ locale'.toList) (h : rowId sysId locale = rowId sysId' locale') :
    sysId = sysId' ∧ locale = locale' :=
  eq_of_rowId_eq (not_suffix_of_plain hl) (not_suffix_of_plain hl') h

/-- Codes without the separator can be told from what stands before them. -/
theorem apart_of_plain {codes : List String} (h : ∀ code ∈ codes, '_' ∉ code.toList) :
    Apart codes :=
  fun code hcode _ _ => not_suffix_of_plain (h code hcode)

/-- Where codes can be told from what stands before them, the identity of a row settles the record
and the locale. -/
theorem Apart.rowId_inj {codes : List String} (h : Apart codes) {sysId sysId' locale locale' : String}
    (hl : locale ∈ codes) (hl' : locale' ∈ codes) (hid : rowId sysId locale = rowId sysId' locale') :
    sysId = sysId' ∧ locale = locale' :=
  eq_of_rowId_eq (h _ hl _ hl') (h _ hl' _ hl) hid

/-- The identities of one record's rows settle their locales. -/
theorem rowId_inj_right {sysId locale locale' : String}
    (h : rowId sysId locale = rowId sysId locale') : locale = locale' := by
  have := congrArg String.toList h
  simp only [rowId, String.toList_append, List.append_assoc] at this
  exact String.toList_inj.1 (List.append_cancel_left (List.append_cancel_left this))

/-- A number is written without the separator. -/
theorem separator_notMem_toString (n : Nat) : '_' ∉ (toString n).toList := by
  rw [Nat.toString_eq_repr, Nat.toList_repr]
  exact Nat.underscore_not_in_toDigits

/-- A number is settled by how it is written. -/
theorem toString_inj {n n' : Nat} (h : toString n = toString n') : n = n' := by
  rw [Nat.toString_eq_repr, Nat.toString_eq_repr] at h
  have hdigits := congrArg String.toList h
  rw [Nat.toList_repr, Nat.toList_repr] at hdigits
  rw [← Nat.ofDigitChars_ten_toDigits (n := n), hdigits, Nat.ofDigitChars_ten_toDigits]

end Naming

/-! ## Rows and edges -/

/-- A row is that of a record in a locale. -/
structure RowOf (sysId locale : String) (row : Row) : Prop where
  id : row.cell Column.id = .text (Naming.rowId sysId locale)
  sysId : row.cell Column.sysId = .text sysId
  locale : row.cell Column.locale = .text locale

/-- A row is the edge at a position of an array of links, for a record in a locale. -/
structure EdgeOf (sysId locale : String) (position : Nat) (row : Row) : Prop where
  id : row.cell Column.id
    = .text (Naming.rowId (Naming.rowId sysId locale) (toString position))
  ownerId : row.cell Column.ownerId = .text (Naming.rowId sysId locale)
  ownerSysId : row.cell Column.ownerSysId = .text sysId

/-- The identity of an edge settles the row that owns it, and its position. -/
theorem EdgeOf.owner_inj {sysId sysId' locale locale' : String} {position position' : Nat}
    {row row' : Row} (h : EdgeOf sysId locale position row)
    (h' : EdgeOf sysId' locale' position' row') (hid : row.cell Column.id = row'.cell Column.id) :
    Naming.rowId sysId locale = Naming.rowId sysId' locale' ∧ position = position' := by
  rw [h.id, h'.id, Value.text.injEq] at hid
  obtain ⟨howner, hposition⟩ := Naming.rowId_inj (Naming.separator_notMem_toString _)
    (Naming.separator_notMem_toString _) hid
  exact ⟨howner, Naming.toString_inj hposition⟩

/-- The identity of a row settles its record and locale. -/
theorem RowOf.inj {codes : List String} (hcodes : Naming.Apart codes)
    {sysId sysId' locale locale' : String} {row row' : Row} (h : RowOf sysId locale row)
    (h' : RowOf sysId' locale' row') (hl : locale ∈ codes) (hl' : locale' ∈ codes)
    (hid : row.cell Column.id = row'.cell Column.id) : sysId = sysId' ∧ locale = locale' := by
  rw [h.id, h'.id, Value.text.injEq] at hid
  exact hcodes.rowId_inj hl hl' hid

/-- An edge belongs to the record of the row that owns it. -/
theorem EdgeOf.sysId_eq_of_owner {codes : List String} (hcodes : Naming.Apart codes)
    {sysId sysId' locale locale' key : String} {position : Nat} {row owner : Row}
    (h : EdgeOf sysId locale position row) (howner : RowOf sysId' locale' owner)
    (hl : locale ∈ codes) (hl' : locale' ∈ codes) (hid : owner.cell Column.id = .text key)
    (hkey : (row.cell Column.ownerId).toText? = some key) : sysId = sysId' := by
  rw [howner.id, Value.text.injEq] at hid
  rw [h.ownerId] at hkey
  have hids : Naming.rowId sysId locale = Naming.rowId sysId' locale' :=
    (Option.some.inj hkey).trans hid.symm
  exact (hcodes.rowId_inj hl hl' hids).1

/-- Rows and edges of a record as they fit its table and link tables. -/
structure RecordRows.Describes (t : TableLayout) (codes : List String) (r : RecordRows) : Prop where
  table_eq : r.table = t.name
  columns_eq : r.columns = t.columns
  rows_fit : ∀ values ∈ r.rows, FitsColumns t.columns values
  rowOf : List.Forall₂ (fun locale values => RowOf r.sysId locale (Row.ofCells t.columns values))
    r.locales r.rows
  locales_nodup : r.locales.Nodup
  locales_subset : ∀ locale ∈ r.locales, locale ∈ codes
  links_eq : r.edges.map EdgeSet.linkTable = t.linkTables.map LinkTable.name
  edges_fit : ∀ set ∈ r.edges, ∀ values ∈ set.rows, FitsColumns LinkTable.columns values
  edgeOf : ∀ set ∈ r.edges, ∀ values ∈ set.rows, ∃ locale ∈ r.locales, ∃ position,
    EdgeOf r.sysId locale position (Row.ofCells LinkTable.columns values)
  edges_nodup : ∀ set ∈ r.edges,
    (set.rows.map fun values => (Row.ofCells LinkTable.columns values).cell Column.id).Nodup

namespace RecordRows.Describes

variable {t : TableLayout} {codes : List String} {r : RecordRows}

/-- Each row of a record is that of the record in one of its locales. -/
theorem rowOf_of_mem (h : r.Describes t codes) {row : Row}
    (hrow : row ∈ r.rows.map (Row.ofCells t.columns)) :
    ∃ locale ∈ r.locales, RowOf r.sysId locale row := by
  obtain ⟨values, hv, rfl⟩ := List.mem_map.1 hrow
  exact exists_left_of_forall₂ h.rowOf hv

/-- A record has a row in each of its locales. -/
theorem exists_rowOf (h : r.Describes t codes) {locale : String} (hl : locale ∈ r.locales) :
    ∃ row ∈ r.rows.map (Row.ofCells t.columns), RowOf r.sysId locale row := by
  obtain ⟨values, hv, hrow⟩ := exists_right_of_forall₂ h.rowOf hl
  exact ⟨_, List.mem_map_of_mem hv, hrow⟩

/-- No two rows of a record have one identity. -/
theorem rows_nodup (h : r.Describes t codes) :
    (r.rows.map fun values => (Row.ofCells t.columns values).cell Column.id).Nodup := by
  have hids : r.rows.map (fun values => (Row.ofCells t.columns values).cell Column.id)
      = r.locales.map fun locale => .text (Naming.rowId r.sysId locale) :=
    map_eq_of_forall₂ h.rowOf fun _ _ hrow => hrow.id
  rw [hids]
  exact h.locales_nodup.map fun _ _ he => Naming.rowId_inj_right (Value.text.inj he)

/-- The edges of a record stand in link tables of its table. -/
theorem exists_link (h : r.Describes t codes) {set : EdgeSet} (hset : set ∈ r.edges) :
    ∃ l ∈ t.linkTables, l.name = set.linkTable := by
  have hm : set.linkTable ∈ t.linkTables.map LinkTable.name :=
    h.links_eq ▸ List.mem_map_of_mem hset
  exact List.mem_map.1 hm

end RecordRows.Describes

/-! ## Cells -/

/-- A column that only the first cells have holds what they say. -/
theorem Row.cell_ofCells_append {columns columns' : List ColumnDef} {values values' : List Value}
    (hlength : values.length = columns.length) (hlength' : values'.length = columns'.length)
    {name : Ident} (hname : name ∉ columns'.map ColumnDef.name) :
    (ofCells (columns ++ columns') (values ++ values')).cell name
      = (ofCells columns values).cell name := by
  have hzip : (columns ++ columns').zip (values ++ values')
      = columns.zip values ++ columns'.zip values' := List.zip_append hlength.symm
  have hwrite : ofCells (columns ++ columns') (values ++ values')
      = (ofCells columns values).write (columns'.zip values') := by
    unfold ofCells write
    rw [hzip, List.foldl_append]
  unfold Row.cell
  rw [hwrite, get?_write, map_name_zip hlength', if_neg hname]

/-- The names of the columns of fields. -/
theorem TableLayout.name_of_fieldColumn {t : TableLayout} {c : ColumnDef}
    (h : c ∈ t.fields.filterMap FieldLayout.columnDef?) :
    c.notNull = false ∧ ∃ f ∈ t.fields, c.name = f.column := by
  obtain ⟨f, hf, hc⟩ := List.mem_filterMap.1 h
  obtain ⟨type, -, rfl⟩ := Option.map_eq_some_iff.1 hc
  exact ⟨rfl, f, hf, rfl⟩

/-- The cells that describe a record, followed by one for each column of a field, are a row of the
record. -/
theorem fits_systemCells {t : TableLayout} (hcolumns : ∀ f ∈ t.fields, f.column ∉ Column.reserved)
    (sys : RecordSys) (locale : String) {rest : List Value}
    (hlength : rest.length = (t.fields.filterMap FieldLayout.columnDef?).length) :
    FitsColumns t.columns (Mapping.systemCells sys locale ++ rest) ∧
      RowOf sys.id locale (Row.ofCells t.columns (Mapping.systemCells sys locale ++ rest)) := by
  have hcell : ∀ name ∈ Column.reserved,
      (Row.ofCells t.columns (Mapping.systemCells sys locale ++ rest)).cell name
        = (Row.ofCells systemColumns (Mapping.systemCells sys locale)).cell name := by
    intro name hname
    refine Row.cell_ofCells_append rfl hlength fun hm => ?_
    obtain ⟨c, hc, rfl⟩ := List.mem_map.1 hm
    obtain ⟨-, f, hf, he⟩ := TableLayout.name_of_fieldColumn hc
    exact hcolumns f hf (he ▸ hname)
  have hrow : RowOf sys.id locale
      (Row.ofCells t.columns (Mapping.systemCells sys locale ++ rest)) := by
    refine ⟨?_, ?_, ?_⟩
    · rw [hcell Column.id (by decide)]
      rfl
    · rw [hcell Column.sysId (by decide)]
      rfl
    · rw [hcell Column.locale (by decide)]
      rfl
  refine ⟨⟨?_, fun c hc hn => ?_, _, hrow.id⟩, hrow⟩
  · rw [List.length_append, hlength, TableLayout.columns, List.length_append]
    rfl
  · rcases List.mem_append.1 hc with hc | hc
    · have hrequired : ∀ c ∈ systemColumns, c.notNull = true →
          c.name = Column.id ∨ c.name = Column.sysId ∨ c.name = Column.locale := by decide
      rcases hrequired c hc hn with he | he | he
      · rw [he, hrow.id]
        rfl
      · rw [he, hrow.sysId]
        rfl
      · rw [he, hrow.locale]
        rfl
    · rw [(TableLayout.name_of_fieldColumn hc).1] at hn
      cases hn

/-- The cells of an edge are a row of its link table. -/
theorem fits_edgeRow {sysId fieldId locale : String} {position : Nat} {item : Json}
    {values : List Value} (h : Mapping.edgeRow sysId fieldId locale position item = .ok values) :
    FitsColumns LinkTable.columns values ∧
      EdgeOf sysId locale position (Row.ofCells LinkTable.columns values) := by
  unfold Mapping.edgeRow at h
  split at h
  · cases h
  · cases h
    refine ⟨⟨rfl, fun c hc hn => ?_, _, rfl⟩, rfl, rfl, rfl⟩
    have hrequired : c.name ∈ [Column.id, Column.ownerId, Column.ownerSysId, Column.targetSysId,
        Column.locale, Column.position] := by
      revert c
      decide
    simp only [List.mem_cons, List.not_mem_nil, or_false] at hrequired
    rcases hrequired with he | he | he | he | he | he
    all_goals
      rw [he]
      rfl

/-! ## Assets -/

variable {m : Mapping}

/-- The rows of a record have locales of the space. -/
theorem Mapping.mem_rowLocales {keys : List String} {locale : String}
    (h : locale ∈ m.rowLocales keys) : locale ∈ m.space.localeCodes :=
  List.mem_of_mem_filter h

/-- The default locale of the space always has a row. -/
theorem Mapping.default_mem_rowLocales (keys : List String)
    (h : m.default ∈ m.space.localeCodes) : m.default ∈ m.rowLocales keys :=
  List.mem_filter.2 ⟨h, by simp⟩

/-- The rows of an asset are described by the table of assets. -/
theorem Mapping.describes_assetRows (hcodes : m.space.localeCodes.Nodup) (a : Asset) :
    (m.assetRows a).Describes assetLayout m.space.localeCodes := by
  have hcolumns : ∀ f ∈ assetLayout.fields, f.column ∉ Column.reserved := by
    intro f hf
    obtain ⟨g, -, rfl⟩ := List.mem_map.1 hf
    dsimp only
    exact Naming.column_not_reserved g.id
  have hfits (locale : String) : FitsColumns assetLayout.columns (m.assetRow a locale) ∧
      RowOf a.sys.id locale (Row.ofCells assetLayout.columns (m.assetRow a locale)) :=
    fits_systemCells hcolumns a.sys locale rfl
  exact
    { table_eq := rfl
      columns_eq := rfl
      rows_fit := fun values hv => by
        obtain ⟨locale, -, rfl⟩ := List.mem_map.1 hv
        exact (hfits locale).1
      rowOf := List.forall₂_map_right_iff.2 (List.forall₂_same.2 fun locale _ => (hfits locale).2)
      locales_nodup := hcodes.filter _
      locales_subset := fun _ h => Mapping.mem_rowLocales h
      links_eq := rfl
      edges_fit := nofun
      edgeOf := nofun
      edges_nodup := nofun }

/-! ## Entries -/

/-- A field has a cell when it has a column. -/
theorem Mapping.isSome_fieldCell? {t : TableLayout} {e : Entry} {locale : String} {f : FieldLayout}
    {cell : Option Value} (h : m.fieldCell? t e locale f = .ok cell) :
    cell.isSome = f.columnDef?.isSome := by
  unfold Mapping.fieldCell? at h
  unfold FieldLayout.columnDef? Placement.columnType?
  dsimp only at h
  generalize m.payload? e f.fieldId (if f.localized then locale else m.default) = payload at h
  generalize f.placement = placement at h ⊢
  cases placement with
  | links table target =>
    cases h
    rfl
  | link target =>
    cases payload with
    | none =>
      cases h
      rfl
    | some p =>
      dsimp only at h
      cases hcell : linkCell p <;> rw [hcell] at h <;> cases h
      rfl
  | value type =>
    cases payload with
    | none =>
      cases h
      rfl
    | some p =>
      dsimp only at h
      cases hcell : Value.ofPayload ((lenientFields t).contains f.fieldId) type p <;>
        rw [hcell] at h <;> cases h
      rfl

/-- An entry has one cell for each column of a field. -/
theorem Mapping.length_fieldCells {t : TableLayout} {e : Entry} {locale : String} :
    ∀ {fields : List FieldLayout} {cells : List Value},
      fields.filterMapM (m.fieldCell? t e locale) = .ok cells →
      cells.length = (fields.filterMap FieldLayout.columnDef?).length := by
  intro fields
  induction fields with
  | nil =>
    intro cells h
    rw [List.filterMapM_nil, pure_eq_ok] at h
    rw [← h]
    rfl
  | cons f fields ih =>
    intro cells h
    rw [List.filterMapM_cons] at h
    obtain ⟨cell, hcell, h⟩ := bind_eq_ok.1 h
    have hsome := Mapping.isSome_fieldCell? hcell
    cases cell with
    | none =>
      rw [List.filterMap_cons_none (Option.isNone_iff_eq_none.1 (by simpa using hsome.symm))]
      exact ih h
    | some v =>
      obtain ⟨c, hc⟩ := Option.isSome_iff_exists.1 hsome.symm
      obtain ⟨rest, hrest, h⟩ := bind_eq_ok.1 h
      rw [List.filterMap_cons_some hc, ← pure_eq_ok.1 h, List.length_cons, List.length_cons,
        ih hrest]

/-- The elements of an array of links in one locale are edges of the entry in that locale, no two
with one identity. -/
theorem Mapping.edgesOf_edgeRows {e : Entry} {fieldId locale : String} {rows : List (List Value)}
    (h : m.edgeRows e fieldId locale = .ok rows) :
    (∀ values ∈ rows, FitsColumns LinkTable.columns values ∧
      ∃ position, EdgeOf e.sys.id locale position (Row.ofCells LinkTable.columns values)) ∧
    (rows.map fun values => (Row.ofCells LinkTable.columns values).cell Column.id).Nodup := by
  unfold Mapping.edgeRows at h
  split at h
  · cases h
    exact ⟨nofun, .nil⟩
  · cases h
    exact ⟨nofun, .nil⟩
  · next items _ =>
    have hrow : ∀ (x : Json × Nat) values,
        edgeRow e.sys.id fieldId locale x.2 x.1 = .ok values →
        (Row.ofCells LinkTable.columns values).cell Column.id
          = .text (Naming.rowId (Naming.rowId e.sys.id locale) (toString x.2)) :=
      fun x values hx => (fits_edgeRow hx).2.id
    refine ⟨fun values hv => ?_, ?_⟩
    · obtain ⟨x, -, hx⟩ := exists_of_mapM h hv
      obtain ⟨hfits, hedge⟩ := fits_edgeRow hx
      exact ⟨hfits, x.2, hedge⟩
    · rw [map_eq_of_mapM h hrow]
      have hpositions : (items.zipIdx.map Prod.snd).Nodup := by
        rw [List.zipIdx_map_snd]
        exact List.nodup_range'
      have hinj : Function.Injective fun position : Nat =>
          Value.text (Naming.rowId (Naming.rowId e.sys.id locale) (toString position)) :=
        fun _ _ he => Naming.toString_inj (Naming.rowId_inj_right (Value.text.inj he))
      have := hpositions.map hinj
      rwa [List.map_map] at this
  · cases h

/-- The edges of an entry in several locales belong to rows in these locales, no two with one
identity. -/
theorem Mapping.edgesOf_locales {e : Entry} {fieldId : String} :
    ∀ {locales : List String} {rowss : List (List (List Value))}, locales.Nodup →
      locales.mapM (m.edgeRows e fieldId) = .ok rowss →
      (∀ values ∈ rowss.flatten, FitsColumns LinkTable.columns values ∧ ∃ locale ∈ locales,
        ∃ position, EdgeOf e.sys.id locale position (Row.ofCells LinkTable.columns values)) ∧
      (rowss.flatten.map fun values =>
        (Row.ofCells LinkTable.columns values).cell Column.id).Nodup := by
  intro locales
  induction locales with
  | nil =>
    intro rowss _ h
    rw [List.mapM_nil, pure_eq_ok] at h
    subst h
    exact ⟨nofun, .nil⟩
  | cons locale locales ih =>
    intro rowss hnodup h
    rw [List.nodup_cons] at hnodup
    rw [List.mapM_cons] at h
    obtain ⟨rows, hrows, h⟩ := bind_eq_ok.1 h
    obtain ⟨rest, hrest, h⟩ := bind_eq_ok.1 h
    obtain rfl := pure_eq_ok.1 h
    obtain ⟨hfirst, hfirstIds⟩ := Mapping.edgesOf_edgeRows hrows
    obtain ⟨hothers, hotherIds⟩ := ih hnodup.2 hrest
    rw [List.flatten_cons]
    constructor
    · intro values hv
      rcases List.mem_append.1 hv with hv | hv
      · obtain ⟨hfits, position, hedge⟩ := hfirst values hv
        exact ⟨hfits, locale, List.mem_cons_self .., position, hedge⟩
      · obtain ⟨hfits, l, hl, hedge⟩ := hothers values hv
        exact ⟨hfits, l, List.mem_cons_of_mem _ hl, hedge⟩
    · rw [List.map_append, List.nodup_append]
      refine ⟨hfirstIds, hotherIds, fun id hid id' hid' he => ?_⟩
      obtain ⟨values, hv, rfl⟩ := List.mem_map.1 hid
      obtain ⟨values', hv', rfl⟩ := List.mem_map.1 hid'
      obtain ⟨-, position, hedge⟩ := hfirst values hv
      obtain ⟨-, l, hl, position', hedge'⟩ := hothers values' hv'
      exact hnodup.1 (Naming.rowId_inj_right (hedge.owner_inj hedge' he).1 ▸ hl)

/-- An entry has rows when its content type has a table and all that stands in the table and in its link
tables converts. -/
theorem Mapping.entryRows_eq_ok {e : Entry} {r : RecordRows} :
    m.entryRows e = .ok r ↔ ∃ t rows edges, m.schema.entryTable? e.contentType = some t ∧
      (m.entryLocales t e).mapM (m.entryRow t e) = .ok rows ∧
      t.linkTables.mapM (m.edgeSet e (m.entryLocales t e)) = .ok edges ∧
      r = ⟨e.sys.id, t.name, t.columns, rows, m.entryLocales t e, edges⟩ := by
  unfold Mapping.entryRows
  constructor
  · intro h
    split at h
    · cases h
    · next t ht =>
      obtain ⟨rows, hrows, h⟩ := bind_eq_ok.1 h
      obtain ⟨edges, hedges, h⟩ := bind_eq_ok.1 h
      exact ⟨t, rows, edges, ht, hrows, hedges, (pure_eq_ok.1 h).symm⟩
  · rintro ⟨t, rows, edges, ht, hrows, hedges, rfl⟩
    rw [ht]
    exact bind_eq_ok.2 ⟨rows, hrows, bind_eq_ok.2 ⟨edges, hedges, rfl⟩⟩

/-- The cells of an entry in one locale are a row of its table. -/
theorem Mapping.fits_entryRow {t : TableLayout}
    (hcolumns : ∀ f ∈ t.fields, f.column ∉ Column.reserved) {e : Entry} {locale : String}
    {values : List Value} (h : m.entryRow t e locale = .ok values) :
    FitsColumns t.columns values ∧ RowOf e.sys.id locale (Row.ofCells t.columns values) := by
  obtain ⟨cells, hcells, h⟩ := bind_eq_ok.1 h
  obtain rfl := pure_eq_ok.1 h
  exact fits_systemCells hcolumns e.sys locale (Mapping.length_fieldCells hcells)

/-- The locales in which an entry has edges of a field: those of its rows if the field is localized, and
else the default locale. -/
def Mapping.edgeLocales (m : Mapping) (t : TableLayout) (e : Entry) (localized : Bool) :
    List String :=
  if localized then m.entryLocales t e else [m.default]

section
variable {t : TableLayout}

/-- The locales of edges are distinct. -/
theorem Mapping.nodup_edgeLocales (hcodes : m.space.localeCodes.Nodup) (e : Entry)
    (localized : Bool) : (m.edgeLocales t e localized).Nodup := by
  unfold edgeLocales
  split
  · exact hcodes.filter _
  · exact List.nodup_singleton _

/-- The locales of edges are locales of rows. -/
theorem Mapping.edgeLocales_subset (hdefault : m.default ∈ m.space.localeCodes) (e : Entry)
    (localized : Bool) : m.edgeLocales t e localized ⊆ m.entryLocales t e := by
  intro locale h
  unfold edgeLocales at h
  split at h
  · exact h
  · rw [List.mem_singleton.1 h]
    exact Mapping.default_mem_rowLocales _ hdefault

/-- The edges of an array of links are edges of the entry in locales of its rows, no two with one
identity. -/
theorem Mapping.edgesOf_edgeSet (hcodes : m.space.localeCodes.Nodup)
    (hdefault : m.default ∈ m.space.localeCodes) {e : Entry} {l : LinkTable} {set : EdgeSet}
    (h : m.edgeSet e (m.entryLocales t e) l = .ok set) :
    set.linkTable = l.name ∧
      (∀ values ∈ set.rows, FitsColumns LinkTable.columns values ∧
        ∃ locale ∈ m.entryLocales t e, ∃ position,
          EdgeOf e.sys.id locale position (Row.ofCells LinkTable.columns values)) ∧
      (set.rows.map fun values =>
        (Row.ofCells LinkTable.columns values).cell Column.id).Nodup := by
  obtain ⟨rowss, hrowss, h⟩ := bind_eq_ok.1 h
  obtain rfl := pure_eq_ok.1 h
  obtain ⟨hedge, hids⟩ := Mapping.edgesOf_locales (nodup_edgeLocales hcodes e l.localized) hrowss
  refine ⟨rfl, fun values hv => ?_, hids⟩
  obtain ⟨hfits, locale, hlocale, hrow⟩ := hedge values hv
  exact ⟨hfits, locale, edgeLocales_subset hdefault e l.localized hlocale, hrow⟩

end

/-- The rows of an entry are described by the table of its content type. -/
theorem Mapping.describes_entryRows (hcodes : m.space.localeCodes.Nodup)
    (hdefault : m.default ∈ m.space.localeCodes)
    (hcolumns : ∀ t ∈ m.schema.allTables, ∀ f ∈ t.fields, f.column ∉ Column.reserved)
    {e : Entry} {r : RecordRows} (h : m.entryRows e = .ok r) :
    ∃ t, m.schema.entryTable? e.contentType = some t ∧ r.sysId = e.sys.id ∧
      r.Describes t m.space.localeCodes := by
  obtain ⟨t, rows, edges, ht, hrows, hedges, rfl⟩ := Mapping.entryRows_eq_ok.1 h
  have hreserved : ∀ f ∈ t.fields, f.column ∉ Column.reserved :=
    hcolumns t (List.mem_append_left _ (Schema.entryTable?_eq_some ht).1)
  have hset : ∀ set ∈ edges, ∃ l, m.edgeSet e (m.entryLocales t e) l = .ok set := by
    intro set hset
    obtain ⟨l, -, hl⟩ := exists_of_mapM hedges hset
    exact ⟨l, hl⟩
  refine ⟨t, ht, rfl, ?_⟩
  exact
    { table_eq := rfl
      columns_eq := rfl
      rows_fit := fun values hv => by
        obtain ⟨locale, -, hrow⟩ := exists_of_mapM hrows hv
        exact (fits_entryRow hreserved hrow).1
      rowOf := (mapM_eq_ok.1 hrows).imp fun locale values hrow => (fits_entryRow hreserved hrow).2
      locales_nodup := hcodes.filter _
      locales_subset := fun _ h => Mapping.mem_rowLocales h
      links_eq := map_eq_of_mapM hedges fun l set hl => (edgesOf_edgeSet hcodes hdefault hl).1
      edges_fit := fun set hs values hv => by
        obtain ⟨l, hl⟩ := hset set hs
        exact ((edgesOf_edgeSet hcodes hdefault hl).2.1 values hv).1
      edgeOf := fun set hs values hv => by
        obtain ⟨l, hl⟩ := hset set hs
        exact ((edgesOf_edgeSet hcodes hdefault hl).2.1 values hv).2
      edges_nodup := fun set hs => by
        obtain ⟨l, hl⟩ := hset set hs
        exact (edgesOf_edgeSet hcodes hdefault hl).2.2 }

end ContentReplica
