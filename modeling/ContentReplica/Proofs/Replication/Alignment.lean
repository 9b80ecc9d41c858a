import ContentReplica.Proofs.Query.Values
import ContentReplica.Proofs.Replication.LastWriter
import ContentReplica.Proofs.Schema.Names

/-!
# Rows and the columns of their tables

The columns of a table and the cells of a row are made apart from each other: the columns follow from the
fields of a compiled content type, the cells from the payload of an entry. `RecordRows.FitsTable` says
that the two are aligned. Each row has a cell for each column, the value of a field beside the column of
the field, no NULL where none may be and an identity of its own, and each array of links has one set of
edges, all of them owned by these rows.

Every entry that converts and every asset has such rows (`Mapping.rows_fit`), whatever fields are left
out, renamed or without a column of their own. What the values of the fields are is said by the record
alone: the payload or the text is that of the first key which stands for the locale
(`Space.Finds`).
-/

namespace ContentReplica

/-! ## Rows and edges that fit -/

/-- The cells of a row of a record in one locale fit the columns of its table. -/
structure TableLayout.RowFits (t : TableLayout) (sysId locale : String)
    (value : FieldLayout → Value → Prop) (values : List Value) : Prop where
  length : values.length = t.columns.length
  rowOf : RowOf sysId locale (Row.ofCells t.columns values)
  field : ∀ f ∈ t.fields, ∀ c, f.columnDef? = some c →
    ∃ v, (c, v) ∈ t.columns.zip values ∧ value f v
  notNull : ∀ c v, (c, v) ∈ t.columns.zip values → c.notNull = true → v.isNull = false

/-- The edges of an array of links fit the link table of the array. -/
structure EdgeSet.FitsLink (l : LinkTable) (set : EdgeSet) : Prop where
  linkTable_eq : set.linkTable = l.name
  fieldId_eq : set.fieldId = l.fieldId
  length : ∀ values ∈ set.rows, values.length = LinkTable.columns.length
  notNull : ∀ values ∈ set.rows, ∀ c v, (c, v) ∈ LinkTable.columns.zip values →
    c.notNull = true → v.isNull = false
  ids_nodup : (set.rows.map fun values => (Row.ofCells LinkTable.columns values).cell Column.id).Nodup

/-- The rows of a record fit a table: one for each of its locales, which are the default locale and
others of the space, and one set of edges for each link table. `value` tells the values of the fields in
a locale. -/
structure RecordRows.FitsTable (t : TableLayout) (codes : List String) (default : String)
    (value : String → FieldLayout → Value → Prop) (r : RecordRows) : Prop where
  table_eq : r.table = t.name
  columns_eq : r.columns = t.columns
  locales_sublist : r.locales.Sublist codes
  locales_nodup : r.locales.Nodup
  default_mem : default ∈ r.locales
  rows : List.Forall₂ (fun locale values => t.RowFits r.sysId locale (value locale) values)
    r.locales r.rows
  ids_nodup : (r.rows.map fun values => (Row.ofCells t.columns values).cell Column.id).Nodup
  edges : List.Forall₂ EdgeSet.FitsLink t.linkTables r.edges
  edges_nodup : (r.edges.map EdgeSet.fieldId).Nodup
  owners : ∀ set ∈ r.edges, ∀ values ∈ set.rows, ∃ owner ∈ r.rows,
    (Row.ofCells LinkTable.columns values).cell Column.ownerId
      = (Row.ofCells t.columns owner).cell Column.id

/-! ## Values for a locale -/

namespace Space

variable {s : Space} {locale : String} {α β : Type}

/-- A key stands for a locale of the space: it is the code of the locale or one of its aliases. -/
def StandsFor (s : Space) (key locale : String) : Prop :=
  ∃ l ∈ s.locales, l.code = locale ∧ (key = l.code ∨ key ∈ l.aliases)

/-- What values with keys have for a locale: the first value whose key stands for it, if one does. -/
inductive Finds (s : Space) (locale : String) : List (String × α) → Option α → Prop
  | nothing : Finds s locale [] none
  | here {key : String} {value : α} {rest : List (String × α)} (h : s.StandsFor key locale) :
    Finds s locale ((key, value) :: rest) (some value)
  | further {key : String} {value : α} {rest : List (String × α)} {found? : Option α}
    (h : ¬ s.StandsFor key locale) (hrest : Finds s locale rest found?) :
    Finds s locale ((key, value) :: rest) found?

/-- Where no code occurs twice, a key stands for the locale of its canonical code. -/
theorem standsFor_iff (h : s.allCodes.Nodup) {key : String} :
    s.StandsFor key locale ↔ s.canonical? key = some locale := by
  unfold StandsFor canonical?
  rw [Option.map_eq_some_iff]
  refine exists_congr fun l => ?_
  rw [locale?_eq_some h, Locale.answersTo, List.contains_iff_mem, Locale.codes, List.mem_cons]
  tauto

/-- What is found may be changed afterwards. -/
theorem Finds.map {values : List (String × α)} {found? : Option α} (h : s.Finds locale values found?)
    (f : α → β) : s.Finds locale (values.map fun e => (e.1, f e.2)) (found?.map f) := by
  induction h with
  | nothing => exact .nothing
  | here h => exact .here h
  | further h _ ih => exact .further h ih

end Space

/-- A mapping finds the value for a locale. -/
theorem Mapping.finds_valueIn? {m : Mapping} {α : Type} (h : m.space.allCodes.Nodup)
    (values : SortedMap String α) (locale : String) :
    m.space.Finds locale values.entries (m.valueIn? values locale) := by
  unfold valueIn?
  induction values.entries with
  | nil => exact .nothing
  | cons e rest ih =>
    by_cases hkey : m.space.canonical? e.1 = some locale
    · rw [List.find?_cons_of_pos (by simpa using hkey)]
      exact .here ((Space.standsFor_iff h).2 hkey)
    · rw [List.find?_cons_of_neg (by simpa using hkey)]
      exact .further (mt (Space.standsFor_iff h).1 hkey) ih

/-- The texts that an asset has for a field, by their keys. -/
def Asset.texts (a : Asset) : String → List (String × String)
  | "title" => a.title.entries
  | "description" => a.description.entries
  | "fileName" => a.file.entries.map fun e => (e.1, e.2.fileName)
  | "contentType" => a.file.entries.map fun e => (e.1, e.2.contentType)
  | "url" => a.file.entries.map fun e => (e.1, e.2.url)
  | _ => []

/-- A mapping finds the text of an asset among those for the field. -/
theorem Mapping.finds_assetText? {m : Mapping} (h : m.space.allCodes.Nodup) (a : Asset)
    (locale : String) (g : AssetField) :
    m.space.Finds locale (a.texts g.id) (m.assetText? a locale g) := by
  cases g with
  | title => exact finds_valueIn? h a.title locale
  | description => exact finds_valueIn? h a.description locale
  | fileName => exact (finds_valueIn? h a.file locale).map AssetFile.fileName
  | contentType => exact (finds_valueIn? h a.file locale).map AssetFile.contentType
  | url => exact (finds_valueIn? h a.file locale).map AssetFile.url

/-! ## Cells beside their columns -/

/-- Where the columns differ, no cell beside a column that must not be NULL is NULL. -/
theorem FitsColumns.notNull_of_mem {columns : List ColumnDef} {values : List Value}
    (h : FitsColumns columns values) (hnodup : (columns.map ColumnDef.name).Nodup) {c : ColumnDef}
    {v : Value} (hm : (c, v) ∈ columns.zip values) (hc : c.notNull = true) : v.isNull = false := by
  have hcell := h.notNull c (List.of_mem_zip hm).1 hc
  rwa [Row.cell_ofCells_of_mem h.length hnodup hm] at hcell

/-- The cell beside the column of a field follows the cells that describe the record. -/
theorem TableLayout.mem_zip_columns {t : TableLayout} {sys : RecordSys} {locale : String}
    {cells : List Value} {c : ColumnDef} {v : Value}
    (h : (c, v) ∈ (t.fields.filterMap FieldLayout.columnDef?).zip cells) :
    (c, v) ∈ t.columns.zip (Mapping.systemCells sys locale ++ cells) := by
  have hlength : systemColumns.length = (Mapping.systemCells sys locale).length := rfl
  rw [TableLayout.columns, List.zip_append hlength]
  exact List.mem_append_right _ h

/-- The rows of a record that its table describes fit the table, if the values of fields stand beside
their columns and the sets of edges are those of the link tables. -/
theorem RecordRows.Describes.fitsTable {s : Schema} (hschema : s.Compiled) {t : TableLayout}
    (ht : t ∈ s.allTables) {codes : List String} {default : String} {r : RecordRows}
    (h : r.Describes t codes) (hsublist : r.locales.Sublist codes) (hdefault : default ∈ r.locales)
    (hlinks : List.Forall₂ (fun l set => set.linkTable = l.name ∧ set.fieldId = l.fieldId)
      t.linkTables r.edges)
    {value : String → FieldLayout → Value → Prop}
    (hvalue : List.Forall₂ (fun locale values => ∀ f ∈ t.fields, ∀ c, f.columnDef? = some c →
      ∃ v, (c, v) ∈ t.columns.zip values ∧ value locale f v) r.locales r.rows) :
    r.FitsTable t codes default value where
  table_eq := h.table_eq
  columns_eq := h.columns_eq
  locales_sublist := hsublist
  locales_nodup := h.locales_nodup
  default_mem := hdefault
  rows := by
    refine List.forall₂_iff_zip.2 ⟨h.rowOf.length_eq, fun {locale values} hm => ?_⟩
    have hfits := h.rows_fit values (List.of_mem_zip hm).2
    exact
      { length := hfits.length
        rowOf := List.forall₂_zip h.rowOf hm
        field := List.forall₂_zip hvalue hm
        notNull := fun c v => hfits.notNull_of_mem (hschema.nodup_columnNames ht) }
  ids_nodup := h.rows_nodup
  edges := by
    have hcolumns : (LinkTable.columns.map ColumnDef.name).Nodup := by decide
    refine List.forall₂_iff_zip.2 ⟨hlinks.length_eq, fun {l set} hm => ?_⟩
    obtain ⟨hname, hfield⟩ := List.forall₂_zip hlinks hm
    have hset := (List.of_mem_zip hm).2
    exact
      { linkTable_eq := hname
        fieldId_eq := hfield
        length := fun values hv => (h.edges_fit set hset values hv).length
        notNull := fun values hv c v => (h.edges_fit set hset values hv).notNull_of_mem hcolumns
        ids_nodup := h.edges_nodup set hset }
  edges_nodup := by
    have hfields : (t.linkTables.map LinkTable.fieldId).Nodup := (hschema.nodup_fieldIds ht).sublist
      (map_filterMap_sublist (fun _ _ => TableLayout.fieldId_of_linkTable?) t.fields)
    rwa [map_eq_of_forall₂ hlinks fun _ _ hset => hset.2]
  owners := by
    intro set hset values hv
    obtain ⟨locale, hl, position, hedge⟩ := h.edgeOf set hset values hv
    obtain ⟨owner, howner, hrow⟩ := exists_right_of_forall₂ h.rowOf hl
    exact ⟨owner, howner, hedge.ownerId.trans hrow.id.symm⟩

/-! ## Records -/

namespace Mapping

variable {m : Mapping} {t : TableLayout}

/-- The rows of a record are in locales of the space, in their order. -/
theorem rowLocales_sublist (keys : List String) : (m.rowLocales keys).Sublist m.space.localeCodes :=
  List.filter_sublist

/-- The value that an entry has for a field in one locale: the converted payload, which is that of the
default locale for a field that is not localized, and NULL if there is none. -/
def EntryValue (m : Mapping) (t : TableLayout) (e : Entry) (locale : String) (f : FieldLayout)
    (v : Value) : Prop :=
  ∃ payload?, m.space.Finds (if f.localized then locale else m.default)
      ((e.fields.get? f.fieldId).elim [] SortedMap.entries) payload? ∧
    IsValueOf t f (payload?.filter fun p => !p.isNull) v

/-- The text that an asset has for a field in one locale, NULL if it has none. -/
def AssetValue (m : Mapping) (a : Asset) (locale : String) (f : FieldLayout) (v : Value) : Prop :=
  ∃ text?, m.space.Finds locale (a.texts f.fieldId) text? ∧ v = text?.elim .null .text

/-- A mapping finds the payload of a field in a locale. -/
theorem finds_payload? (h : m.space.allCodes.Nodup) (e : Entry) (fieldId locale : String) :
    m.space.Finds locale ((e.fields.get? fieldId).elim [] SortedMap.entries)
      (m.payload? e fieldId locale) := by
  unfold payload?
  cases e.fields.get? fieldId with
  | none => exact .nothing
  | some values => exact finds_valueIn? h values locale

/-- The values of an entry stand beside the columns of their fields. -/
theorem values_entryRow (hvalid : m.space.allCodes.Nodup) {e : Entry} {locale : String}
    {values : List Value} (h : m.entryRow t e locale = .ok values) : ∀ f ∈ t.fields, ∀ c, f.columnDef? = some c →
      ∃ v, (c, v) ∈ t.columns.zip values ∧ m.EntryValue t e locale f v := by
  obtain ⟨cells, hcells, h⟩ := bind_eq_ok.1 h
  obtain rfl := pure_eq_ok.1 h
  intro f hf c hc
  obtain ⟨o, ho, hzip⟩ := mem_zip_of_filterMapM (fun f _ o ho => isSome_fieldCell? ho) hcells f hf
  have hcolumn : f.columnDef?.isSome = true := by rw [hc]; rfl
  obtain ⟨v, rfl⟩ := Option.isSome_iff_exists.1 ((isSome_fieldCell? ho).trans hcolumn)
  obtain ⟨c', hc', hm⟩ := hzip v rfl
  obtain rfl := Option.some.inj (hc.symm.trans hc')
  have hvalue := isValueOf_entryValue ho hcolumn
  rw [entryValue, ho] at hvalue
  exact ⟨v, TableLayout.mem_zip_columns hm, _, finds_payload? hvalid e f.fieldId _, hvalue⟩

/-- The rows of an entry fit the table of its content type. -/
theorem fitsTable_entryRows (hschema : m.schema.Compiled) (hvalid : m.space.allCodes.Nodup)
    (hdefault : m.default ∈ m.space.localeCodes) {e : Entry} {r : RecordRows}
    (h : m.entryRows e = .ok r) (ht : m.schema.entryTable? e.contentType = some t) :
    r.sysId = e.sys.id ∧ r.FitsTable t m.space.localeCodes m.default (m.EntryValue t e) := by
  obtain ⟨t', ht', hsys, hdescribes⟩ := describes_entryRows
    (hvalid.sublist Space.localeCodes_sublist) hdefault hschema.column_not_reserved h
  obtain rfl := Option.some.inj (ht.symm.trans ht')
  have hmem : t ∈ m.schema.allTables := List.mem_append_left _ (Schema.entryTable?_eq_some ht).1
  obtain ⟨t', rows, edges, ht', hrows, hedges, rfl⟩ := entryRows_eq_ok.1 h
  obtain rfl := Option.some.inj (ht.symm.trans ht')
  refine ⟨rfl, hdescribes.fitsTable hschema hmem (rowLocales_sublist _)
    (default_mem_rowLocales _ hdefault) ?_ ?_⟩
  · refine (mapM_eq_ok.1 hedges).imp fun l set hset => ?_
    obtain ⟨hname, hfield, -⟩ := edgeSet_eq hset
    exact ⟨hname, hfield⟩
  · exact (mapM_eq_ok.1 hrows).imp fun locale values hvalues => values_entryRow hvalid hvalues

/-- The rows of an asset fit the table of assets. -/
theorem fitsTable_assetRows (hschema : m.schema.Compiled) (hvalid : m.space.allCodes.Nodup)
    (hdefault : m.default ∈ m.space.localeCodes) (a : Asset) :
    (m.assetRows a).FitsTable assetLayout m.space.localeCodes m.default (m.AssetValue a) := by
  have hcodes := hvalid.sublist Space.localeCodes_sublist
  refine (describes_assetRows hcodes a).fitsTable hschema (List.mem_append_right _ (by simp))
    (rowLocales_sublist _) (default_mem_rowLocales _ hdefault) .nil ?_
  refine List.forall₂_map_right_iff.2 (List.forall₂_same.2 fun locale _ f hf c hc => ?_)
  obtain ⟨g, hg, rfl⟩ := List.mem_map.1 hf
  obtain rfl := Option.some.inj hc
  refine ⟨.ofText? (m.assetText? a locale g), TableLayout.mem_zip_columns ?_, _,
    finds_assetText? hvalid a locale g, ?_⟩
  · simp only [AssetField.all, List.mem_cons, List.not_mem_nil, or_false] at hg
    rcases hg with rfl | rfl | rfl | rfl | rfl <;>
      simp [assetLayout, AssetField.all, FieldLayout.columnDef?, Placement.columnType?]
  · cases m.assetText? a locale g <;> rfl

end Mapping

/-- In a valid space and a compiled schema the columns of each table have names of their own, and the
rows of every entry that converts and of every asset fit their table. -/
theorem Mapping.rows_fit {schema : Schema} {space : Space} {m : Mapping}
    (hspace : space.validate = .ok ()) (hschema : schema.Compiled)
    (hm : Mapping.of schema space = .ok m) :
    (∀ t ∈ schema.allTables, (t.columns.map ColumnDef.name).Nodup) ∧
    (∀ t ∈ schema.tables, ∀ e : Entry, e.contentType = t.contentType → ∀ r, m.entryRows e = .ok r →
      r.sysId = e.sys.id ∧ r.FitsTable t space.localeCodes m.default (m.EntryValue t e)) ∧
    ∀ a : Asset, (m.assetRows a).sysId = a.sys.id ∧
      (m.assetRows a).FitsTable assetLayout space.localeCodes m.default (m.AssetValue a) := by
  obtain ⟨d, hd, rfl⟩ := of_eq_ok.1 hm
  have hvalid := (Space.validate_eq_ok.1 hspace).2.1
  have hdefault := Space.default_mem_localeCodes hd
  refine ⟨fun t ht => hschema.nodup_columnNames ht, fun t ht e he r hr => ?_, fun a => ⟨rfl, ?_⟩⟩
  · have hfound := hschema.entryTable?_eq_some ht
    exact fitsTable_entryRows hschema hvalid hdefault hr (he ▸ hfound)
  · exact fitsTable_assetRows (m := ⟨schema, space, d.code⟩) hschema hvalid hdefault a

namespace Catalog

/-- A picture that has a file in English, and in German a title only. The English title has an alias of
the locale for its key. -/
def picture : Asset :=
  { Asset.new "a1" english "A pen" "https://images/pen.png" with
    title := (SortedMap.empty.insert german "Ein Stift").insert "en" "A pen" }

/-- The texts in some columns of the rows of a record. -/
def textsOf (r : RecordRows) (columns : List Ident) : List (List (Option String)) :=
  r.rows.map fun values => columns.map fun c => ((Row.ofCells r.columns values).cell c).toText?

end Catalog

/-- The product with two tags has one row, which its two edges name as their owner. The picture has a row
in English and one in German, where its file is NULL. -/
theorem Mapping.rows_fit_catalog :
    (∃ r, Catalog.mapping.entryRows Catalog.taggedProduct = .ok r ∧
      Catalog.textsOf r [⟨"locale"⟩, ⟨"name"⟩, ⟨"price"⟩, ⟨"image"⟩]
        = [[some Catalog.english, some "Pen", some "3", none]] ∧
      (r.edges.flatMap EdgeSet.rows).length = 2 ∧
      r.FitsTable Catalog.productTable Catalog.space.localeCodes Catalog.english
        (Catalog.mapping.EntryValue Catalog.productTable Catalog.taggedProduct)) ∧
    Catalog.textsOf (Catalog.mapping.assetRows Catalog.picture)
        [⟨"locale"⟩, ⟨"title"⟩, ⟨"description"⟩, ⟨"file_name"⟩, ⟨"url"⟩]
      = [[some Catalog.english, some "A pen", none, some "pen.png", some "https://images/pen.png"],
        [some Catalog.german, some "Ein Stift", none, none, none]] ∧
    (Catalog.mapping.assetRows Catalog.picture).FitsTable assetLayout Catalog.space.localeCodes
      Catalog.english (Catalog.mapping.AssetValue Catalog.picture) := by
  obtain ⟨-, hentry, hasset⟩ := Mapping.rows_fit (show Catalog.space.validate = .ok () from rfl)
    (.all Catalog.types rfl) (show Mapping.of Catalog.schema _ = .ok Catalog.mapping from rfl)
  refine ⟨?_, by decide +kernel, (hasset Catalog.picture).2⟩
  have htable : Catalog.productTable ∈ Catalog.schema.tables := by decide +kernel
  have hrows : (Catalog.mapping.entryRows Catalog.taggedProduct).toOption.any (fun r =>
      Catalog.textsOf r [⟨"locale"⟩, ⟨"name"⟩, ⟨"price"⟩, ⟨"image"⟩]
          == [[some Catalog.english, some "Pen", some "3", none]] &&
        (r.edges.flatMap EdgeSet.rows).length == 2) = true := by decide +kernel
  obtain ⟨r, hr, hrows⟩ := exists_of_toOption_any hrows
  simp only [Bool.and_eq_true, beq_iff_eq] at hrows
  exact ⟨r, hr, hrows.1, hrows.2, (hentry _ htable _ rfl _ hr).2⟩

end ContentReplica
