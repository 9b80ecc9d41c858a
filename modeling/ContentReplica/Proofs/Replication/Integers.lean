import ContentReplica.Proofs.Replication.Alignment

/-!
# Integers and the range of their columns

An integer column holds 32 bits, while the numbers of a payload and of the metadata of a record have 64.
A payload that converts for a column of integers or of arrays of integers keeps its integers
(`Json.HoldsInt.ofPayload`), and all of them lie within the range (`Value.Conforms.fits32`). So a payload
beyond the range is refused, and the integers of an entry that converts fit their columns unless they are
metadata.

The version and the revision of a record are written as they come. The rows of a record fit therefore
exactly when these two do (`Mapping.integers_fit`), and a record with a larger version is a record whose
rows do not fit (`Mapping.integers_fit_needs_metadata`).
-/

namespace ContentReplica

/-! ## Integers -/

/-- The integers that an integer column holds. -/
def Fits32 (n : Int) : Prop := -2147483648 ≤ n ∧ n ≤ 2147483647

/-- The types of integers, and of arrays of them. -/
def SqlType.OfIntegers : SqlType → Prop
  | integer => True
  | array element => element.OfIntegers
  | _ => False

/-- A value holds an integer: it is the integer, or an array with such an element. -/
inductive Value.HoldsInt (n : Int) : Value → Prop
  | self : HoldsInt n (.int n)
  | element {v : Value} {items : List Value} (hv : v ∈ items) (h : HoldsInt n v) :
      HoldsInt n (.array items)

/-- A payload holds an integer: it is the integer, or an array with such an item. -/
inductive Json.HoldsInt (n : Int) : Json → Prop
  | self : HoldsInt n (.int n)
  | item {p : Json} {items : List Json} (hp : p ∈ items) (h : HoldsInt n p) : HoldsInt n (.arr items)

/-- The integers of a row that stand beside a column of integers fit it. -/
def IntegersFit (columns : List ColumnDef) (values : List Value) : Prop :=
  ∀ c v, (c, v) ∈ columns.zip values → c.type.OfIntegers → ∀ n, v.HoldsInt n → Fits32 n

section
variable {lenient : Bool} {type : SqlType} {p : Json} {v : Value} {n : Int}

/-- NULL holds no integer. -/
theorem Value.not_holdsInt_null : ¬ Value.null.HoldsInt n := nofun

/-- A value of a type of integers holds integers within the range only. -/
theorem Value.Conforms.fits32 (h : Conforms type v) (htype : type.OfIntegers) (hn : v.HoldsInt n) :
    Fits32 n := by
  induction hn generalizing type with
  | self =>
    cases h with
    | integer hlow hhigh => exact ⟨hlow, hhigh⟩
    | decimalInt => exact htype.elim
  | @element v items hv hn ih =>
    cases h with
    | array hitems =>
      refine ih (hitems v hv fun hnull => ?_) htype
      exact not_holdsInt_null (hnull ▸ hn)

/-- A payload that holds an integer is not null. -/
theorem Json.HoldsInt.isNull (hn : p.HoldsInt n) : p.isNull = false := by
  cases hn <;> rfl

/-- A payload that converts to integers keeps those that it holds. -/
theorem Json.HoldsInt.ofPayload (hn : p.HoldsInt n) (htype : type.OfIntegers)
    (h : Value.ofPayload lenient type p = .ok v) : v.HoldsInt n := by
  induction hn generalizing type v with
  | self =>
    cases type with
    | integer =>
      rw [Value.ofPayload_of_scalar rfl (by simp)] at h
      unfold Value.scalarOfPayload at h
      cases hi : (Json.int n).int64? with
      | none => simp only [hi] at h; cases h
      | some i =>
        obtain ⟨hint, -⟩ := Json.int64?_eq_some.1 hi
        cases hint
        simp only [hi] at h
        split at h <;> cases h
        exact .self
    | array element => cases h
    | _ => exact htype.elim
  | @item p items hp hn ih =>
    cases type with
    | integer => cases h
    | array element =>
      rw [Value.ofPayload_arr] at h
      obtain ⟨values, hvalues, rfl⟩ := map_eq_ok.1 h
      obtain ⟨v, hv, hconvert⟩ := exists_right_of_forall₂ (mapM_eq_ok.1 hvalues) hp
      have helement : element.OfIntegers := htype
      exact .element hv (ih helement hconvert)
    | _ => exact htype.elim

/-- A payload that converts to integers holds none beyond the range. -/
theorem Json.HoldsInt.fits32 (hn : p.HoldsInt n) (htype : type.OfIntegers)
    (h : Value.ofPayload lenient type p = .ok v) : Fits32 n := by
  have hv := hn.ofPayload htype h
  rcases Value.null_or_conforms h with rfl | hconforms
  · exact absurd hv Value.not_holdsInt_null
  · exact hconforms.fits32 htype hv

end

/-! ## Cells -/

section
variable {c : ColumnDef} {v : Value} {columns columns' : List ColumnDef} {values values' : List Value}

@[simp] theorem Value.holdsInt_int {n k : Int} : (Value.int k).HoldsInt n ↔ n = k :=
  ⟨fun | .self => rfl, fun h => h ▸ .self⟩

@[simp] theorem integersFit_nil : IntegersFit [] values := nofun

@[simp] theorem integersFit_cons : IntegersFit (c :: columns) (v :: values) ↔
    (c.type.OfIntegers → ∀ n, v.HoldsInt n → Fits32 n) ∧ IntegersFit columns values := by
  simp only [IntegersFit, List.zip_cons_cons, List.mem_cons, or_imp, forall_and, Prod.mk.injEq,
    and_imp, forall_eq_apply_imp_iff, forall_eq]

/-- The integers of a row in two parts fit when those of both parts do. -/
theorem integersFit_append (h : columns.length = values.length) :
    IntegersFit (columns ++ columns') (values ++ values') ↔
      IntegersFit columns values ∧ IntegersFit columns' values' := by
  simp only [IntegersFit, List.zip_append h, List.mem_append, or_imp, forall_and]

end

/-- The integers of the cells that describe a record fit exactly when its version and its revision
do. -/
theorem integersFit_systemCells (sys : RecordSys) (locale : String) :
    IntegersFit systemColumns (Mapping.systemCells sys locale) ↔
      Fits32 sys.version ∧ Fits32 sys.revision := by
  simp [systemColumns, Mapping.systemCells, ColumnDef.key, ColumnDef.required, ColumnDef.optional,
    SqlType.OfIntegers]

/-- The integers of an edge fit its table exactly when its position does. -/
theorem integersFit_edgeCells {sysId locale target : String} {position : Nat} :
    IntegersFit LinkTable.columns (Mapping.edgeCells sysId locale position target) ↔
      Fits32 position := by
  simp [LinkTable.columns, Mapping.edgeCells, ColumnDef.key, ColumnDef.required, ColumnDef.optional,
    SqlType.OfIntegers]

/-- The integers of a row fit its table exactly when its version and its revision do, if the values of
its fields are of the types of their columns. -/
theorem TableLayout.RowFits.integersFit_iff {t : TableLayout} {sys : RecordSys}
    {sysId locale locale' : String} {value : FieldLayout → Value → Prop} {cells : List Value}
    (h : t.RowFits sysId locale' value (Mapping.systemCells sys locale ++ cells))
    (hnodup : (t.columns.map ColumnDef.name).Nodup)
    (hvalue : ∀ f ∈ t.fields, ∀ v c, value f v → f.columnDef? = some c →
      v = .null ∨ v.Conforms c.type) :
    IntegersFit t.columns (Mapping.systemCells sys locale ++ cells) ↔
      Fits32 sys.version ∧ Fits32 sys.revision := by
  have hfields : IntegersFit (t.fields.filterMap FieldLayout.columnDef?) cells := by
    intro c v hm htype n hn
    obtain ⟨f, hf, hc⟩ := List.mem_filterMap.1 (List.of_mem_zip hm).1
    obtain ⟨v', hv', hfield⟩ := h.field f hf c hc
    -- The columns differ, so the value of the field is the one that stands here.
    obtain rfl : v' = v := (Row.cell_ofCells_of_mem h.length hnodup hv').symm.trans
      (Row.cell_ofCells_of_mem h.length hnodup (TableLayout.mem_zip_columns hm))
    rcases hvalue f hf v' c hfield hc with rfl | hconforms
    · exact absurd hn Value.not_holdsInt_null
    · exact hconforms.fits32 htype hn
  have hlength : systemColumns.length = (Mapping.systemCells sys locale).length := rfl
  rw [TableLayout.columns, integersFit_append hlength, integersFit_systemCells]
  exact and_iff_left hfields

/-- The integers of each row of a record fit exactly when its version and its revision do, if the values
of its fields are of the types of their columns. -/
theorem RecordRows.FitsTable.integersFit_iff {t : TableLayout} {codes : List String}
    {default : String} {value : String → FieldLayout → Value → Prop} {r : RecordRows} {sys : RecordSys}
    (h : r.FitsTable t codes default value) (hnodup : (t.columns.map ColumnDef.name).Nodup)
    (hvalue : ∀ locale, ∀ f ∈ t.fields, ∀ v c, value locale f v → f.columnDef? = some c →
      v = .null ∨ v.Conforms c.type)
    (hsystem : ∀ values ∈ r.rows, ∃ locale cells,
      values = Mapping.systemCells sys locale ++ cells) {values : List Value} (hv : values ∈ r.rows) :
    IntegersFit r.columns values ↔ Fits32 sys.version ∧ Fits32 sys.revision := by
  obtain ⟨locale, -, hfits⟩ := exists_left_of_forall₂ h.rows hv
  obtain ⟨locale', cells, rfl⟩ := hsystem values hv
  rw [h.columns_eq]
  exact hfits.integersFit_iff hnodup (hvalue locale)

/-! ## Failures -/

namespace Mapping

variable {m : Mapping} {t : TableLayout} {e : Entry} {locale fieldId : String}

/-- A cell fails for a value of its field. -/
theorem fieldCell?_eq_error {f : FieldLayout} {error : Error}
    (h : m.fieldCell? t e locale f = .error error) :
    ∃ fault, error = .apply (.value e.sys.id f.fieldId fault) := by
  unfold fieldCell? at h
  dsimp only at h
  split at h
  · cases h
  · cases h
  · next fault _ =>
    cases h
    exact ⟨fault, rfl⟩

/-- An array of links fails for one of its elements, or since it is no array. -/
theorem edgeRows_eq_error {error : Error} (h : m.edgeRows e fieldId locale = .error error) :
    ∃ fault, error = .apply (.value e.sys.id fieldId fault) := by
  unfold edgeRows at h
  split at h
  · cases h
  · cases h
  · obtain ⟨⟨item, position⟩, -, hitem⟩ := exists_of_mapM_error h
    dsimp only [edgeRow] at hitem
    split at hitem
    · cases hitem
      exact ⟨_, rfl⟩
    · cases hitem
  · cases h
    exact ⟨_, rfl⟩

/-- An entry of a content type that has a table fails for a value of one of its fields. -/
theorem entryRows_eq_error (ht : m.schema.entryTable? e.contentType = some t) {error : Error}
    (h : m.entryRows e = .error error) :
    ∃ fieldId fault, error = .apply (.value e.sys.id fieldId fault) := by
  unfold entryRows at h
  rw [ht] at h
  rcases bind_eq_error.1 h with hrows | ⟨rows, -, h⟩
  · obtain ⟨locale, -, hrow⟩ := exists_of_mapM_error hrows
    rcases bind_eq_error.1 hrow with hcells | ⟨cells, -, hrow⟩
    · obtain ⟨f, -, hcell⟩ := exists_of_filterMapM_error hcells
      exact ⟨f.fieldId, fieldCell?_eq_error hcell⟩
    · cases hrow
  · rcases bind_eq_error.1 h with hedges | ⟨edges, -, h⟩
    · obtain ⟨l, -, hset⟩ := exists_of_mapM_error hedges
      rcases bind_eq_error.1 hset with hlists | ⟨lists, -, hset⟩
      · obtain ⟨locale, -, hlist⟩ := exists_of_mapM_error hlists
        exact ⟨l.fieldId, edgeRows_eq_error hlist⟩
      · cases hset
    · cases h

/-! ## Records -/

/-- The identity in a link column is NULL or a text. -/
theorem linkCell_cases {p : Json} {v : Value} (h : linkCell p = .ok v) :
    v = .null ∨ ∃ id, v = .text id := by
  unfold linkCell at h
  split at h
  · exact .inl (Except.ok.inj h).symm
  · split at h
    · exact .inr ⟨_, (Except.ok.inj h).symm⟩
    · cases h

/-- The payload of a field is converted to the type of its column, unless it is a link. -/
theorem convert_cases {f : FieldLayout} {c : ColumnDef} (hc : f.columnDef? = some c) (p : Json) :
    (∃ lenient, t.convert f p = Value.ofPayload lenient c.type p) ∨
      c.type = .text ∧ t.convert f p = linkCell p := by
  obtain ⟨type, htype, rfl⟩ := Option.map_eq_some_iff.1 hc
  unfold TableLayout.convert
  generalize f.placement = placement at htype
  cases placement with
  | links table target => cases htype
  | link target => exact .inr ⟨(Option.some.inj htype).symm, rfl⟩
  | value type' =>
    obtain rfl := Option.some.inj htype
    exact .inl ⟨_, rfl⟩

/-- The value of a field is NULL or of the type of its column. -/
theorem IsValueOf.conforms {f : FieldLayout} {payload? : Option Json} {v : Value} {c : ColumnDef}
    (h : IsValueOf t f payload? v) (hc : f.columnDef? = some c) : v = .null ∨ v.Conforms c.type := by
  cases payload? with
  | none => exact .inl h
  | some p =>
    obtain ⟨hconvert, -⟩ := h
    rcases convert_cases hc p with ⟨lenient, hvalue⟩ | ⟨htext, hlink⟩
    · exact Value.null_or_conforms (hvalue.symm.trans hconvert)
    · rw [htext]
      rcases linkCell_cases (hlink.symm.trans hconvert) with rfl | ⟨id, rfl⟩
      · exact .inl rfl
      · exact .inr (.text id)

/-- The value of an entry is NULL or of the type of its column. -/
theorem EntryValue.conforms {f : FieldLayout} {v : Value} {c : ColumnDef}
    (h : m.EntryValue t e locale f v) (hc : f.columnDef? = some c) :
    v = .null ∨ v.Conforms c.type := by
  obtain ⟨payload?, -, hvalue⟩ := h
  exact hvalue.conforms hc

/-- The text of an asset is NULL or of the type of its column. -/
theorem AssetValue.conforms {a : Asset} {f : FieldLayout} {v : Value} {c : ColumnDef}
    (h : m.AssetValue a locale f v) (hf : f ∈ assetLayout.fields) (hc : f.columnDef? = some c) :
    v = .null ∨ v.Conforms c.type := by
  obtain ⟨g, -, rfl⟩ := List.mem_map.1 hf
  obtain rfl := Option.some.inj hc
  obtain ⟨text?, -, rfl⟩ := h
  cases text? with
  | none => exact .inl rfl
  | some s => exact .inr (.text s)

/-- The integers of each row of an entry fit exactly when its version and its revision do. -/
theorem integersFit_entryRows (hschema : m.schema.Compiled) (hvalid : m.space.allCodes.Nodup)
    (hdefault : m.default ∈ m.space.localeCodes) {r : RecordRows} (h : m.entryRows e = .ok r)
    (ht : m.schema.entryTable? e.contentType = some t) {values : List Value} (hv : values ∈ r.rows) :
    IntegersFit r.columns values ↔ Fits32 e.sys.version ∧ Fits32 e.sys.revision := by
  have hmem : t ∈ m.schema.allTables := List.mem_append_left _ (Schema.entryTable?_eq_some ht).1
  obtain ⟨-, hfits⟩ := fitsTable_entryRows hschema hvalid hdefault h ht
  refine hfits.integersFit_iff (hschema.nodup_columnNames hmem)
    (fun locale f _ v c hvalue hc => hvalue.conforms hc) (fun values hv => ?_) hv
  obtain ⟨t', rows, edges, ht', hrows, -, rfl⟩ := entryRows_eq_ok.1 h
  obtain rfl := Option.some.inj (ht.symm.trans ht')
  obtain ⟨locale, -, hrow⟩ := exists_of_mapM hrows hv
  obtain ⟨cells, -, hrow⟩ := bind_eq_ok.1 hrow
  exact ⟨locale, cells, (pure_eq_ok.1 hrow).symm⟩

/-- The integers of each row of an asset fit exactly when its version and its revision do. -/
theorem integersFit_assetRows (hschema : m.schema.Compiled) (hvalid : m.space.allCodes.Nodup)
    (hdefault : m.default ∈ m.space.localeCodes) {a : Asset} {values : List Value}
    (hv : values ∈ (m.assetRows a).rows) : IntegersFit (m.assetRows a).columns values ↔
      Fits32 a.sys.version ∧ Fits32 a.sys.revision := by
  refine (fitsTable_assetRows hschema hvalid hdefault a).integersFit_iff
    (hschema.nodup_columnNames (List.mem_append_right _ (by simp)))
    (fun locale f hf v c hvalue => hvalue.conforms hf) (fun values hv => ?_) hv
  obtain ⟨locale, -, rfl⟩ := List.mem_map.1 hv
  exact ⟨locale, _, rfl⟩

/-- The integers of the edges of an array of links fit, unless it has more targets than there are
positions. -/
theorem integersFit_edges (hdefault : m.default ∈ m.space.localeCodes) {r : RecordRows}
    (h : m.entryRows e = .ok r) {set : EdgeSet} (hset : set ∈ r.edges)
    (hshort : ∀ locale ∈ r.locales, (m.targets e set.fieldId locale).length ≤ 2147483648)
    {values : List Value} (hv : values ∈ set.rows) : IntegersFit LinkTable.columns values := by
  obtain ⟨t, rows, edges, -, -, hedges, rfl⟩ := entryRows_eq_ok.1 h
  obtain ⟨l, -, hl⟩ := exists_of_mapM hedges hset
  obtain ⟨-, hfield, hrows⟩ := edgeSet_eq hl
  obtain ⟨locale, hlocale, hv⟩ := List.mem_flatMap.1 (hrows ▸ hv)
  obtain ⟨position, target, hget, rfl⟩ := mem_edgeList.1 hv
  have hposition := (List.getElem?_eq_some_iff.1 hget).1
  have hlength := hshort locale (edgeLocales_subset hdefault e l.localized hlocale)
  rw [hfield] at hlength
  exact integersFit_edgeCells.2 ⟨by omega, by omega⟩

/-- An entry that converts has no payload beyond the range in a column of integers. -/
theorem fits32_of_entryRows (hschema : m.schema.Compiled) (hdefault : m.default ∈ m.space.localeCodes)
    {r : RecordRows} (h : m.entryRows e = .ok r) (ht : m.schema.entryTable? e.contentType = some t)
    {f : FieldLayout} (hf : f ∈ t.fields) {c : ColumnDef} (hc : f.columnDef? = some c)
    (htype : c.type.OfIntegers) {p : Json} {n : Int}
    (hp : m.payload? e f.fieldId (if f.localized then locale else m.default) = some p)
    (hn : p.HoldsInt n) : Fits32 n := by
  obtain ⟨o, ho⟩ := exists_fieldCell hschema hdefault h ht hf locale
  have hvalue := isValueOf_entryValue ho (by rw [hc]; rfl)
  rw [present?, hp, Option.filter_some, hn.isNull] at hvalue
  obtain ⟨hconvert, -⟩ := hvalue
  rcases convert_cases hc p with ⟨lenient, hpayload⟩ | ⟨htext, -⟩
  · exact hn.fits32 htype (hpayload.symm.trans hconvert)
  · rw [htext] at htype
    exact htype.elim

end Mapping

/-- In a valid space and a compiled schema the integers of each row of an entry that converts, and of each
row of an asset, fit their columns exactly when the version and the revision of the record do; those of
the edges fit unless there are more of them in one array than positions. An entry with a payload beyond
the range does not convert. -/
theorem Mapping.integers_fit {schema : Schema} {space : Space} {m : Mapping}
    (hspace : space.validate = .ok ()) (hschema : schema.Compiled)
    (hm : Mapping.of schema space = .ok m) :
    (∀ t ∈ schema.tables, ∀ e : Entry, e.contentType = t.contentType →
      (∀ r, m.entryRows e = .ok r →
        (∀ values ∈ r.rows, IntegersFit r.columns values ↔
          Fits32 e.sys.version ∧ Fits32 e.sys.revision) ∧
        ∀ set ∈ r.edges,
          (∀ locale ∈ r.locales, (m.targets e set.fieldId locale).length ≤ 2147483648) →
          ∀ values ∈ set.rows, IntegersFit LinkTable.columns values) ∧
      ∀ f ∈ t.fields, ∀ c, f.columnDef? = some c → c.type.OfIntegers → ∀ locale p n,
        m.payload? e f.fieldId (if f.localized then locale else m.default) = some p →
        p.HoldsInt n → ¬ Fits32 n →
        ∃ fieldId fault, m.entryRows e = .error (.apply (.value e.sys.id fieldId fault))) ∧
    ∀ a : Asset, ∀ values ∈ (m.assetRows a).rows,
      IntegersFit (m.assetRows a).columns values ↔ Fits32 a.sys.version ∧ Fits32 a.sys.revision := by
  obtain ⟨d, hd, rfl⟩ := of_eq_ok.1 hm
  have hvalid := (Space.validate_eq_ok.1 hspace).2.1
  have hdefault := Space.default_mem_localeCodes hd
  refine ⟨fun t ht e he => ?_, fun a values => ?_⟩
  · have hfound : schema.entryTable? e.contentType = some t := he ▸ hschema.entryTable?_eq_some ht
    refine ⟨fun r hr => ⟨fun values => ?_, fun set hset hshort values => ?_⟩,
      fun f hf c hc htype locale p n hp hn hlarge => ?_⟩
    · exact integersFit_entryRows hschema hvalid hdefault hr hfound
    · exact integersFit_edges hdefault hr hset hshort
    · cases hresult : entryRows ⟨schema, space, d.code⟩ e with
      | error error =>
        obtain ⟨fieldId, fault, rfl⟩ := entryRows_eq_error hfound hresult
        exact ⟨fieldId, fault, rfl⟩
      | ok r =>
        exact absurd (fits32_of_entryRows hschema hdefault hresult hfound hf hc htype hp hn) hlarge
  · exact integersFit_assetRows (m := ⟨schema, space, d.code⟩) hschema hvalid hdefault

/-- The row of a product with two tags fits, and a product whose price is beyond the range is refused. -/
theorem Mapping.integers_fit_catalog :
    (∃ r, Catalog.mapping.entryRows Catalog.taggedProduct = .ok r ∧ r.rows ≠ [] ∧
      ∀ values ∈ r.rows, IntegersFit r.columns values) ∧
    ∃ fieldId fault, Catalog.mapping.entryRows (Catalog.product "p1" "Pen" 2147483648)
      = .error (.apply (.value "p1" fieldId fault)) := by
  have htable : Catalog.productTable ∈ Catalog.schema.tables := by decide +kernel
  obtain ⟨hentry, -⟩ := Mapping.integers_fit (show Catalog.space.validate = .ok () from rfl)
    (.all Catalog.types rfl) (show Mapping.of Catalog.schema _ = .ok Catalog.mapping from rfl)
  constructor
  · obtain ⟨r, hr⟩ := exists_of_isOk
      (show (Catalog.mapping.entryRows Catalog.taggedProduct).isOk = true by decide +kernel)
    have hrows : (Catalog.mapping.entryRows Catalog.taggedProduct).toOption.map
        (fun r => r.rows.isEmpty) = some false := by decide +kernel
    rw [hr] at hrows
    obtain ⟨hfit, -⟩ := (hentry _ htable Catalog.taggedProduct rfl).1 r hr
    refine ⟨r, hr, List.isEmpty_eq_false_iff.1 (Option.some.inj hrows), fun values hv => ?_⟩
    exact (hfit values hv).2 ⟨⟨by decide, by decide⟩, ⟨by decide, by decide⟩⟩
  · have hprice : ∃ f ∈ Catalog.productTable.fields, f.fieldId = "price" ∧ f.localized = false ∧
        f.columnDef? = some (.optional ⟨"price"⟩ .integer) := by decide +kernel
    obtain ⟨f, hf, hfield, hlocalized, hcolumn⟩ := hprice
    refine (hentry _ htable (Catalog.product "p1" "Pen" 2147483648) rfl).2 f hf _ hcolumn trivial
      Catalog.english (.int 2147483648) 2147483648 ?_ .self fun hfits => ?_
    · rw [hfield, hlocalized]
      rfl
    · exact absurd hfits.2 (by decide)

/-- The product with two tags in a version beyond the range. -/
def Catalog.editedProduct : Entry :=
  { taggedProduct with sys := { taggedProduct.sys with version := 2147483648 } }

/-- The edited product has rows that do not fit. -/
theorem Mapping.integers_fit_needs_metadata : ∃ r,
    Catalog.mapping.entryRows Catalog.editedProduct = .ok r ∧
      ∃ values ∈ r.rows, ¬ IntegersFit r.columns values := by
  obtain ⟨r, hr⟩ := exists_of_isOk
    (show (Catalog.mapping.entryRows Catalog.editedProduct).isOk = true by decide +kernel)
  have hrows : (Catalog.mapping.entryRows Catalog.editedProduct).toOption.map
      (fun r => r.rows.isEmpty) = some false := by decide +kernel
  rw [hr] at hrows
  obtain ⟨values, hv⟩ := List.exists_mem_of_ne_nil r.rows
    (List.isEmpty_eq_false_iff.1 (Option.some.inj hrows))
  refine ⟨r, hr, values, hv, fun hfits => ?_⟩
  have htable : Catalog.schema.entryTable? "product" = some Catalog.productTable := by decide +kernel
  obtain ⟨hversion, -⟩ := (integersFit_entryRows (m := Catalog.mapping) (.all Catalog.types rfl)
    (by decide +kernel) (by decide +kernel) hr htable hv).1 hfits
  exact absurd hversion.2 (by decide)

end ContentReplica
