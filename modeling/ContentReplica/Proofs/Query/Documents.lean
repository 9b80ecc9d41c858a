import ContentReplica.Proofs.Query.Answers
import ContentReplica.Proofs.Query.Values

/-!
# Documents, field by field

A document has one member for each field of its node, and each member is read on its own
(`Namespace.fieldDocuments_eq`). What a table holds settles the rows that queries find
(`Mirror.findRow?_eq_some`, `Mirror.findRow?_eq_none`), so the rows of a record are those of its payload
(`Mirror.shows`).
-/

namespace ContentReplica

/-! ## Members -/

namespace Namespace

variable {n : Namespace} {lc : LocaleContext} {table : Ident} {localized : Bool} {base : Row}

/-- The member of one field of a document. -/
def fieldDocument (n : Namespace) (lc : LocaleContext) (table : Ident) (localized : Bool)
    (base : Row) : PlanField → Except StoreFault Json
  | .value c _ => Value.toJson <$> n.resolveValue lc table localized c base
  | .link c target => do
    match (← n.resolveValue lc table localized c base).toText? with
    | none => pure .null
    | some id => (·.getD .null) <$> n.linkDocument? lc id target
  | .links c linkTable target => do
    let edges ← n.edgesOf lc linkTable.name c.localized base
    Json.arr <$> (edges.filterMap fun e => e.text? Column.targetSysId).filterMapM fun id =>
      n.linkDocument? lc id target

/-- The members of a document are those of its fields. -/
theorem fieldDocuments_eq : ∀ fields : List PlanField,
    n.fieldDocuments lc table localized base fields = fields.mapM fun field =>
      Prod.mk field.column.fieldId <$> n.fieldDocument lc table localized base field
  | [] => by rw [fieldDocuments, List.mapM_nil]
  | field :: rest => by
    rw [List.mapM_cons, ← fieldDocuments_eq rest]
    cases field with
    | value c type =>
      rw [fieldDocuments, fieldDocument]
      cases n.resolveValue lc table localized c base <;> rfl
    | link c target =>
      rw [fieldDocuments, fieldDocument]
      cases n.resolveValue lc table localized c base with
      | error fault => rfl
      | ok v =>
        dsimp only [bind, Except.bind]
        cases v.toText? with
        | none => rfl
        | some id =>
          dsimp only
          cases n.linkDocument? lc id target <;> rfl
    | links c linkTable target =>
      rw [fieldDocuments, fieldDocument]
      cases n.edgesOf lc linkTable.name c.localized base with
      | error fault => rfl
      | ok edges =>
        dsimp only [bind, Except.bind]
        cases List.filterMapM (fun id => n.linkDocument? lc id target)
          (edges.filterMap fun e => e.text? Column.targetSysId) <;> rfl

/-- Each field of a node has its member in the document. -/
theorem field?_document {node : PlanNode} {doc : Json} (h : n.document lc base node = .ok doc)
    (hnodup : (node.fields.map fun field => field.column.fieldId).Nodup) {field : PlanField}
    (hfield : field ∈ node.fields) :
    ∃ j, n.fieldDocument lc node.source.table.name node.hasLocalized base field = .ok j ∧
      doc.field? field.column.fieldId = some j := by
  cases node with
  | mk source localized fields =>
    rw [document] at h
    obtain ⟨members, hmembers, h⟩ := bind_eq_ok.1 h
    obtain rfl := pure_eq_ok.1 h
    rw [fieldDocuments_eq] at hmembers
    have hkeys : members.map Prod.fst = fields.map fun field => field.column.fieldId :=
      map_eq_of_mapM hmembers fun field member hmember => by
        obtain ⟨j, -, rfl⟩ := map_eq_ok.1 hmember
        rfl
    obtain ⟨member, hm, hmember⟩ := exists_right_of_forall₂ (mapM_eq_ok.1 hmembers) hfield
    obtain ⟨j, hj, rfl⟩ := map_eq_ok.1 hmember
    exact ⟨j, hj, Json.field?_mkObj (hkeys ▸ hnodup) hm⟩

end Namespace

/-- Each field of a table has its member in the document of a record of the table. -/
theorem Namespace.field?_document_planNode {n : Namespace} {lc : LocaleContext} {s : Schema}
    {ns : Ident} {remaining depth : Nat} {t : TableLayout} {base : Row} {doc : Json}
    (h : n.document lc base (s.planNode ns remaining depth t) = .ok doc) (hschema : s.Compiled)
    (ht : t ∈ s.allTables) {f : FieldLayout} (hf : f ∈ t.fields) :
    ∃ j, n.fieldDocument lc t.name (s.planNode ns remaining depth t).hasLocalized base
        (s.planField ns remaining depth f) = .ok j ∧ doc.field? f.fieldId = some j := by
  have hnodup : ((s.planNode ns remaining depth t).fields.map
      fun field => field.column.fieldId).Nodup := by
    rw [Schema.planNode_fields, List.map_map]
    exact (List.map_congr_left fun f _ => Schema.fieldId_planField remaining depth f) ▸
      hschema.nodup_fieldIds ht
  obtain ⟨j, hj, hdoc⟩ := Namespace.field?_document h hnodup
    (Schema.planNode_fields remaining depth t ▸ List.mem_map_of_mem hf)
  rw [Schema.planNode_source] at hj
  exact ⟨j, hj, Schema.fieldId_planField remaining depth f ▸ hdoc⟩

/-! ## The rows that queries find -/

section
variable {s : Schema} {base n : Namespace} {contents : Contents} {t : TableLayout}

/-- All tables that hold content stand. -/
theorem Mirror.stands (h : Mirror s base n contents) {names : List Ident}
    (hnames : ∀ name ∈ names, name ∈ s.contentTables.map Prod.fst) : n.Stands names := by
  intro name hname
  obtain ⟨⟨name, columns⟩, hx, rfl⟩ := List.mem_map.1 (hnames _ hname)
  obtain ⟨t, ht, -⟩ := h.table_eq_ok hx
  exact ⟨t, ht⟩

/-- The row of a record in a locale is found. -/
theorem Mirror.findRow?_eq_some (h : Mirror s base n contents) (ht : t ∈ s.allTables)
    (hrows : ∀ row, contents t.name row → ∃ sysId locale, RowOf sysId locale row)
    {sysId locale : String} {row : Row} (hrow : contents t.name row)
    (hrowOf : RowOf sysId locale row) : n.findRow? t.name sysId locale = .ok (some row) := by
  obtain ⟨table, htable, hold⟩ := h.table_eq_ok (Schema.mem_contentTables_of_table ht)
  unfold Namespace.findRow?
  rw [htable]
  refine congrArg Except.ok (find?_eq_some_of_unique (hold.mem_values.2 ⟨hrow, _, hrowOf.id⟩) ?_ ?_)
  · rw [Row.text?_eq_some.2 hrowOf.sysId, Row.text?_eq_some.2 hrowOf.locale, beq_self_eq_true,
      beq_self_eq_true, Bool.and_self]
  · intro row' hrow' hp
    rw [Bool.and_eq_true, beq_iff_eq, beq_iff_eq, Row.text?_eq_some, Row.text?_eq_some] at hp
    obtain ⟨sysId', locale', hrowOf'⟩ := hrows row' (hold.mem_values.1 hrow').1
    obtain rfl := Value.text.inj (hp.1.symm.trans hrowOf'.sysId)
    obtain rfl := Value.text.inj (hp.2.symm.trans hrowOf'.locale)
    have hget := (hold.get?_iff _ row).2 ⟨hrow, hrowOf.id⟩
    have hget' := (hold.get?_iff _ row').2 ⟨(hold.mem_values.1 hrow').1, hrowOf'.id⟩
    exact Option.some.inj (hget'.symm.trans hget)

/-- Without a row of the record in the locale nothing is found. -/
theorem Mirror.findRow?_eq_none (h : Mirror s base n contents) (ht : t ∈ s.allTables)
    {sysId locale : String} (hnone : ∀ row, contents t.name row →
      row.cell Column.sysId = .text sysId → row.cell Column.locale ≠ .text locale) :
    n.findRow? t.name sysId locale = .ok none := by
  obtain ⟨table, htable, hold⟩ := h.table_eq_ok (Schema.mem_contentTables_of_table ht)
  unfold Namespace.findRow?
  rw [htable]
  refine congrArg Except.ok (List.find?_eq_none.2 fun row hrow hp => ?_)
  rw [Bool.and_eq_true, beq_iff_eq, beq_iff_eq, Row.text?_eq_some, Row.text?_eq_some] at hp
  exact hnone row (hold.mem_values.1 hrow).1 hp.1 hp.2

/-- What the rows of a record carry is shown, if they are the rows of the record in the table. -/
theorem Mirror.shows (h : Mirror s base n contents) (ht : t ∈ s.allTables)
    (hrows : ∀ row, contents t.name row → ∃ sysId locale, RowOf sysId locale row)
    {sys : RecordSys} {locales : List String} {value : String → FieldLayout → Value}
    {r : RecordRows} (hsys : r.sysId = sys.id)
    (hmade : List.Forall₂ (fun l values =>
      t.Carries sys l (value l) (Row.ofCells t.columns values)) locales r.rows)
    (hrecord : contents.HasRecord t r) : n.Shows t sys locales value := by
  intro l
  by_cases hl : l ∈ locales
  · obtain ⟨values, hvalues, hcarries⟩ := exists_right_of_forall₂ hmade hl
    have hrow := ((hrecord _).2 (List.mem_map_of_mem hvalues)).1
    exact .inl ⟨hl, _, h.findRow?_eq_some ht hrows hrow hcarries.rowOf, hcarries⟩
  · refine .inr ⟨hl, h.findRow?_eq_none ht fun row hrow hsysId hlocale => hl ?_⟩
    obtain ⟨values, hvalues, rfl⟩ := List.mem_map.1 ((hrecord row).1 ⟨hrow, hsys ▸ hsysId⟩)
    obtain ⟨l', hl', hcarries⟩ := exists_left_of_forall₂ hmade hvalues
    rwa [Value.text.inj (hlocale.symm.trans hcarries.rowOf.locale)]

end

section
variable {m : Mapping} {n : Namespace} {t : TableLayout} {e : Entry} {r : RecordRows}

/-- The rows of an entry are in the locales that it has rows in, each with the values there. -/
theorem Mapping.carries_entryRows (hschema : m.schema.Compiled)
    (ht : m.schema.entryTable? e.contentType = some t) (hr : m.entryRows e = .ok r) :
    r.sysId = e.sys.id ∧ r.locales = m.entryLocales t e ∧
      List.Forall₂ (fun l values => t.Carries e.sys l (m.entryValue t e l)
        (Row.ofCells t.columns values)) (m.entryLocales t e) r.rows := by
  have hmem : t ∈ m.schema.allTables := List.mem_append_left _ (Schema.entryTable?_eq_some ht).1
  obtain ⟨t', rows, edges, ht', hrows, -, rfl⟩ := entryRows_eq_ok.1 hr
  obtain rfl := Option.some.inj (ht.symm.trans ht')
  exact ⟨rfl, rfl, (mapM_eq_ok.1 hrows).imp fun _ _ hv => (carries_entryRow hschema hmem hv).1⟩

/-- A field of an entry that is shown resolves to the value of the payload that the field shows. -/
theorem Namespace.Shows.resolveValue_entry {lc : LocaleContext} {ns : Ident} {remaining depth : Nat}
    {f : FieldLayout} {root : Row}
    (h : n.Shows t e.sys (m.entryLocales t e) (m.entryValue t e)) (hschema : m.schema.Compiled)
    (hdefault : m.default ∈ m.space.localeCodes)
    (ht : m.schema.entryTable? e.contentType = some t) (hr : m.entryRows e = .ok r)
    (hf : f ∈ t.fields) (hcolumn : f.columnDef?.isSome = true) (hlc : lc.default = m.default)
    (hroot : t.Carries e.sys m.default (m.entryValue t e m.default) root) :
    ∃ v, n.resolveValue lc t.name (m.schema.planNode ns remaining depth t).hasLocalized
        ⟨f.fieldId, f.column, f.localized⟩ root = .ok v ∧
      Mapping.IsValueOf t f (m.shownPayload? lc e f) v := by
  have hmem : t ∈ m.schema.allTables := List.mem_append_left _ (Schema.entryTable?_eq_some ht).1
  have hlocalized (hl : f.localized = true) :
      (m.schema.planNode ns remaining depth t).hasLocalized = true :=
    Schema.planNode_hasLocalized (List.any_eq_true.2 ⟨f, hf, hl⟩) remaining depth
  refine ⟨_, h.resolveValue_eq hf hcolumn
    (fun hl l hnot => Mapping.entryValue_eq_null hschema hmem hf hl hnot) hlocalized (hlc ▸ hroot), ?_⟩
  exact Mapping.isValueOf_firstValue hlc
    (fun l => Mapping.exists_fieldCell hschema hdefault hr ht hf l) hcolumn

/-- A plain field of the document of an entry that is shown has the converted payload that the field
shows. -/
theorem Namespace.Shows.field?_document {lc : LocaleContext} {ns : Ident} {remaining depth : Nat}
    {f : FieldLayout} {root : Row} {doc : Json}
    (h : n.Shows t e.sys (m.entryLocales t e) (m.entryValue t e)) (hschema : m.schema.Compiled)
    (hdefault : m.default ∈ m.space.localeCodes)
    (ht : m.schema.entryTable? e.contentType = some t) (hr : m.entryRows e = .ok r)
    (hf : f ∈ t.fields) {type : SqlType} (htype : f.placement = .value type)
    (hlc : lc.default = m.default)
    (hroot : t.Carries e.sys m.default (m.entryValue t e m.default) root)
    (hdoc : n.document lc root (m.schema.planNode ns remaining depth t) = .ok doc) :
    match m.shownPayload? lc e f with
    | some payload => ∃ v,
        Value.ofPayload ((Mapping.lenientFields t).contains f.fieldId) type payload = .ok v ∧
          doc.field? f.fieldId = some v.toJson
    | none => doc.field? f.fieldId = some .null := by
  have hmem : t ∈ m.schema.allTables := List.mem_append_left _ (Schema.entryTable?_eq_some ht).1
  obtain ⟨v, hv, hvalue⟩ : ∃ v,
      n.resolveValue lc t.name (m.schema.planNode ns remaining depth t).hasLocalized
        ⟨f.fieldId, f.column, f.localized⟩ root = .ok v ∧
      Mapping.IsValueOf t f (m.shownPayload? lc e f) v :=
    h.resolveValue_entry hschema hdefault ht hr hf (FieldLayout.isSome_columnDef? htype) hlc hroot
  obtain ⟨j, hj, hfield⟩ := field?_document_planNode hdoc hschema hmem hf
  have hplan : m.schema.planField ns remaining depth f
      = .value ⟨f.fieldId, f.column, f.localized⟩ type := by
    unfold Schema.planField
    rw [htype]
  rw [hplan, fieldDocument, hv] at hj
  obtain rfl := Except.ok.inj hj
  rw [hfield]
  unfold Mapping.IsValueOf TableLayout.convert at hvalue
  rw [htype] at hvalue
  cases hshown : m.shownPayload? lc e f with
  | none =>
    rw [hshown] at hvalue
    exact congrArg (fun v : Value => some v.toJson) hvalue
  | some payload =>
    rw [hshown] at hvalue
    exact ⟨v, hvalue.1, rfl⟩

end

end ContentReplica
