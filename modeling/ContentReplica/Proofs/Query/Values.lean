import ContentReplica.Proofs.Plan.Nodes
import ContentReplica.Proofs.Query.Locales
import ContentReplica.Proofs.Replication.Conversion
import ContentReplica.Proofs.Schema.Fields

/-!
# The value that a query shows

A field shows the first value that is there in the locales where it is looked up
(`LocaleContext.firstValue`). Where the rows of a record are those of a payload (`Namespace.Shows`),
that is the converted payload value of the first of these locales that has one
(`Mapping.isValueOf_firstValue`), whatever rows the record has.
-/

namespace ContentReplica

/-! ## Looking values up -/

namespace LocaleContext

/-- The locales in which a field is looked up, in their order. -/
def lookup (lc : LocaleContext) (localized : Bool) : List String :=
  if localized then [lc.requested, lc.fallback, lc.default] else [lc.default]

/-- The first value that is not NULL in the locales where a field is looked up. -/
def firstValue (lc : LocaleContext) (localized : Bool) (value : String → Value) : Value :=
  (((lc.lookup localized).map value).find? fun v => !v.isNull).getD .null

end LocaleContext

/-- The last of some values is taken if no earlier one is there. -/
theorem Value.getD_find?_append (vs : List Value) (v : Value) :
    ((vs ++ [v]).find? fun v => !v.isNull).getD .null = (vs.find? fun v => !v.isNull).getD v := by
  rw [List.find?_append]
  cases vs.find? fun v => !v.isNull with
  | some _ => rfl
  | none => cases v <;> rfl

/-- The rows that are found for a record in a table carry the given values, in the given locales. -/
def Namespace.Shows (n : Namespace) (t : TableLayout) (sys : RecordSys) (locales : List String)
    (value : String → FieldLayout → Value) : Prop :=
  ∀ l, (l ∈ locales ∧ ∃ row, n.findRow? t.name sys.id l = .ok (some row) ∧
    t.Carries sys l (value l) row) ∨ (l ∉ locales ∧ n.findRow? t.name sys.id l = .ok none)

section
variable {n : Namespace} {lc : LocaleContext} {table column : Ident} {sysId : String}
  {cell : String → Value}

/-- The cells of a record are looked up in the order of the locales. -/
theorem Namespace.firstValue?_eq
    (h : ∀ l, (∃ row, n.findRow? table sysId l = .ok (some row) ∧ row.cell column = cell l) ∨
      (n.findRow? table sysId l = .ok none ∧ cell l = .null)) :
    ∀ locales, n.firstValue? table sysId column locales
      = .ok ((locales.map cell).find? fun v => !v.isNull)
  | [] => rfl
  | l :: rest => by
    rw [firstValue?, List.map_cons, List.find?_cons]
    rcases h l with ⟨row, hrow, hcell⟩ | ⟨hrow, hcell⟩
    · rw [hrow]
      dsimp only [bind, Except.bind]
      rw [hcell]
      cases cell l with
      | null => exact firstValue?_eq h rest
      | _ => rfl
    · rw [hrow, hcell]
      exact firstValue?_eq h rest

/-- A field of a record resolves to the first of its cells that is not NULL. -/
theorem Namespace.resolveValue_eq {localized : Bool} {c : PlanColumn} {base : Row}
    (h : c.localized = true → ∀ l,
      (∃ row, n.findRow? table sysId l = .ok (some row) ∧ row.cell c.column = cell l) ∨
        (n.findRow? table sysId l = .ok none ∧ cell l = .null))
    (hlocalized : c.localized = true → localized = true)
    (hsys : base.cell Column.sysId = .text sysId) (hbase : base.cell c.column = cell lc.default) :
    n.resolveValue lc table localized c base = .ok (lc.firstValue c.localized cell) := by
  unfold resolveValue LocaleContext.firstValue LocaleContext.lookup
  dsimp only
  cases hc : c.localized with
  | false =>
    rw [Bool.and_false, Bool.not_false, if_pos rfl, if_neg Bool.false_ne_true, hbase]
    exact congrArg Except.ok (Value.getD_find?_append [] _).symm
  | true =>
    rw [hlocalized hc, Bool.and_self, Bool.not_true, if_neg Bool.false_ne_true, if_pos rfl,
      Row.text?_eq_some.2 hsys]
    dsimp only
    rw [firstValue?_eq (h hc), hbase]
    exact congrArg Except.ok (Value.getD_find?_append _ _).symm

end

/-- A field of a record that is shown resolves to the first of its values that is not NULL. -/
theorem Namespace.Shows.resolveValue_eq {n : Namespace} {lc : LocaleContext} {t : TableLayout}
    {sys : RecordSys} {locales : List String} {value : String → FieldLayout → Value}
    (h : n.Shows t sys locales value) {f : FieldLayout} (hf : f ∈ t.fields)
    (hcolumn : f.columnDef?.isSome = true)
    (hnone : f.localized = true → ∀ l, l ∉ locales → value l f = .null) {localized : Bool}
    (hlocalized : f.localized = true → localized = true) {base : Row}
    (hbase : t.Carries sys lc.default (value lc.default) base) :
    n.resolveValue lc t.name localized ⟨f.fieldId, f.column, f.localized⟩ base
      = .ok (lc.firstValue f.localized fun l => value l f) := by
  refine Namespace.resolveValue_eq (fun hl l => ?_) hlocalized hbase.rowOf.sysId
    (hbase.field f hf hcolumn)
  rcases h l with ⟨-, row, hrow, hcarries⟩ | ⟨hl', hrow⟩
  · exact .inl ⟨row, hrow, hcarries.field f hf hcolumn⟩
  · exact .inr ⟨hrow, hnone hl l hl'⟩

/-! ## Values of payloads -/

namespace TableLayout

/-- The value of a field's column for a payload. -/
def convert (t : TableLayout) (f : FieldLayout) (payload : Json) : Except ValueFault Value :=
  match f.placement with
  | .value type => Value.ofPayload ((Mapping.lenientFields t).contains f.fieldId) type payload
  | .link _ => Mapping.linkCell payload
  | .links _ _ => .ok .null

end TableLayout

namespace Mapping

variable {m : Mapping} {t : TableLayout} {e : Entry} {f : FieldLayout} {lc : LocaleContext}

/-- The payload of a field in one locale, if it is there and not null. -/
def present? (m : Mapping) (e : Entry) (f : FieldLayout) (locale : String) : Option Json :=
  (m.payload? e f.fieldId locale).filter fun p => !p.isNull

/-- The payload that a field shows: the first one that is there in the locales where the field is
looked up. -/
def shownPayload? (m : Mapping) (lc : LocaleContext) (e : Entry) (f : FieldLayout) : Option Json :=
  (lc.lookup f.localized).findSome? (m.present? e f)

/-- What a value is told by: NULL where no payload is, and else the converted payload. -/
def IsValueOf (t : TableLayout) (f : FieldLayout) (payload? : Option Json) (v : Value) : Prop :=
  match payload? with
  | some p => t.convert f p = .ok v ∧ v.isNull = false
  | none => v = .null

/-- The identity in a link column is NULL only for a null payload. -/
theorem isNull_linkCell {p : Json} {v : Value} (h : linkCell p = .ok v) : v.isNull = p.isNull := by
  unfold linkCell at h
  split at h
  · next hp =>
    cases h
    exact hp.symm
  · next hp =>
    split at h <;> cases h
    exact (Bool.not_eq_true _ ▸ hp).symm

/-- The value in a row is that of the payload, read in the default locale if the field is not
localized. -/
theorem isValueOf_entryValue {locale : String} {o : Option Value}
    (h : m.fieldCell? t e locale f = .ok o) (hcolumn : f.columnDef?.isSome = true) :
    IsValueOf t f (m.present? e f (if f.localized then locale else m.default))
      (m.entryValue t e locale f) := by
  have hsome := isSome_fieldCell? h
  rw [hcolumn] at hsome
  obtain ⟨v, rfl⟩ := Option.isSome_iff_exists.1 hsome
  have hvalue : m.entryValue t e locale f = v := by
    unfold entryValue
    rw [h]
  rw [hvalue]
  unfold present?
  unfold fieldCell? at h
  dsimp only at h
  generalize m.payload? e f.fieldId (if f.localized then locale else m.default) = payload at h ⊢
  -- A payload that is null counts as none, and only such a payload converts to NULL.
  have hconvert {p : Json} (hp : t.convert f p = .ok v) (hnull : v.isNull = p.isNull) :
      IsValueOf t f ((some p).filter fun p => !p.isNull) v := by
    rw [Option.filter_some]
    cases hpNull : p.isNull with
    | false => exact ⟨hp, hnull.trans hpNull⟩
    | true =>
      rw [hpNull] at hnull
      cases v <;> first | rfl | cases hnull
  unfold TableLayout.convert at hconvert
  generalize f.placement = placement at h hconvert
  cases payload with
  | none =>
    cases placement with
    | links table target => cases h
    | link target =>
      cases h
      rfl
    | value type =>
      cases h
      rfl
  | some p =>
    cases placement with
    | links table target => cases h
    | link target =>
      dsimp only at h
      cases hcell : linkCell p <;> rw [hcell] at h <;> cases h
      exact hconvert hcell (isNull_linkCell hcell)
    | value type =>
      dsimp only at h
      cases hcell : Value.ofPayload ((lenientFields t).contains f.fieldId) type p <;>
        rw [hcell] at h <;> cases h
      exact hconvert hcell (Value.isNull_ofPayload hcell)

/-- The first value in the rows of an entry is that of the payload that the field shows. -/
theorem isValueOf_firstValue (hdefault : lc.default = m.default)
    (hcells : ∀ l, ∃ o, m.fieldCell? t e l f = .ok o) (hcolumn : f.columnDef?.isSome = true) :
    IsValueOf t f (m.shownPayload? lc e f)
      (lc.firstValue f.localized fun l => m.entryValue t e l f) := by
  have hlookup : ∀ l ∈ lc.lookup f.localized,
      IsValueOf t f (m.present? e f l) (m.entryValue t e l f) := by
    intro l hl
    obtain ⟨o, ho⟩ := hcells l
    have hvalue := isValueOf_entryValue ho hcolumn
    cases hlocalized : f.localized with
    | true => rwa [hlocalized, if_pos rfl] at hvalue
    | false =>
      rw [hlocalized] at hl hvalue
      rw [if_neg Bool.false_ne_true, ← hdefault] at hvalue
      rwa [List.mem_singleton.1 hl] at hvalue ⊢
  unfold shownPayload? LocaleContext.firstValue
  generalize lc.lookup f.localized = locales at hlookup ⊢
  induction locales with
  | nil => rfl
  | cons l rest ih =>
    obtain ⟨hfirst, hrest⟩ := List.forall_mem_cons.1 hlookup
    rw [List.findSome?_cons, List.map_cons, List.find?_cons]
    cases hp : m.present? e f l with
    | none =>
      rw [hp] at hfirst
      rw [show m.entryValue t e l f = .null from hfirst]
      exact ih hrest
    | some p =>
      rw [hp] at hfirst
      rw [hfirst.2]
      exact hfirst

/-! ## The rows of an entry -/

/-- A canonical code is a locale of the space. -/
theorem canonical?_mem {code locale : String} (h : m.space.canonical? code = some locale) :
    locale ∈ m.space.localeCodes := by
  obtain ⟨l, hl, rfl⟩ := Option.map_eq_some_iff.1 h
  exact List.mem_map_of_mem (List.mem_of_find?_eq_some hl)

/-- Where a record has a value, it has a row. -/
theorem mem_rowLocales_of_valueIn? {α : Type} {values : SortedMap String α} {keys : List String}
    (hkeys : ∀ key ∈ values.keys, key ∈ keys) {locale : String} {v : α}
    (h : m.valueIn? values locale = some v) : locale ∈ m.rowLocales keys := by
  obtain ⟨⟨key, _⟩, hfound, -⟩ := Option.map_eq_some_iff.1 h
  have hkey : key ∈ values.keys := List.mem_map_of_mem (List.mem_of_find?_eq_some hfound)
  have hcanonical : m.space.canonical? key = some locale := by
    simpa using List.find?_some hfound
  unfold rowLocales
  refine List.mem_filter.2 ⟨canonical?_mem hcanonical, Bool.or_eq_true_iff.2 (.inr ?_)⟩
  exact List.any_eq_true.2 ⟨key, hkeys key hkey, by simp [hcanonical]⟩

/-- Where a localized field has a payload, its entry has a row. -/
theorem mem_entryLocales (hschema : m.schema.Compiled) (ht : t ∈ m.schema.allTables)
    (hf : f ∈ t.fields) (hlocalized : f.localized = true) {locale : String} {p : Json}
    (h : m.payload? e f.fieldId locale = some p) : locale ∈ m.entryLocales t e := by
  obtain ⟨values, hvalues, h⟩ := Option.bind_eq_some_iff.1 h
  refine mem_rowLocales_of_valueIn? (fun key hkey => List.mem_flatMap.2 ⟨values, ?_, hkey⟩) h
  refine SortedMap.mem_values.2 ⟨f.fieldId, SortedMap.get?_filter_eq_some.2 ⟨hvalues, ?_⟩⟩
  dsimp only
  rw [TableLayout.field?_eq_some hschema ht hf]
  exact hlocalized

/-- A localized field has no payload in a locale that its entry has no row in. -/
theorem payload?_eq_none (hschema : m.schema.Compiled) (ht : t ∈ m.schema.allTables)
    (hf : f ∈ t.fields) (hlocalized : f.localized = true) {locale : String}
    (hl : locale ∉ m.entryLocales t e) : m.payload? e f.fieldId locale = none := by
  by_contra hsome
  obtain ⟨p, hp⟩ := Option.ne_none_iff_exists'.1 hsome
  exact hl (mem_entryLocales hschema ht hf hlocalized hp)

/-- An entry that has rows has a cell for each of its fields in every locale. -/
theorem exists_fieldCell (hschema : m.schema.Compiled) (hdefault : m.default ∈ m.space.localeCodes)
    {r : RecordRows} (hr : m.entryRows e = .ok r) (ht : m.schema.entryTable? e.contentType = some t)
    (hf : f ∈ t.fields) (locale : String) : ∃ o, m.fieldCell? t e locale f = .ok o := by
  have hmem : t ∈ m.schema.allTables := List.mem_append_left _ (Schema.entryTable?_eq_some ht).1
  obtain ⟨t', rows, edges, ht', hrows, -⟩ := entryRows_eq_ok.1 hr
  obtain rfl := Option.some.inj (ht.symm.trans ht')
  have hin {l : String} (hl : l ∈ m.entryLocales t e) : ∃ o, m.fieldCell? t e l f = .ok o := by
    obtain ⟨values, -, hvalues⟩ := exists_right_of_forall₂ (mapM_eq_ok.1 hrows) hl
    exact (carries_entryRow hschema hmem hvalues).2 f hf
  by_cases hlocalized : f.localized = true
  · by_cases hl : locale ∈ m.entryLocales t e
    · exact hin hl
    · unfold fieldCell?
      rw [if_pos hlocalized, payload?_eq_none hschema hmem hf hlocalized hl]
      cases f.placement <;> exact ⟨_, rfl⟩
  · obtain ⟨o, ho⟩ := hin (default_mem_rowLocales _ hdefault)
    refine ⟨o, ?_⟩
    unfold fieldCell? at ho ⊢
    rwa [if_neg hlocalized] at ho ⊢

/-- A localized field leaves NULL in a locale that its entry has no row in. -/
theorem entryValue_eq_null (hschema : m.schema.Compiled) (ht : t ∈ m.schema.allTables)
    (hf : f ∈ t.fields) (hlocalized : f.localized = true) {locale : String}
    (hl : locale ∉ m.entryLocales t e) : m.entryValue t e locale f = .null := by
  unfold entryValue fieldCell?
  rw [if_pos hlocalized, payload?_eq_none hschema ht hf hlocalized hl]
  cases f.placement <;> rfl

end Mapping

end ContentReplica
