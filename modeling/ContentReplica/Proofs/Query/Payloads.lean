import ContentReplica.Proofs.Query.Documents
import ContentReplica.Proofs.Query.Links
import ContentReplica.Proofs.Replication.LastWriter

/-!
# Queries of what was delivered

A query shows of each record what was delivered last for it (`Mapping.latest?`), in a namespace that
holds what the pages say: the record is found where it was delivered and not deleted, its fields have
the values of the payload (`Mapping.shownValue`), and its edges lead to the targets that the payload
lists (`Mapping.shownTargets`).
-/

namespace ContentReplica

/-! ## Payloads -/

/-- A delivered record. -/
inductive Payload where
  | entry (entry : Entry)
  | asset (asset : Asset)

/-- The metadata of a delivered record. -/
def Payload.sys : Payload → RecordSys
  | .entry e => e.sys
  | .asset a => a.sys

/-- The record that an event delivers. -/
def FeedEvent.payload? : FeedEvent → Option Payload
  | .entry e => some (.entry e)
  | .asset a => some (.asset a)
  | .deletion _ => none

namespace Mapping

/-- What was delivered last for a record, if it was not deleted after that. -/
def latest? (m : Mapping) (pages : List SyncPage) (table : Ident) (sysId : String) :
    Option Payload :=
  ((pages.flatMap SyncPage.events).filter (m.addresses table sysId)).getLast?.bind
    FeedEvent.payload?

/-- The rows of a payload. -/
def recordRows (m : Mapping) : Payload → Except Error RecordRows
  | .entry e => m.entryRows e
  | .asset a => .ok (m.assetRows a)

/-- The locales that a payload has rows in. -/
def payloadLocales (m : Mapping) (t : TableLayout) : Payload → List String
  | .entry e => m.entryLocales t e
  | .asset a => m.rowLocales a.locales

/-- The value of a payload in a row. -/
def payloadValue (m : Mapping) (t : TableLayout) : Payload → String → FieldLayout → Value
  | .entry e => m.entryValue t e
  | .asset a => m.assetValue a

/-- The targets that a payload lists; an asset refers to nothing. -/
def payloadTargets (m : Mapping) : Payload → String → String → List String
  | .entry e => m.targets e
  | .asset _ => fun _ _ => []

/-- The value that a field of a payload shows. -/
def shownValue (m : Mapping) (lc : LocaleContext) (t : TableLayout) : Payload → FieldLayout → Value
  | .entry e, f =>
    match m.shownPayload? lc e f with
    | some p => (t.convert f p).toOption.getD .null
    | none => .null
  | .asset a, f => lc.firstValue f.localized fun locale => m.assetValue a locale f

/-- The targets that an array of links of a payload shows. -/
def shownTargets (m : Mapping) (lc : LocaleContext) (p : Payload) (f : FieldLayout) : List String :=
  lc.firstTargets f.localized (m.payloadTargets p f.fieldId)

/-- A payload delivers the rows of a record of a table. -/
structure Delivers (m : Mapping) (t : TableLayout) (p : Payload) (r : RecordRows) : Prop where
  table : match p with
    | .entry e => m.schema.entryTable? e.contentType = some t
    | .asset _ => t = assetLayout
  rows : m.recordRows p = .ok r

variable {m : Mapping} {pages : List SyncPage} {t : TableLayout} {p : Payload} {r : RecordRows}
  {sysId : String}

/-- Where nothing was delivered last no record is held. -/
theorem current_eq_none (h : m.latest? pages t.name sysId = none) :
    m.current pages t.name sysId = none := by
  unfold latest? at h
  unfold current after
  cases hlast : ((pages.flatMap SyncPage.events).filter (m.addresses t.name sysId)).getLast? with
  | none => rfl
  | some event =>
    rw [hlast] at h
    cases event with
    | entry e => cases h
    | asset a => cases h
    | deletion _ => rfl

/-- Where a payload was delivered last its record is held. -/
theorem exists_current (hfree : m.schema.CollisionFree)
    (hconverts : ∀ event ∈ pages.flatMap SyncPage.events, m.Converts event)
    (ht : t ∈ m.schema.allTables) (h : m.latest? pages t.name sysId = some p) :
    ∃ r, m.current pages t.name sysId = some r ∧ m.Delivers t p r ∧ p.sys.id = sysId := by
  obtain ⟨event, hlast, hp⟩ := Option.bind_eq_some_iff.1 h
  obtain ⟨hevent, haddresses⟩ := List.mem_filter.1 (List.mem_of_getLast? hlast)
  unfold current after
  rw [hlast]
  cases event with
  | entry e =>
    obtain rfl := Option.some.inj hp
    unfold addresses at haddresses
    simp only [Bool.and_eq_true, beq_iff_eq, Option.map_eq_some_iff] at haddresses
    obtain ⟨hid, t', ht', hname⟩ := haddresses
    obtain rfl := hfree.table_eq (List.mem_append_left _ (Schema.entryTable?_eq_some ht').1) ht hname
    have htable : m.hasTable e = true := by
      unfold hasTable
      rw [ht']
      rfl
    obtain ⟨r, hr⟩ := hconverts _ hevent htable
    exact ⟨r, congrArg Except.toOption hr, ⟨ht', hr⟩, hid⟩
  | asset a =>
    obtain rfl := Option.some.inj hp
    unfold addresses at haddresses
    simp only [Bool.and_eq_true, beq_iff_eq] at haddresses
    have htable := hfree.table_eq ht (List.mem_append_right _ (List.mem_singleton_self _))
      haddresses.2.symm
    exact ⟨_, rfl, ⟨htable, rfl⟩, haddresses.1⟩
  | deletion _ => cases hp

/-- A payload has a row in the default locale. -/
theorem default_mem_payloadLocales (h : m.default ∈ m.space.localeCodes) (t : TableLayout)
    (p : Payload) : m.default ∈ m.payloadLocales t p := by
  cases p <;> exact default_mem_rowLocales _ h

/-- The rows of a payload are in the locales that it has rows in, each with the values there. -/
theorem Delivers.carries (h : m.Delivers t p r) (hschema : m.schema.Compiled) :
    r.sysId = p.sys.id ∧
      List.Forall₂ (fun l values => t.Carries p.sys l (m.payloadValue t p l)
        (Row.ofCells t.columns values)) (m.payloadLocales t p) r.rows := by
  obtain ⟨htable, hrows⟩ := h
  cases p with
  | entry e =>
    obtain ⟨hsys, -, hcarries⟩ := carries_entryRows hschema htable hrows
    exact ⟨hsys, hcarries⟩
  | asset a =>
    obtain rfl : t = assetLayout := htable
    obtain rfl := Except.ok.inj hrows
    refine ⟨rfl, List.forall₂_map_right_iff.2 (List.forall₂_same.2 fun l _ => ?_)⟩
    exact carries_assetRow hschema a

end Mapping

/-! ## Records that are shown -/

section
variable {m : Mapping} {codes : List String} {base n : Namespace} {contents : Contents}
  {held : Held} {t : TableLayout} {p : Payload} {r : RecordRows}

/-- A record that is held has its rows in its table. -/
theorem Contents.Shows.hasRecord {s : Schema} (h : contents.Shows s codes held)
    (hfree : s.CollisionFree) (ht : t ∈ s.allTables) {sysId : String}
    (hheld : held t.name sysId = some r) : contents.HasRecord t r := by
  obtain ⟨hdescribes, rfl⟩ := h.describes t ht sysId r hheld
  intro row
  have hstored : row ∈ held.stored t.name r.sysId t.name ↔
      row ∈ r.rows.map (Row.ofCells t.columns) := by
    unfold Held.stored
    rw [hheld]
    dsimp only
    rw [hdescribes.stored_table (hfree.name_notMem_links ht)]
  rw [TableLayout.owns_table_iff hfree ht, ← hstored]
  constructor
  · rintro ⟨hrow, howns⟩
    exact (h.iff t ht _ _ row howns).1 hrow
  · intro hrow
    have howns : t.Owns r.sysId t.name row := by
      obtain ⟨l, -, hrowOf⟩ := hdescribes.rowOf_of_mem (hstored.1 hrow)
      exact .inl ⟨rfl, hrowOf.sysId⟩
    exact ⟨(h.iff t ht _ _ row howns).2 hrow, howns⟩

/-- Rows of records stand in a table, in locales of the space. -/
theorem Contents.Shows.rowOf {s : Schema} (h : contents.Shows s codes held) (ht : t ∈ s.allTables)
    {row : Row} (hrow : contents t.name row) : ∃ sysId locale, RowOf sysId locale row := by
  obtain ⟨sysId, locale, -, hrowOf⟩ := h.regular.rows t ht row hrow
  exact ⟨sysId, locale, hrowOf⟩

/-- A record that is not held has no row in its table. -/
theorem Contents.Shows.sysId_ne {s : Schema} (h : contents.Shows s codes held)
    (hfree : s.CollisionFree) (ht : t ∈ s.allTables) {sysId : String}
    (hnone : held t.name sysId = none) {row : Row} (hrow : contents t.name row) :
    row.cell Column.sysId ≠ .text sysId := by
  intro hid
  have hstored := (h.iff t ht _ _ row ((TableLayout.owns_table_iff hfree ht).1 hid)).1 hrow
  unfold Held.stored at hstored
  rw [hnone] at hstored
  cases hstored

/-- A record that was delivered is shown, with a row in the default locale. -/
theorem Mapping.Delivers.shows (h : m.Delivers t p r) (hm : m.Sound)
    (hmirror : Mirror m.schema base n contents) (hshows : contents.Shows m.schema codes held)
    (ht : t ∈ m.schema.allTables) (hheld : held t.name p.sys.id = some r) :
    n.Shows t p.sys (m.payloadLocales t p) (m.payloadValue t p) ∧
      ∃ root, contents t.name root ∧ t.Carries p.sys m.default (m.payloadValue t p m.default) root := by
  obtain ⟨hsys, hmade⟩ := h.carries hm.compiled
  have hrecord := hshows.hasRecord hm.collisionFree ht hheld
  obtain ⟨values, hvalues, hcarries⟩ :=
    exists_right_of_forall₂ hmade (Mapping.default_mem_payloadLocales hm.default_mem t p)
  exact ⟨hmirror.shows ht (fun _ hrow => hshows.rowOf ht hrow) hsys hmade hrecord, _,
    ((hrecord _).2 (List.mem_map_of_mem hvalues)).1, hcarries⟩

/-- An asset leaves NULL in a locale that it has no row in. -/
theorem Mapping.assetValue_eq_null {a : Asset} {locale : String}
    (hl : locale ∉ m.rowLocales a.locales) (f : FieldLayout) : m.assetValue a locale f = .null := by
  have hnone {α : Type} {values : SortedMap String α} (hkeys : ∀ key ∈ values.keys, key ∈ a.locales) :
      m.valueIn? values locale = none :=
    Option.eq_none_iff_forall_ne_some.2 fun v hv => hl (mem_rowLocales_of_valueIn? hkeys hv)
  have htitle : m.valueIn? a.title locale = none :=
    hnone fun _ h => List.mem_append_left _ (List.mem_append_left _ h)
  have hdescription : m.valueIn? a.description locale = none :=
    hnone fun _ h => List.mem_append_left _ (List.mem_append_right _ h)
  have hfile : m.valueIn? a.file locale = none := hnone fun _ h => List.mem_append_right _ h
  unfold assetValue
  split
  · next g _ => cases g <;> simp [assetText?, htitle, hdescription, hfile, Value.ofText?]
  · rfl

/-- A field of a record that was delivered resolves to the value that its payload shows. -/
theorem Mapping.Delivers.resolveValue_eq (h : m.Delivers t p r) (hm : m.Sound)
    (hshown : n.Shows t p.sys (m.payloadLocales t p) (m.payloadValue t p)) {lc : LocaleContext}
    (hlc : lc.default = m.default) {ns : Ident} {remaining depth : Nat} {f : FieldLayout}
    (hf : f ∈ t.fields) (hcolumn : f.columnDef?.isSome = true) {root : Row}
    (hroot : t.Carries p.sys m.default (m.payloadValue t p m.default) root) :
    n.resolveValue lc t.name (m.schema.planNode ns remaining depth t).hasLocalized
      ⟨f.fieldId, f.column, f.localized⟩ root = .ok (m.shownValue lc t p f) := by
  obtain ⟨htable, hrows⟩ := h
  cases p with
  | entry e =>
    obtain ⟨v, hv, hvalue⟩ : ∃ v, n.resolveValue lc t.name
        (m.schema.planNode ns remaining depth t).hasLocalized ⟨f.fieldId, f.column, f.localized⟩
        root = .ok v ∧ IsValueOf t f (m.shownPayload? lc e f) v :=
      Namespace.Shows.resolveValue_entry hshown hm.compiled hm.default_mem htable hrows hf hcolumn
        hlc hroot
    rw [hv]
    unfold IsValueOf at hvalue
    unfold shownValue
    dsimp only
    cases hp : m.shownPayload? lc e f with
    | none =>
      rw [hp] at hvalue
      exact congrArg Except.ok hvalue
    | some payload =>
      rw [hp] at hvalue
      dsimp only
      rw [hvalue.1]
      rfl
  | asset a =>
    have hlocalized (hl : f.localized = true) :
        (m.schema.planNode ns remaining depth t).hasLocalized = true :=
      Schema.planNode_hasLocalized (List.any_eq_true.2 ⟨f, hf, hl⟩) remaining depth
    exact Namespace.Shows.resolveValue_eq hshown hf hcolumn
      (fun _ l hl => assetValue_eq_null hl f) hlocalized (hlc ▸ hroot)

/-- Where an entry has no edges of a field, but the field is looked up, its payload lists nothing. -/
theorem Mapping.targets_eq_nil {e : Entry} (hschema : m.schema.Compiled)
    (ht : t ∈ m.schema.allTables) {f : FieldLayout} (hf : f ∈ t.fields) {lc : LocaleContext}
    (hlc : lc.default = m.default) {locale : String} (hl : locale ∈ lc.lookup f.localized)
    (hnot : locale ∉ m.edgeLocales t e f.localized) : m.targets e f.fieldId locale = [] := by
  unfold edgeLocales at hnot
  by_cases hlocalized : f.localized = true
  · rw [if_pos hlocalized] at hnot
    unfold targets
    rw [payload?_eq_none hschema ht hf hlocalized hnot]
  · unfold LocaleContext.lookup at hl
    rw [if_neg hlocalized] at hl hnot
    exact absurd (hlc ▸ hl) hnot

/-- An entry brings to a link table the edges to its targets, in one locale after the other. -/
theorem Mapping.stored_entryRows {e : Entry} (hr : m.entryRows e = .ok r)
    (ht : m.schema.entryTable? e.contentType = some t) (hdescribes : r.Describes t codes)
    (hlinks : (t.linkTables.map LinkTable.name).Nodup) {l : LinkTable} (hl : l ∈ t.linkTables)
    (hname : l.name ≠ t.name) :
    r.stored l.name = (m.edgeLocales t e l.localized).flatMap
      fun locale => edgesTo e.sys.id locale (m.targets e l.fieldId locale) := by
  obtain ⟨t', rows, sets, ht', -, hsets, rfl⟩ := entryRows_eq_ok.1 hr
  obtain rfl := Option.some.inj (ht.symm.trans ht')
  obtain ⟨set, hmem, hset⟩ := exists_right_of_forall₂ (mapM_eq_ok.1 hsets) hl
  obtain ⟨hlink, -, hrows⟩ := edgeSet_eq hset
  have hnames : (sets.map EdgeSet.linkTable).Nodup := hdescribes.links_eq ▸ hlinks
  have hone : sets.filter (fun other => other.linkTable = l.name) = [set] :=
    filter_eq_singleton hnames.of_map hmem (decide_eq_true hlink) fun other hother he =>
      List.inj_on_of_nodup_map hnames hother hmem ((of_decide_eq_true he).trans hlink.symm)
  rw [hdescribes.stored_link hname]
  dsimp only
  rw [hone, List.flatMap_singleton, hrows, List.map_flatMap]
  rfl

/-- The edges of a record that was delivered are those to the targets that its payload lists. -/
theorem Mapping.Delivers.targets_edgesOf (h : m.Delivers t p r) (hm : m.Sound)
    (hreplicated : Replicated m.schema codes base n held) (ht : t ∈ m.schema.allTables)
    (hheld : held t.name p.sys.id = some r) {lc : LocaleContext} (hlc : lc.default = m.default)
    {f : FieldLayout} (hf : f ∈ t.fields) {name : Ident} {target : LinkTarget}
    (hplacement : f.placement = .links name target) {root : Row}
    (hroot : root.cell Column.sysId = .text p.sys.id) :
    ∃ edges, n.edgesOf lc name f.localized root = .ok edges ∧
      (edges.filterMap fun row => row.text? Column.targetSysId) = m.shownTargets lc p f := by
  obtain ⟨l, hl, hname, hfield, hlocalized⟩ : ∃ l ∈ t.linkTables, l.name = name ∧
      l.fieldId = f.fieldId ∧ l.localized = f.localized := by
    refine ⟨⟨name, t.contentType, t.name, f.fieldId, f.localized, target⟩,
      List.mem_filterMap.2 ⟨f, hf, ?_⟩, rfl, rfl, rfl⟩
    unfold TableLayout.linkTable?
    rw [hplacement]
  have hfree := hm.collisionFree
  have hlink := Schema.mem_linkTables ht hl
  obtain ⟨table, hget, hperm⟩ : ∃ table, n.tables.get? l.name = some table ∧
      (table.rows.values.filter fun row => row.text? Column.ownerSysId == some p.sys.id).Perm
        (held.stored t.name p.sys.id l.name) :=
    hreplicated.filter_perm hfree ht (List.mem_map_of_mem (Schema.mem_contentTables_of_link hlink))
      fun _ => TableLayout.owns_link_iff hfree ht hl
  have htable : n.table name = .ok table := by
    unfold Namespace.table
    rw [← hname, hget]
  obtain ⟨contents, -, hshows⟩ := hreplicated
  obtain ⟨hdescribes, -⟩ := hshows.describes t ht _ r hheld
  obtain ⟨hentry, hrows⟩ := h
  cases p with
  | asset a =>
    obtain rfl : t = assetLayout := hentry
    obtain ⟨g, -, rfl⟩ := List.mem_map.1 hf
    cases hplacement
  | entry e =>
    unfold Held.stored at hperm
    rw [hheld] at hperm
    dsimp only at hperm
    rw [stored_entryRows hrows hentry hdescribes (hfree.nodup_linkTables_of_table ht) hl
      (hfree.table_ne_link ht hlink).symm, hfield, hlocalized] at hperm
    -- The payload may list targets where no edges are stored, but these are not looked up.
    let stored (l : String) : List String :=
      if l ∈ m.edgeLocales t e f.localized then m.targets e f.fieldId l else []
    have hstored : (m.edgeLocales t e f.localized).flatMap
          (fun l => edgesTo e.sys.id l (m.targets e f.fieldId l))
        = (m.edgeLocales t e f.localized).flatMap fun l => edgesTo e.sys.id l (stored l) :=
      List.flatMap_congr fun l hl => congrArg _ (if_pos hl).symm
    obtain ⟨edges, hedges, htargets⟩ := Namespace.targets_edgesOf htable
      (nodup_edgeLocales hm.codes_nodup e f.localized) (hperm.trans (.of_eq hstored))
      (fun l hl => if_neg hl) hroot f.localized
    refine ⟨edges, hedges, htargets.trans (LocaleContext.firstTargets_congr fun l hl => ?_)⟩
    by_cases hmem : l ∈ m.edgeLocales t e f.localized
    · exact if_pos hmem
    · exact (if_neg hmem).trans (targets_eq_nil hm.compiled ht hf hlc hl hmem).symm

end

end ContentReplica
