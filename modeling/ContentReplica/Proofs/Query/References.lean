import ContentReplica.Proofs.Query.Payloads
import ContentReplica.Proofs.Query.Resolution

/-!
# References resolve by what was delivered last

`Mapping.documentOf` is the document of a payload as its reader sees it: links are embedded down to
a depth, by what was delivered last for their targets, and arrays of links keep the order and the
repetitions of the payload. A query function answers these documents for all that is stored
(`Replica.call_shows_references`), in whatever order the records and their targets were delivered.
-/

namespace ContentReplica

/-! ## Documents of payloads -/

namespace Mapping

/-- The identity of a record: what stands for its document where that is not embedded. -/
def identity (id : String) : Json := .obj [("sys", .obj [("id", .str id)])]

/-- The target that a link of a payload shows; an asset refers to nothing. -/
def shownLink? (m : Mapping) (lc : LocaleContext) : Payload → FieldLayout → Option String
  | .entry e, f => (m.shownPayload? lc e f).bind linkId?
  | .asset _, _ => none

/-- The system part of the document of a record. -/
def systemDocument (lc : LocaleContext) (t : TableLayout) (sys : RecordSys) : Json :=
  .mkObj <|
    [("id", .str sys.id),
      ("type", .str (match t.kind with
        | .entry => "Entry"
        | .asset => "Asset")),
      ("createdAt", (Value.ofText? sys.createdAt?).toJson),
      ("updatedAt", (Value.ofText? sys.updatedAt?).toJson),
      ("version", (Value.int sys.version).toJson), ("locale", .str lc.requested)]
    ++ match t.kind with
      | .entry => [("contentType", identity t.contentType)]
      | .asset => []

/-- What a field of a payload shows, given what it shows of a target. -/
def shownField (m : Mapping) (lc : LocaleContext) (t : TableLayout) (p : Payload)
    (link : LinkTarget → String → Option Json) (f : FieldLayout) : Json :=
  match f.placement with
  | .value _ => (m.shownValue lc t p f).toJson
  | .link target =>
    match m.shownLink? lc p f with
    | none => .null
    | some id => (link target id).getD .null
  | .links _ target => .arr ((m.shownTargets lc p f).filterMap (link target))

/-- The document of a payload, with links embedded down to a depth. -/
def documentOf (m : Mapping) (lc : LocaleContext) (latest : Ident → String → Option Payload) :
    Nat → TableLayout → Payload → Json
  | depth, t, p =>
    let link (target : LinkTarget) (id : String) : Option Json :=
      match depth with
      | 0 => some (identity id)
      | depth + 1 =>
        match m.schema.targetTable? target with
        | some table => (latest table.name id).map (documentOf m lc latest depth table)
        | none => some (identity id)
    .mkObj [("sys", systemDocument lc t p.sys),
      ("fields", .mkObj (t.fields.map fun f => (f.fieldId, m.shownField lc t p link f)))]

/-- What a link shows of its target: the identity at the last level or without a table, and else the
document of what was delivered last, if anything was. -/
def shownTarget? (m : Mapping) (lc : LocaleContext) (latest : Ident → String → Option Payload)
    (depth : Nat) (target : LinkTarget) (id : String) : Option Json :=
  match depth with
  | 0 => some (identity id)
  | depth + 1 =>
    match m.schema.targetTable? target with
    | some table => (latest table.name id).map (m.documentOf lc latest depth table)
    | none => some (identity id)

/-- The document of a payload has its metadata and its fields. -/
theorem documentOf_eq (m : Mapping) (lc : LocaleContext)
    (latest : Ident → String → Option Payload) (depth : Nat) (t : TableLayout) (p : Payload) :
    m.documentOf lc latest depth t p = .mkObj [("sys", systemDocument lc t p.sys),
      ("fields", .mkObj (t.fields.map fun f =>
        (f.fieldId, m.shownField lc t p (m.shownTarget? lc latest depth) f)))] := by
  cases depth <;> rfl

/-- A link resolves to the target in its payload. -/
theorem toText?_shownValue {m : Mapping} {lc : LocaleContext} {t : TableLayout} {p : Payload}
    {r : RecordRows} (h : m.Delivers t p r) {f : FieldLayout} (hf : f ∈ t.fields)
    {target : LinkTarget} (hplacement : f.placement = .link target) :
    (m.shownValue lc t p f).toText? = m.shownLink? lc p f := by
  cases p with
  | asset a =>
    obtain rfl : t = assetLayout := h.table
    obtain ⟨g, -, rfl⟩ := List.mem_map.1 hf
    cases hplacement
  | entry e =>
    unfold shownValue shownLink?
    dsimp only
    cases m.shownPayload? lc e f with
    | none => rfl
    | some payload =>
      dsimp only [Option.bind]
      unfold TableLayout.convert
      rw [hplacement]
      dsimp only
      unfold linkCell
      cases payload <;> try rfl
      all_goals
        rw [if_neg (by exact Bool.false_ne_true)]
        cases linkId? _ <;> rfl

end Mapping

/-! ## Queries of payloads -/

namespace Namespace

variable {n : Namespace} {lc : LocaleContext} {base : Row}

/-- Where each target is shown, a list of targets is. -/
theorem filterMapM_eq_ok {α β : Type} {f : α → Except StoreFault (Option β)} {g : α → Option β}
    (h : ∀ x, f x = .ok (g x)) : ∀ xs : List α, xs.filterMapM f = .ok (xs.filterMap g)
  | [] => by rw [List.filterMapM_nil]; rfl
  | x :: xs => by
    rw [List.filterMapM_cons, h, List.filterMap_cons]
    cases hx : g x with
    | none => exact filterMapM_eq_ok h xs
    | some y => exact bind_eq_ok.2 ⟨_, rfl, bind_eq_ok.2 ⟨_, filterMapM_eq_ok h xs, rfl⟩⟩

/-- A document is made of its metadata and the members of its fields. -/
theorem document_eq_ok {node : PlanNode} {members : List (String × Json)}
    (h : node.fields.mapM (fun field => Prod.mk field.column.fieldId <$>
      n.fieldDocument lc node.source.table.name node.hasLocalized base field) = .ok members) :
    n.document lc base node
      = .ok (.mkObj [("sys", sysDocument lc node.source base), ("fields", .mkObj members)]) := by
  cases node with
  | mk source localized fields =>
    rw [document, fieldDocuments_eq]
    exact bind_eq_ok.2 ⟨members, h, rfl⟩

end Namespace

section
variable {m : Mapping} {codes : List String} {base n : Namespace} {pages : List SyncPage}
  {lc : LocaleContext} {ns : Ident} {t : TableLayout} {p : Payload} {root : Row}

/-- The metadata of a document is that of the payload. -/
theorem TableLayout.Carries.sysDocument_eq {locale : String} {value : FieldLayout → Value}
    (h : t.Carries p.sys locale value root) (remaining depth : Nat) :
    Namespace.sysDocument lc (m.schema.planNode ns remaining depth t).source root
      = Mapping.systemDocument lc t p.sys := by
  unfold Namespace.sysDocument Mapping.systemDocument
  rw [Schema.planNode_source]
  dsimp only
  rw [h.rowOf.sysId, h.version, h.createdAt, h.updatedAt]
  cases t.kind <;> rfl

/-- A stored record shows in each field what its payload does, if its links show their targets. -/
theorem Replicated.fieldDocument_eq (h : Replicated m.schema codes base n (m.current pages))
    (hm : m.Sound) (hconverts : ∀ event ∈ pages.flatMap SyncPage.events, m.Converts event)
    (hlc : lc.default = m.default) {remaining depth : Nat} {link : LinkTarget → String → Option Json}
    (hlink : ∀ target id, n.linkDocument? lc id (m.schema.linkPlan ns depth target remaining)
      = .ok (link target id))
    {sysId : String} (ht : t ∈ m.schema.allTables)
    (hlatest : m.latest? pages t.name sysId = some p)
    (hroot : t.Carries p.sys m.default (m.payloadValue t p m.default) root) {f : FieldLayout}
    (hf : f ∈ t.fields) :
    n.fieldDocument lc t.name (m.schema.planNode ns remaining depth t).hasLocalized root
      (m.schema.planField ns remaining depth f) = .ok (m.shownField lc t p link f) := by
  obtain ⟨r, hheld, hdelivers, rfl⟩ := Mapping.exists_current hm.collisionFree hconverts ht hlatest
  have hvalue (hcolumn : f.columnDef?.isSome = true) :
      n.resolveValue lc t.name (m.schema.planNode ns remaining depth t).hasLocalized
        ⟨f.fieldId, f.column, f.localized⟩ root = .ok (m.shownValue lc t p f) := by
    obtain ⟨contents, hmirror, hshows⟩ := h
    exact hdelivers.resolveValue_eq hm (hdelivers.shows hm hmirror hshows ht hheld).1 hlc hf hcolumn
      hroot
  unfold Schema.planField Mapping.shownField
  cases hplacement : f.placement with
  | value type =>
    dsimp only
    rw [Namespace.fieldDocument, hvalue (FieldLayout.isSome_columnDef? hplacement)]
    rfl
  | link target =>
    dsimp only
    rw [Namespace.fieldDocument, hvalue (FieldLayout.isSome_columnDef? hplacement)]
    dsimp only [bind, Except.bind]
    rw [Mapping.toText?_shownValue hdelivers hf hplacement]
    cases m.shownLink? lc p f with
    | none => rfl
    | some id =>
      dsimp only
      rw [hlink]
      rfl
  | links name target =>
    obtain ⟨edges, hedges, htargets⟩ := hdelivers.targets_edgesOf hm h ht hheld hlc hf hplacement
      hroot.rowOf.sysId
    dsimp only
    rw [Namespace.fieldDocument, hedges]
    dsimp only [bind, Except.bind]
    rw [htargets, Namespace.filterMapM_eq_ok (hlink target)]
    rfl

/-- A stored record is shown as its payload is, if its links show their targets. -/
theorem Replicated.document_of_links (h : Replicated m.schema codes base n (m.current pages))
    (hm : m.Sound) (hconverts : ∀ event ∈ pages.flatMap SyncPage.events, m.Converts event)
    (hlc : lc.default = m.default) {remaining depth : Nat}
    (hlink : ∀ target id, n.linkDocument? lc id (m.schema.linkPlan ns depth target remaining)
      = .ok (m.shownTarget? lc (m.latest? pages) remaining target id))
    {sysId : String} (ht : t ∈ m.schema.allTables)
    (hlatest : m.latest? pages t.name sysId = some p)
    (hroot : t.Carries p.sys m.default (m.payloadValue t p m.default) root) :
    n.document lc root (m.schema.planNode ns remaining depth t)
      = .ok (m.documentOf lc (m.latest? pages) remaining t p) := by
  have hmembers : (m.schema.planNode ns remaining depth t).fields.mapM (fun field =>
      Prod.mk field.column.fieldId <$> n.fieldDocument lc
        (m.schema.planNode ns remaining depth t).source.table.name
        (m.schema.planNode ns remaining depth t).hasLocalized root field)
      = .ok (t.fields.map fun f =>
        (f.fieldId, m.shownField lc t p (m.shownTarget? lc (m.latest? pages) remaining) f)) := by
    rw [Schema.planNode_fields, Schema.planNode_source]
    refine mapM_eq_ok.2 (List.forall₂_map_left_iff.2 (List.forall₂_map_right_iff.2
      (List.forall₂_same.2 fun f hf => ?_)))
    rw [h.fieldDocument_eq hm hconverts hlc hlink ht hlatest hroot hf, Schema.fieldId_planField]
    rfl
  rw [Namespace.document_eq_ok hmembers, hroot.sysDocument_eq, Mapping.documentOf_eq]

/-- A link shows the document of what was delivered last for its target. -/
theorem Replicated.linkDocument?_eq (h : Replicated m.schema codes base n (m.current pages))
    (hm : m.Sound) (hconverts : ∀ event ∈ pages.flatMap SyncPage.events, m.Converts event)
    (hlc : lc.default = m.default) : ∀ (remaining depth : Nat) (target : LinkTarget) (id : String),
      n.linkDocument? lc id (m.schema.linkPlan ns depth target remaining)
        = .ok (m.shownTarget? lc (m.latest? pages) remaining target id) := by
  -- The documents of targets have one level less, whatever depth of the plan they are at.
  intro remaining
  induction remaining with
  | zero =>
    intro depth target id
    rw [Schema.linkPlan, Namespace.linkDocument?]
    rfl
  | succ remaining ih =>
    intro depth target id
    unfold Schema.linkPlan Mapping.shownTarget?
    dsimp only
    cases htarget : m.schema.targetTable? target with
    | none =>
      dsimp only
      rw [Namespace.linkDocument?]
      rfl
    | some t =>
      have ht := Schema.targetTable?_mem htarget
      have hfree := hm.collisionFree
      obtain ⟨contents, hmirror, hshows⟩ := h
      dsimp only
      rw [Namespace.linkDocument?, Schema.planNode_source, hlc]
      cases hlatest : m.latest? pages t.name id with
      | none =>
        rw [hmirror.findRow?_eq_none ht fun row hrow hid =>
          absurd hid (hshows.sysId_ne hfree ht (Mapping.current_eq_none hlatest) hrow)]
        rfl
      | some p =>
        obtain ⟨r, hheld, hdelivers, rfl⟩ := Mapping.exists_current hfree hconverts ht hlatest
        obtain ⟨-, root, hrow, hroot⟩ := hdelivers.shows hm hmirror hshows ht hheld
        rw [hmirror.findRow?_eq_some ht (fun _ hrow => hshows.rowOf ht hrow) hrow hroot.rowOf]
        dsimp only [bind, Except.bind]
        rw [Replicated.document_of_links ⟨contents, hmirror, hshows⟩ hm hconverts hlc (ih (depth + 1))
          ht hlatest hroot]
        rfl

/-- The document of a stored record is that of what was delivered last for it. -/
theorem Replicated.document_eq (h : Replicated m.schema codes base n (m.current pages))
    (hm : m.Sound) (hconverts : ∀ event ∈ pages.flatMap SyncPage.events, m.Converts event)
    (hlc : lc.default = m.default) (remaining depth : Nat) {sysId : String}
    (ht : t ∈ m.schema.allTables) (hlatest : m.latest? pages t.name sysId = some p)
    (hroot : t.Carries p.sys m.default (m.payloadValue t p m.default) root) :
    n.document lc root (m.schema.planNode ns remaining depth t)
      = .ok (m.documentOf lc (m.latest? pages) remaining t p) :=
  h.document_of_links hm hconverts hlc (h.linkDocument?_eq hm hconverts hlc remaining depth) ht
    hlatest hroot

/-- Each field of a payload has its member in the document of the payload. -/
theorem Mapping.field?_documentOf (hschema : m.schema.Compiled) (ht : t ∈ m.schema.allTables)
    (latest : Ident → String → Option Payload) (depth : Nat) {f : FieldLayout} (hf : f ∈ t.fields) :
    (m.documentOf lc latest depth t p).field? f.fieldId
      = some (m.shownField lc t p (m.shownTarget? lc latest depth) f) := by
  rw [documentOf_eq]
  refine Json.field?_mkObj ?_ (List.mem_map_of_mem hf)
  rw [List.map_map]
  exact hschema.nodup_fieldIds ht

/-- What was delivered last is stored, with a row in the default locale, and nothing else is. -/
theorem Replicated.stored_iff (h : Replicated m.schema codes base n (m.current pages))
    (hm : m.Sound) (hconverts : ∀ event ∈ pages.flatMap SyncPage.events, m.Converts event)
    {s : Store} (hn : s.namespace? ns = some n) (ht : t ∈ m.schema.allTables) (id : String) :
    (m.latest? pages t.name id).isSome = true ↔
      ∃ row ∈ s.rows ns t.name, RowOf id m.default row := by
  obtain ⟨contents, hmirror, hshows⟩ := h
  obtain ⟨table, -, hold, hvalues, -⟩ :=
    hmirror.table?_eq_some hn (Schema.mem_contentTables_of_table ht)
  rw [hvalues]
  constructor
  · intro hlatest
    obtain ⟨p, hp⟩ := Option.isSome_iff_exists.1 hlatest
    obtain ⟨r, hheld, hdelivers, rfl⟩ := Mapping.exists_current hm.collisionFree hconverts ht hp
    obtain ⟨-, root, hrow, hroot⟩ := hdelivers.shows hm hmirror hshows ht hheld
    exact ⟨root, hold.mem_values.2 ⟨hrow, _, hroot.rowOf.id⟩, hroot.rowOf⟩
  · rintro ⟨row, hrow, hrowOf⟩
    refine Option.isSome_iff_ne_none.2 fun hnone => ?_
    exact hshows.sysId_ne hm.collisionFree ht (Mapping.current_eq_none hnone)
      (hold.mem_values.1 hrow).1 hrowOf.sysId

end

namespace Replica

variable {r : Replica} {m : Mapping} {depth : Nat} {pages : List SyncPage} {s : Store} {e : Entry}
  {t : TableLayout}

/-- After any pages the document of an entry shows its links by what was delivered last for their
targets, and its arrays of links in the order of the payload. -/
theorem call_shows_references (h : r.Synced depth pages s) (hspace : r.space.validate = .ok ())
    (hcodes : ∀ code ∈ r.space.localeCodes, '_' ∉ code.toList) (hschema : r.schema.Compiled)
    (hfree : r.schema.CollisionFree) (hm : Mapping.of r.schema r.space = .ok m)
    (ht : t ∈ r.schema.tables) (hown : r.schema.OwnFunction t) {sysId : String}
    (hlatest : m.latest? pages t.name sysId = some (.entry e)) {locale : String}
    (hlocale : locale ∈ r.space.localeCodes) {c : QueryCall}
    (hc : c.AsksAll ⟨r.namespaceName, Naming.function t.name⟩ locale
      (s.rows r.namespaceName t.name).length) :
    (∀ t ∈ r.schema.allTables, ∀ id, (m.latest? pages t.name id).isSome = true ↔
      ∃ row ∈ s.rows r.namespaceName t.name, RowOf id m.default row) ∧
    ∃ page item, s.call c = .ok page ∧
      page.itemList.filter (fun item => item.recordId? == some sysId) = [item] ∧
      item = m.documentOf (m.contextOf locale) (m.latest? pages) depth t (.entry e) ∧
      ∀ f ∈ t.fields, item.field? f.fieldId = some (m.shownField (m.contextOf locale) t (.entry e)
        (m.shownTarget? (m.contextOf locale) (m.latest? pages) depth) f) := by
  obtain ⟨-, -, hsound⟩ := Mapping.sound_of_ok hm hspace hcodes hschema hfree
  obtain ⟨n, base, origin, hn, hsetUp, hbeside, -, hreplicated⟩ := h.replicated hm hsound
  have hconverts := h.converts hm
  obtain ⟨d, -, rfl⟩ := Mapping.of_eq_ok.1 hm
  have hmem : t ∈ r.schema.allTables := List.mem_append_left _ ht
  refine ⟨fun t ht id => hreplicated.stored_iff hsound hconverts hn ht id, ?_⟩
  have ⟨contents, hmirror, hshows⟩ := hreplicated
  obtain ⟨record, hheld, hdelivers, rfl⟩ := Mapping.exists_current hfree hconverts hmem hlatest
  obtain ⟨-, root, hrow, hroot⟩ := hdelivers.shows hsound hmirror hshows hmem hheld
  obtain ⟨page, item, hcall, hitem, hfilter⟩ := call_record hm hspace hn hsetUp
    (hbeside.mirror hmirror hfree) hmirror (fun _ hrow => hshows.rowOf hmem hrow) ht hown hlocale hrow
    hroot.rowOf hc
  have hdocument : n.document (Mapping.contextOf ⟨r.schema, r.space, d.code⟩ locale) root
      (r.schema.planNode r.namespaceName depth 0 t) = .ok _ :=
    Replicated.document_eq hreplicated hsound hconverts rfl depth 0 hmem hlatest hroot
  obtain rfl := Except.ok.inj (hitem.symm.trans hdocument)
  exact ⟨page, _, hcall, hfilter, rfl, fun f hf =>
    Mapping.field?_documentOf hsound.compiled hmem _ depth hf⟩

end Replica

namespace Catalog

/-- A product with a brand and three tags, one of them twice. -/
def referringProduct : Entry :=
  ((product "p1" "Pen" 3).withField "brand" english (entryLink "b1")).withField "tags" english
    (.arr [entryLink "t2", entryLink "t1", entryLink "t2"])

/-- The page that delivers it. -/
def firstPage : SyncPage := (SyncPage.empty (.done "first")).withEntry referringProduct

/-- A page that delivers one of its tags. -/
def secondPage : SyncPage := (SyncPage.empty (.done "second")).withEntry (tag "t2" "red")

/-- The catalog after the two pages. -/
def tagged : Store := (deliver secondPage (deliver firstPage queries.2).2).2

/-- The catalog with query functions that embed nothing, after the first page. -/
def shallow : Store := (deliver firstPage (queriesTo 0).2).2

/-- The document of the tag. -/
def tagDocument : Json :=
  mapping.documentOf (mapping.contextOf french) (mapping.latest? [firstPage, secondPage]) 0 tagTable
    (.entry (tag "t2" "red"))

/-- What the fields of the product show after some pages, with links embedded down to a depth. -/
def shownReference (pages : List SyncPage) (depth : Nat) (f : FieldLayout) : Json :=
  mapping.shownField (mapping.contextOf french) productTable (.entry referringProduct)
    (mapping.shownTarget? (mapping.contextOf french) (mapping.latest? pages) depth) f

end Catalog

/-- A product shows a tag that was delivered after it, as often as it refers to it, and neither a tag
nor a brand that was not delivered. Where nothing is embedded it shows the identities of them all. -/
theorem Replica.call_shows_references_catalog :
    (∃ page item, Catalog.tagged.call (Catalog.allProducts Catalog.tagged) = .ok page ∧
      page.itemList.filter (fun item => item.recordId? == some "p1") = [item] ∧
      item.field? "tags" = some (.arr [Catalog.tagDocument, Catalog.tagDocument]) ∧
      item.field? "brand" = some .null) ∧
    ∃ page item, Catalog.shallow.call (Catalog.allProducts Catalog.shallow) = .ok page ∧
      page.itemList.filter (fun item => item.recordId? == some "p1") = [item] ∧
      item.field? "tags" = some (.arr [.obj [("sys", .obj [("id", .str "t2")])],
        .obj [("sys", .obj [("id", .str "t1")])], .obj [("sys", .obj [("id", .str "t2")])]]) ∧
      item.field? "brand" = some (.obj [("sys", .obj [("id", .str "b1")])]) := by
  have hshows {pages : List SyncPage} {depth : Nat} {s : Store}
      (hsynced : Catalog.replica.Synced depth pages s) (hlatest : Catalog.mapping.latest? pages
        Catalog.productTable.name "p1" = some (.entry Catalog.referringProduct)) :
      ∃ page item, s.call (Catalog.allProducts s) = .ok page ∧
        page.itemList.filter (fun item => item.recordId? == some "p1") = [item] ∧
        ∀ f ∈ Catalog.productTable.fields,
          item.field? f.fieldId = some (Catalog.shownReference pages depth f) := by
    obtain ⟨-, page, item, hcall, hfilter, -, hfields⟩ :=
      call_shows_references (m := Catalog.mapping) (t := Catalog.productTable) hsynced
        (show Catalog.space.validate = .ok () from rfl) (by decide) (.all Catalog.types rfl)
        Catalog.collisionFree rfl (by decide +kernel)
        (show Catalog.schema.OwnFunction Catalog.productTable by decide +kernel) hlatest
        (show Catalog.french ∈ Catalog.space.localeCodes by decide) (Catalog.asksAll_allProducts s)
    exact ⟨page, item, hcall, hfilter, hfields⟩
  obtain ⟨brand, hbrand, hbrandId, hbrandEmbedded, hbrandShallow⟩ :
      ∃ f ∈ Catalog.productTable.fields, f.fieldId = "brand" ∧
        Catalog.shownReference [Catalog.firstPage, Catalog.secondPage] 1 f = .null ∧
        Catalog.shownReference [Catalog.firstPage] 0 f = .obj [("sys", .obj [("id", .str "b1")])] :=
    ⟨_, List.mem_cons_of_mem _ (List.mem_cons_of_mem _ (List.mem_cons_self ..)), rfl, rfl, rfl⟩
  obtain ⟨tags, htags, htagsId, htagsEmbedded, htagsShallow⟩ :
      ∃ f ∈ Catalog.productTable.fields, f.fieldId = "tags" ∧
        Catalog.shownReference [Catalog.firstPage, Catalog.secondPage] 1 f
          = .arr [Catalog.tagDocument, Catalog.tagDocument] ∧
        Catalog.shownReference [Catalog.firstPage] 0 f
          = .arr [.obj [("sys", .obj [("id", .str "t2")])],
            .obj [("sys", .obj [("id", .str "t1")])], .obj [("sys", .obj [("id", .str "t2")])]] :=
    ⟨_, List.mem_cons_of_mem _ (List.mem_cons_of_mem _ (List.mem_cons_of_mem _
      (List.mem_cons_self ..))), rfl, rfl, rfl⟩
  constructor
  · obtain ⟨first, hfirst, hfirstRun⟩ := Catalog.exists_batch_of_deliver
      (p := Catalog.firstPage) (s := Catalog.queries.2) (by decide +kernel)
    obtain ⟨second, hsecond, hsecondRun⟩ := Catalog.exists_batch_of_deliver
      (p := Catalog.secondPage) (s := (Catalog.deliver Catalog.firstPage Catalog.queries.2).2)
      (by decide +kernel)
    have hsynced : Catalog.replica.Synced 1 [Catalog.firstPage, Catalog.secondPage] Catalog.tagged :=
      .page (.page Catalog.synced_queries hfirst hfirstRun) hsecond hsecondRun
    obtain ⟨page, item, hcall, hfilter, hfields⟩ := hshows hsynced rfl
    refine ⟨page, item, hcall, hfilter, ?_, ?_⟩
    · rw [← htagsId, hfields tags htags, htagsEmbedded]
    · rw [← hbrandId, hfields brand hbrand, hbrandEmbedded]
  · obtain ⟨batch, hbatch, hrun⟩ := Catalog.exists_batch_of_deliver
      (p := Catalog.firstPage) (s := (Catalog.queriesTo 0).2) (by decide +kernel)
    have hsynced : Catalog.replica.Synced 0 [Catalog.firstPage] Catalog.shallow :=
      .page (Catalog.synced_queriesTo (by decide +kernel)) hbatch hrun
    obtain ⟨page, item, hcall, hfilter, hfields⟩ := hshows hsynced rfl
    refine ⟨page, item, hcall, hfilter, ?_, ?_⟩
    · rw [← htagsId, hfields tags htags, htagsShallow]
    · rw [← hbrandId, hfields brand hbrand, hbrandShallow]

end ContentReplica
