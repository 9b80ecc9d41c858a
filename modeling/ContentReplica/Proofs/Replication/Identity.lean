import ContentReplica.Proofs.Replication.Cycles

/-!
# Records keep to themselves

The identity of a row settles its record and its locale exactly when locale codes can be told from what
stands before them (`Naming.apart_iff`). Then an event of the feed, in any store that a replica is led
to, goes through and leaves the rows and edges of all records that it does not address as they are
(`Space.records_keep_apart`). Otherwise the row of one record may take the place of another's.
-/

namespace ContentReplica

/-! ## Identities of rows -/

namespace Naming

/-- Locale codes can be told from what stands before them exactly when no two records share the
identity of a row. -/
theorem apart_iff {codes : List String} :
    Apart codes ↔ ∀ locale ∈ codes, ∀ locale' ∈ codes, ∀ sysId sysId',
      rowId sysId locale = rowId sysId' locale' → sysId = sysId' ∧ locale = locale' := by
  constructor
  · intro h locale hl locale' hl' sysId sysId' hid
    exact h.rowId_inj hl hl' hid
  · -- If a code ends in `_` and another one, a record without identity shares a row with the rest.
    rintro h code hcode other hother ⟨front, hfront⟩
    have hid : rowId "" code = rowId ("_" ++ String.ofList front) other := by
      refine String.toList_inj.1 ?_
      simp [rowId, String.toList_append, ← hfront]
    have hempty := (h code hcode other hother _ _ hid).1
    exact absurd (congrArg String.toList hempty) (by simp [String.toList_append])

/-- Two records with one identity of a row, each in a locale of its own. -/
example : rowId "x_en" "US" = rowId "x" "en_US" ∧ ¬ Apart ["US", "en_US"] := by decide +kernel

end Naming

/-! ## Contents beside an event -/

section
variable {m : Mapping} {contents contents' : Contents} {t : TableLayout} {ns : Ident}

/-- The rows and edges of the records that an event does not address are the same. -/
def Contents.AgreeBeside (contents' contents : Contents) (m : Mapping) (event : FeedEvent) : Prop :=
  ∀ t ∈ m.schema.allTables, ∀ sysId, m.addresses t.name sysId event = false →
    ∀ name row, t.Owns sysId name row → (contents' name row ↔ contents name row)

/-- A record that takes the place of what it had leaves the others. -/
theorem Contents.put_iff_of_owns {s : Schema} {codes : List String} {t' : TableLayout} {sysId : String}
    {name : Ident} {row : Row} {r : RecordRows} (hfree : s.CollisionFree) (ht : t ∈ s.allTables)
    (hr : r.Describes t codes) (ht' : t' ∈ s.allTables) (howns : t'.Owns sysId name row)
    (hother : ¬ (t' = t ∧ sysId = r.sysId)) : contents.put t r name row ↔ contents name row := by
  unfold put remove
  constructor
  · rintro (hstored | ⟨hrow, -⟩)
    · exact absurd (howns.inj (hr.keeps hstored).owns hfree ht' ht) hother
    · exact hrow
  · exact fun hrow => .inr ⟨hrow, fun hmine => hother (howns.inj hmine hfree ht' ht)⟩

/-- Records that are deleted one after the other leave the others. -/
theorem Mirror.deleteAll {base : Namespace} (hm : m.Sound) (hbase : m.schema.Installed base) :
    ∀ {pairs : List (Ident × String)} {n : Namespace} {contents : Contents},
      (∀ pair ∈ pairs, ∃ l ∈ m.schema.allTables, l.name = pair.1) →
      Mirror m.schema base n contents → contents.Regular m.schema m.space.localeCodes →
      ∃ n' contents', n.applyAll (pairs.map fun pair => Mapping.deleteRecord ns pair.1 pair.2) = .ok n' ∧
        Mirror m.schema base n' contents' ∧
        ∀ t ∈ m.schema.allTables, ∀ sysId, (t.name, sysId) ∉ pairs →
          ∀ name row, t.Owns sysId name row → (contents' name row ↔ contents name row) := by
  intro pairs
  induction pairs with
  | nil => exact fun _ h _ => ⟨_, _, rfl, h, fun _ _ _ _ _ _ _ => Iff.rfl⟩
  | cons pair pairs ih =>
    intro n contents hpairs h hreg
    obtain ⟨⟨l, hl, hname⟩, hpairs⟩ := List.forall_mem_cons.1 hpairs
    obtain ⟨n₁, hfirst, h₁⟩ :=
      h.deleteRecord hm.collisionFree hbase hm.codes_apart hreg hl pair.2
    obtain ⟨n', contents', hrest, h', hothers⟩ :=
      ih hpairs h₁ (hreg.remove hm.collisionFree hl pair.2)
    rw [hname] at hfirst
    refine ⟨n', contents', Namespace.applyAll_cons.2 ⟨n₁, hfirst, hrest⟩, h',
      fun t ht sysId hnot name row howns => ?_⟩
    rw [List.mem_cons, not_or] at hnot
    rw [hothers t ht sysId hnot.2 name row howns]
    refine and_iff_left fun hmine => hnot.1 ?_
    obtain ⟨rfl, rfl⟩ := howns.inj hmine hm.collisionFree ht hl
    exact Prod.ext hname rfl

/-- An event goes through in regular contents, and leaves the records that it does not address. -/
theorem Mirror.event {base n : Namespace} (h : Mirror m.schema base n contents) (hm : m.Sound)
    (hbase : m.schema.Installed base) (hreg : contents.Regular m.schema m.space.localeCodes)
    (ns : Ident) {event : FeedEvent} (hconverts : m.Converts event) :
    ∃ n' contents', n.applyAll (m.eventStatements ns event) = .ok n' ∧
      Mirror m.schema base n' contents' ∧ contents'.AgreeBeside contents m event := by
  cases hrows : m.payloadRows? event with
  | some r =>
    obtain ⟨t, ht, hdescribes, hstatements, haddresses⟩ := hm.describes hrows
    obtain ⟨n', hrun, h'⟩ :=
      h.recordStatements hm.collisionFree hbase hm.codes_apart hreg ns ht hdescribes
    refine ⟨n', _, (hstatements ns).symm ▸ hrun, h', fun t' ht' sysId hnot name row howns => ?_⟩
    refine Contents.put_iff_of_owns hm.collisionFree ht hdescribes ht' howns ?_
    rintro ⟨rfl, rfl⟩
    exact Bool.false_ne_true (hnot.symm.trans ((haddresses _ _).2 ⟨rfl, rfl⟩))
  | none =>
    cases event with
    | entry e =>
      -- An entry without rows is one whose content type has no table.
      have htable : m.hasTable e = false := by
        refine Bool.eq_false_iff.2 fun hhas => ?_
        obtain ⟨r, hr⟩ := hconverts hhas
        have hnone : (m.entryRows e).toOption = none := hrows
        rw [hr] at hnone
        cases hnone
      rw [(Mapping.after_skipped htable (fun _ _ => none) ns).2]
      exact ⟨n, contents, rfl, h, fun _ _ _ _ _ _ _ => Iff.rfl⟩
    | asset a => cases hrows
    | deletion t =>
      have htables : ∀ pair ∈ ((m.tombstoneTables? t).getD []).map (·, t.sysId),
          ∃ l ∈ m.schema.allTables, l.name = pair.1 := by
        intro pair hpair
        obtain ⟨table, htable, rfl⟩ := List.mem_map.1 hpair
        exact Mapping.exists_table_of_tombstone htable
      obtain ⟨n', contents', hrun, h', hothers⟩ := deleteAll hm hbase htables h hreg
      rw [List.map_map] at hrun
      refine ⟨n', contents', hrun, h', fun t' ht' sysId hnot => hothers t' ht' sysId fun hpair => ?_⟩
      obtain ⟨table, htable, he⟩ := List.mem_map.1 hpair
      obtain ⟨rfl, rfl⟩ := Prod.mk.inj he
      refine Bool.false_ne_true (hnot.symm.trans ?_)
      unfold Mapping.addresses
      dsimp only
      rw [Bool.and_eq_true, beq_self_eq_true, List.contains_iff_mem]
      exact ⟨rfl, htable⟩

/-- Where identities settle records, coherent contents are regular: the row that has the identity of an
edge's owner is its owner. -/
theorem Contents.Coherent.regular {s : Schema} {codes : List String} {default : String}
    (h : contents.Coherent s codes default) (hapart : Naming.Apart codes) :
    contents.Regular s codes where
  rows := h.rows
  edges t ht l hl row hrow := by
    obtain ⟨sysId, locale, hlocale, position, target, hedge, owner, howner, hid⟩ :=
      h.edges t ht l hl row hrow
    obtain ⟨sysId', locale', hlocale', hownerOf⟩ := h.rows t ht owner howner
    obtain ⟨rfl, rfl⟩ := hapart.rowId_inj hlocale' hlocale
      (Value.text.inj (hownerOf.id.symm.trans hid))
    exact ⟨sysId', locale', hlocale, position, hedge.toEdgeOf, owner, howner, hownerOf⟩

end

/-! ## Rows in the store -/

/-- The rows of a table that have an identity in a column are those of the contents. -/
theorem Mirror.mem_rowsWith {s : Schema} {base n : Namespace} {contents : Contents}
    (h : Mirror s base n contents) {store : Store} {ns : Ident} (hn : store.namespace? ns = some n)
    {name : Ident} {columns : List ColumnDef} (hx : (name, columns) ∈ s.contentTables)
    (column : Ident) (sysId : String) :
    (store.rowsWith ns name column sysId).Nodup ∧
      ∀ row, row ∈ store.rowsWith ns name column sysId ↔
        (contents name row ∧ ∃ key, row.cell Column.id = .text key) ∧
          row.cell column = .text sysId := by
  obtain ⟨table, -, hold, hrows, -⟩ := h.table?_eq_some hn hx
  unfold Store.rowsWith
  rw [hrows]
  refine ⟨hold.nodup_values.filter _, fun row => ?_⟩
  rw [List.mem_filter, hold.mem_values, beq_iff_eq, Row.text?_eq_some]

/-- The rows and edges of a record are the same in two stores. -/
structure Store.SameRecord (s' s : Store) (ns : Ident) (t : TableLayout) (sysId : String) : Prop where
  rows : (s'.rowsWith ns t.name Column.sysId sysId).Perm (s.rowsWith ns t.name Column.sysId sysId)
  edges : ∀ l ∈ t.linkTables, (s'.rowsWith ns l.name Column.ownerSysId sysId).Perm
    (s.rowsWith ns l.name Column.ownerSysId sysId)

/-- Where the contents agree on what belongs to a record, the stores have the same rows and edges
of it. -/
theorem Mirror.sameRecord {s : Schema} {base n n' : Namespace} {contents contents' : Contents}
    (h : Mirror s base n contents) (h' : Mirror s base n' contents') (hfree : s.CollisionFree)
    {store store' : Store} {ns : Ident} (hn : store.namespace? ns = some n)
    (hn' : store'.namespace? ns = some n') {t : TableLayout} (ht : t ∈ s.allTables) {sysId : String}
    (hagree : ∀ name row, t.Owns sysId name row → (contents' name row ↔ contents name row)) :
    store'.SameRecord store ns t sysId := by
  have hperm {name column : Ident} {columns : List ColumnDef} (hx : (name, columns) ∈ s.contentTables)
      (hcolumn : ∀ row : Row, row.cell column = .text sysId ↔ t.Owns sysId name row) :
      (store'.rowsWith ns name column sysId).Perm (store.rowsWith ns name column sysId) := by
    obtain ⟨hnodup, hmem⟩ := h.mem_rowsWith hn hx column sysId
    obtain ⟨hnodup', hmem'⟩ := h'.mem_rowsWith hn' hx column sysId
    refine (List.perm_ext_iff_of_nodup hnodup' hnodup).2 fun row => ?_
    rw [hmem, hmem']
    refine and_congr_left fun hrow => and_congr_left fun _ => ?_
    exact hagree name row ((hcolumn row).1 hrow)
  exact ⟨hperm (Schema.mem_contentTables_of_table ht) fun _ => TableLayout.owns_table_iff hfree ht,
    fun l hl => hperm (Schema.mem_contentTables_of_link (Schema.mem_linkTables ht hl))
      fun _ => TableLayout.owns_link_iff hfree ht hl⟩

/-! ## Records of a space -/

/-- In a valid space whose locale codes can be told from what stands before them the identity of a row
settles its record and its locale. So in every store that a replica of the space is led to, an event
goes through, unless its payload does not convert, and the rows and edges of all records that it does
not address stay as they are. -/
theorem Space.records_keep_apart {space : Space} (hspace : space.validate = .ok ())
    (hapart : Naming.Apart space.localeCodes) :
    (∀ locale ∈ space.localeCodes, ∀ locale' ∈ space.localeCodes, ∀ sysId sysId',
      Naming.rowId sysId locale = Naming.rowId sysId' locale' →
        sysId = sysId' ∧ locale = locale') ∧
    ∀ (r : Replica) (m : Mapping) (s : Store), r.space = space → r.schema.Compiled →
      r.schema.CollisionFree → Mapping.of r.schema r.space = .ok m → r.Reached s → s.failures = [] →
      ∀ event, m.Converts event → ∃ s',
        s.execute (m.eventStatements r.namespaceName event) = (.ok (), s') ∧
          ∀ t ∈ r.schema.allTables, ∀ sysId, m.addresses t.name sysId event = false →
            s'.SameRecord s r.namespaceName t sysId := by
  refine ⟨Naming.apart_iff.1 hapart, ?_⟩
  rintro r m s rfl hschema hfree hm hreached hfailures event hconverts
  obtain ⟨-, -, hwell⟩ := Mapping.wellFormed_of_ok hm hspace hschema hfree
  obtain ⟨n, origin, hn, base, contents, hbase, -, hmirror, hcoherent⟩ := hreached.coherent hm hwell
  obtain ⟨d, -, rfl⟩ := Mapping.of_eq_ok.1 hm
  have hsound : Mapping.Sound ⟨r.schema, r.space, d.code⟩ :=
    ⟨hschema, hfree, hwell.codes_nodup, hapart, hwell.default_mem⟩
  obtain ⟨n', contents', hrun, hmirror', hagree⟩ := hmirror.event hsound hbase
    (hcoherent.regular hapart) r.namespaceName hconverts
  have happly := Database.applyAll_of_namespace hn
    (Mapping.eventStatements_local (m := ⟨r.schema, r.space, d.code⟩)) hrun
  obtain ⟨s', hexecute, hdatabase, -⟩ := Store.execute_of_applyAll hfailures happly
  refine ⟨s', hexecute, fun t ht sysId hnot => ?_⟩
  have hn' := Store.namespace?_of_database hdatabase
  exact hmirror.sameRecord hmirror' hfree hn hn' ht (hagree t ht sysId hnot)

namespace Catalog

/-- A space whose locale codes hold the separator. -/
def underscored : Space :=
  ⟨"catalog", "catalog", [.new "en_US" true, .new "de_DE" false]⟩

/-- The replica of the catalog in these locales. -/
def underscoredReplica : Replica := ⟨schema, underscored, namespaceName⟩

/-- Its mapping. -/
def underscoredMapping : Mapping := ⟨schema, underscored, "en_US"⟩

/-- The store in which its namespace was set up. -/
def underscoredSetUp : Except Error Unit × Store :=
  match schema.ddl namespaceName underscored with
  | .ok ddl => Store.empty.execute ddl
  | .error e => (.error e, .empty)

/-- A product with a name in the default locale. -/
def pen (id : String) : Entry := (Entry.new id "product").withField "name" "en_US" (.str "Pen")

/-- The store after a cycle that delivers one product. -/
def underscoredStore : Store :=
  (Engine.run ⟨underscoredReplica, {}⟩ .never
    ⟨{ ContentSource.new underscored types with
        answers := [.ok ((SyncPage.empty (.done "first")).withEntry (pen "p_en"))] },
      underscoredSetUp.2⟩).world.store

end Catalog

open Catalog in
/-- The product `p` goes through beside the product `p_en`, whose row stays. -/
theorem Space.records_keep_apart_catalog :
    ∃ s', underscoredStore.execute
        (underscoredMapping.eventStatements namespaceName (.entry (pen "p"))) = (.ok (), s') ∧
      (s'.rowsWith namespaceName productTable.name Column.sysId "p_en").length = 1 := by
  have hok : underscoredSetUp.1.isOk = true := by decide +kernel
  have hreached : underscoredReplica.Reached underscoredStore := by
    refine .run {} .never ?_
    cases hddl : schema.ddl namespaceName underscored with
    | error e =>
      unfold underscoredSetUp at hok
      rw [hddl] at hok
      cases hok
    | ok ddl =>
      refine .setUp (s := .empty) hddl rfl ?_
      unfold underscoredSetUp at hok ⊢
      rw [hddl] at hok ⊢
      obtain ⟨_, hexecute⟩ := exists_of_fst_isOk hok
      exact hexecute
  have hfailures : underscoredStore.failures = [] := List.isEmpty_iff.1 (by decide +kernel)
  obtain ⟨s', hexecute, hothers⟩ := (records_keep_apart
    (show underscored.validate = .ok () from rfl) (by decide)).2 underscoredReplica
    underscoredMapping underscoredStore rfl (.all types rfl) collisionFree rfl hreached hfailures
    (.entry (pen "p")) fun _ => exists_of_isOk (by decide +kernel)
  have hsame := hothers productTable (by decide +kernel) "p_en" (by decide +kernel)
  have hrow : (underscoredStore.rowsWith namespaceName productTable.name Column.sysId "p_en").length
      = 1 := by decide +kernel
  exact ⟨s', hexecute, hsame.rows.length_eq.trans hrow⟩

end ContentReplica
