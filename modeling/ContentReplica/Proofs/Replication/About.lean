import ContentReplica.Proofs.Replication.Consistency
import ContentReplica.Proofs.Schema.Sift
import ContentReplica.Proofs.Store.Excerpt

/-!
# What a feed says of one table

A tombstone names records by kind, and those of entries by content type if it gives one
(`Tombstone.Names`). So a page has a part that is about one table (`SyncPage.about`): the records of the
table and the tombstones that name them.

The batches of news bring to a table and its link tables what the parts of their pages about the table
bring (`Namespace.Coherent.pages_about`): a payload changes the tables of its own record alone, and a
deletion those that its tombstone names. Two tables of records share no link table, so the statements
on the one do not show in the other.
-/

namespace ContentReplica

/-! ## The parts of a page -/

/-- Whether a tombstone names the records of a table: that of an asset names assets, and that of an entry
the entries of its content type, or all entries if it gives none. -/
def Tombstone.Names (d : Tombstone) (t : TableLayout) : Prop :=
  (d.kind = .deletedAsset ∧ t.kind = .asset) ∨
    d.kind = .deletedEntry ∧ t.kind = .entry ∧
      ∀ contentType ∈ d.contentType?, contentType = t.contentType

instance (t : TableLayout) : DecidablePred fun d : Tombstone => d.Names t :=
  fun _ => inferInstanceAs (Decidable (_ ∨ _ ∧ _ ∧ _))

/-- Whether an entry is one of the records of a table. -/
def Entry.In (e : Entry) (t : TableLayout) : Prop := t.kind = .entry ∧ e.contentType = t.contentType

instance (t : TableLayout) : DecidablePred fun e : Entry => e.In t :=
  fun e => inferInstanceAs (Decidable (t.kind = .entry ∧ e.contentType = t.contentType))

/-- The part of a page that is about a table: its records and the tombstones that name them. -/
def SyncPage.about (t : TableLayout) (p : SyncPage) : SyncPage :=
  { p with
    entries := p.entries.filter (·.In t)
    assets := p.assets.filter fun _ => t.kind = .asset
    deletions := p.deletions.filter (·.Names t) }

/-- Whether an event is about the records of a table. -/
def FeedEvent.About (t : TableLayout) : FeedEvent → Prop
  | .entry e => e.In t
  | .asset _ => t.kind = .asset
  | .deletion d => d.Names t

instance (t : TableLayout) : DecidablePred (FeedEvent.About t)
  | .entry e => inferInstanceAs (Decidable (e.In t))
  | .asset _ => inferInstanceAs (Decidable (t.kind = .asset))
  | .deletion d => inferInstanceAs (Decidable (d.Names t))

/-- The part of a page about a table has the events about it. -/
theorem SyncPage.events_about (t : TableLayout) (p : SyncPage) :
    (p.about t).events = p.events.filter (·.About t) := by
  unfold events about
  simp only [List.filter_append, List.filter_map]
  rfl

/-! ## The tables that an event is about -/

namespace Schema

variable {s : Schema} {t : TableLayout}

/-- A table of a compiled schema is that of a content type, or the table of assets. -/
theorem Compiled.kind_cases (h : s.Compiled) (ht : t ∈ s.allTables) :
    (t ∈ s.tables ∧ t.kind = .entry) ∨ t = assetLayout ∧ t.kind = .asset := by
  rcases List.mem_append.1 ht with ht | ht
  · obtain ⟨known, c, rfl⟩ := h.layout t ht
    exact .inl ⟨ht, rfl⟩
  · obtain rfl := List.mem_singleton.1 ht
    exact .inr ⟨rfl, rfl⟩

/-- The tables of entries are those of content types. -/
theorem Compiled.kind_eq_entry (h : s.Compiled) (ht : t ∈ s.allTables) :
    t.kind = .entry ↔ t ∈ s.tables := by
  rcases h.kind_cases ht with ⟨hmem, hkind⟩ | ⟨rfl, hkind⟩
  · exact ⟨fun _ => hmem, fun _ => hkind⟩
  · refine ⟨fun he => (nomatch hkind.symm.trans he), fun hmem => ?_⟩
    exact absurd rfl (h.contentType_ne_assets _ hmem)

/-- The table of assets is the one of its kind. -/
theorem Compiled.kind_eq_asset (h : s.Compiled) (ht : t ∈ s.allTables) :
    t.kind = .asset ↔ t = assetLayout := by
  rcases h.kind_cases ht with ⟨-, hkind⟩ | ⟨rfl, hkind⟩
  · refine ⟨fun he => (nomatch hkind.symm.trans he), ?_⟩
    rintro rfl
    rfl
  · exact ⟨fun _ => rfl, fun _ => hkind⟩

end Schema

namespace Mapping.WellFormed

variable {m : Mapping} {t t' : TableLayout}

/-- An entry with a table is one of its records. -/
theorem in_iff (h : m.WellFormed) (ht : t ∈ m.schema.allTables) {e : Entry}
    (htable : m.schema.entryTable? e.contentType = some t') : e.In t ↔ t' = t := by
  obtain ⟨hmem, htype⟩ := Schema.entryTable?_eq_some htable
  constructor
  · rintro ⟨hkind, he⟩
    have hfound := h.compiled.entryTable?_eq_some ((h.compiled.kind_eq_entry ht).1 hkind)
    rw [← he, htable] at hfound
    exact Option.some.inj hfound
  · rintro rfl
    exact ⟨(h.compiled.kind_eq_entry ht).2 hmem, htype.symm⟩

/-- A tombstone addresses the tables whose records it names. -/
theorem mem_tombstoneTables (h : m.WellFormed) (ht : t ∈ m.schema.allTables) (d : Tombstone) :
    t.name ∈ (m.tombstoneTables? d).getD [] ↔ d.Names t := by
  have hname {t' : TableLayout} (ht' : t' ∈ m.schema.allTables) : t.name = t'.name ↔ t = t' :=
    ⟨h.collisionFree.table_eq ht ht', congrArg _⟩
  unfold tombstoneTables? Tombstone.Names
  cases d.kind with
  | deletedAsset =>
    have hasset : assetLayout ∈ m.schema.allTables :=
      List.mem_append_right _ (List.mem_singleton.2 rfl)
    simp [hname hasset, h.compiled.kind_eq_asset ht]
  | deletedEntry =>
    simp only [reduceCtorEq, false_and, false_or, true_and, h.compiled.kind_eq_entry ht]
    cases d.contentType? with
    | none =>
      rw [Option.getD_some, List.mem_map]
      constructor
      · rintro ⟨t', hmem, he⟩
        obtain rfl := (hname (List.mem_append_left _ hmem)).1 he.symm
        exact ⟨hmem, nofun⟩
      · exact fun hmem => ⟨t, hmem.1, rfl⟩
    | some contentType =>
      constructor
      · intro hmem
        obtain ⟨t', htable, he⟩ : ∃ t', m.schema.entryTable? contentType = some t' ∧
            t.name = t'.name := by
          cases htable : m.schema.entryTable? contentType with
          | none => simp [htable] at hmem
          | some t' => exact ⟨t', rfl, by simpa [htable] using hmem⟩
        obtain ⟨hmem', rfl⟩ := Schema.entryTable?_eq_some htable
        obtain rfl := (hname (List.mem_append_left _ hmem')).1 he
        exact ⟨hmem', fun _ he => (Option.some.inj he).symm⟩
      · rintro ⟨hmem, htype⟩
        obtain rfl := htype contentType rfl
        simp [h.compiled.entryTable?_eq_some hmem]

end Mapping.WellFormed

/-! ## The statements of a record -/

/-- The triggers are those of the schema: a table takes the edges of its rows along, a link table
nothing. -/
structure Schema.Triggers (s : Schema) (triggers : SortedMap Ident (List Ident)) : Prop where
  tables : ∀ t ∈ s.allTables, (triggers.get? t.name).getD [] = t.linkTables.map LinkTable.name
  links : ∀ l ∈ s.linkTables, triggers.get? l.name = none

/-- A coherent namespace has the triggers of its schema. -/
theorem Namespace.Coherent.triggers {n origin : Namespace} {s : Schema} {codes : List String}
    {default : String} (h : n.Coherent origin s codes default) : s.Triggers n.triggers := by
  obtain ⟨base, contents, hbase, -, hmirror, -⟩ := h
  rw [hmirror.triggers]
  exact ⟨hbase.triggers, hbase.noTriggers⟩

/-- A table and its link tables. -/
def TableLayout.group (t : TableLayout) : List Ident := t.name :: t.linkTables.map LinkTable.name

/-- A table and its link tables, with the table of the token beside them. -/
def TableLayout.scope (t : TableLayout) : List Ident := syncTokenTable :: t.group

section
variable {s : Schema} {t t' : TableLayout} {codes : List String} {ns : Ident}
  {triggers : SortedMap Ident (List Ident)}

/-- The tables of a group hold content. -/
theorem TableLayout.mem_contentTables (ht : t ∈ s.allTables) {name : Ident} (h : name ∈ t.group) :
    name ∈ s.contentTables.map Prod.fst := by
  rcases List.mem_cons.1 h with rfl | h
  · exact List.mem_map_of_mem (Schema.mem_contentTables_of_table ht)
  · obtain ⟨l, hl, rfl⟩ := List.mem_map.1 h
    exact List.mem_map_of_mem (Schema.mem_contentTables_of_link (Schema.mem_linkTables ht hl))

/-- Two tables of records share no table. -/
theorem Schema.CollisionFree.notMem_scope (hfree : s.CollisionFree) (ht : t ∈ s.allTables)
    (ht' : t' ∈ s.allTables) (hne : t' ≠ t) {name : Ident} (h : name ∈ t'.group) :
    name ∉ t.scope := by
  intro hscope
  rcases List.mem_cons.1 hscope with rfl | hgroup
  · exact hfree.token_notMem (TableLayout.mem_contentTables ht' h)
  rcases List.mem_cons.1 h with rfl | h
  · rcases List.mem_cons.1 hgroup with he | hlink
    · exact hne (hfree.table_eq ht' ht he)
    · obtain ⟨l, hl, he⟩ := List.mem_map.1 hlink
      exact hfree.table_ne_link ht' (Schema.mem_linkTables ht hl) he.symm
  · obtain ⟨l, hl, rfl⟩ := List.mem_map.1 h
    rcases List.mem_cons.1 hgroup with he | hlink
    · exact hfree.table_ne_link ht (Schema.mem_linkTables ht' hl) he.symm
    · obtain ⟨l', hl', he⟩ := List.mem_map.1 hlink
      exact hne (hfree.owner_eq ht' ht hl hl' he.symm)

/-- A table of a group is in the scope of a table when the group is its own. -/
theorem Schema.CollisionFree.mem_scope_iff (hfree : s.CollisionFree) (ht : t ∈ s.allTables)
    (ht' : t' ∈ s.allTables) {name : Ident} (hname : name ∈ t'.group) : name ∈ t.scope ↔ t' = t := by
  constructor
  · intro hscope
    by_contra hne
    exact hfree.notMem_scope ht ht' hne hname hscope
  · rintro rfl
    exact List.mem_cons_of_mem _ hname

/-- The statement changes rows of the group of a table alone. -/
def Statement.On (triggers : SortedMap Ident (List Ident)) (t : TableLayout) (st : Statement) : Prop :=
  st.Within triggers t.group

/-- A statement on the group of a table is one on the scope of this table. -/
theorem Statement.On.within {st : Statement} (h : st.On triggers t) : st.Within triggers t.scope :=
  ⟨h.1, fun name hname => List.mem_cons_of_mem _ (h.2 name hname)⟩

/-- A statement on the group of another table is not one on the scope. -/
theorem Statement.On.beyond {st : Statement} (h : st.On triggers t') (hfree : s.CollisionFree)
    (ht : t ∈ s.allTables) (ht' : t' ∈ s.allTables) (hne : t' ≠ t) : st.Beyond triggers t.scope :=
  ⟨h.1, fun name hname => hfree.notMem_scope ht ht' hne (h.2 name hname)⟩

/-- A statement on the group of a table is on one side of each scope. -/
theorem Statement.On.side {st : Statement} (h : st.On triggers t') (hfree : s.CollisionFree)
    (ht : t ∈ s.allTables) (ht' : t' ∈ s.allTables) :
    st.Within triggers t.scope ∨ st.Beyond triggers t.scope := by
  by_cases he : t' = t
  · subst he
    exact .inl h.within
  · exact .inr (h.beyond hfree ht ht' he)

/-- A statement on the group of a table is one on the scope of this table alone. -/
theorem Statement.On.within_iff {st : Statement} (h : st.On triggers t') (hfree : s.CollisionFree)
    (ht : t ∈ s.allTables) (ht' : t' ∈ s.allTables) : st.Within triggers t.scope ↔ t' = t := by
  constructor
  · intro hwithin
    by_contra hne
    exact (h.beyond hfree ht ht' hne).not_within hwithin
  · rintro rfl
    exact h.within

/-- The deletion of a record changes the group of its table. -/
theorem Schema.Triggers.deleteRecord (h : s.Triggers triggers) (ht : t ∈ s.allTables)
    (sysId : String) : (Mapping.deleteRecord ns t.name sysId).On triggers t := by
  refine ⟨rfl, fun name hname => ?_⟩
  unfold Mapping.deleteRecord at hname
  rwa [Statement.touched_delete, h.tables t ht] at hname

/-- A record that is brought up to date changes the group of its table. -/
theorem Schema.Triggers.recordStatements (h : s.Triggers triggers) (ht : t ∈ s.allTables)
    {r : RecordRows} (hr : r.Describes t codes) :
    ∀ st ∈ Mapping.recordStatements ns r, st.On triggers t := by
  intro st hst
  have hown : t.name ∈ t.group := List.mem_cons_self ..
  unfold Mapping.recordStatements at hst
  rw [hr.table_eq] at hst
  rcases List.mem_append.1 hst with hst | hst
  · simp only [List.mem_cons, List.not_mem_nil, or_false] at hst
    rcases hst with rfl | rfl
    · exact ⟨rfl, fun name hname => List.mem_singleton.1 hname ▸ hown⟩
    · refine ⟨rfl, fun name hname => ?_⟩
      rwa [Statement.touched_delete, h.tables t ht] at hname
  · obtain ⟨set, hset, hst⟩ := List.mem_flatMap.1 hst
    obtain ⟨l, hl, hlink⟩ := hr.exists_link hset
    have hown : l.name ∈ t.group := List.mem_cons_of_mem _ (List.mem_map_of_mem hl)
    unfold Mapping.edgeStatements at hst
    rw [← hlink] at hst
    rcases List.mem_cons.1 hst with rfl | hst
    · refine ⟨rfl, fun name hname => ?_⟩
      rw [Statement.touched_delete, h.links l (Schema.mem_linkTables ht hl)] at hname
      exact List.mem_singleton.1 hname ▸ hown
    · split at hst
      · cases hst
      · rw [List.mem_singleton.1 hst]
        exact ⟨rfl, fun name hname => List.mem_singleton.1 hname ▸ hown⟩

end

/-! ## Events on a table -/

section
variable {m : Mapping} {t : TableLayout} {ns : Ident} {event : FeedEvent}

/-- The statements of an event are each on the group of a table, and on that of a given table only if
the event is about it. -/
theorem Mapping.WellFormed.eventStatements_on (hm : m.WellFormed)
    {triggers : SortedMap Ident (List Ident)} (htriggers : m.schema.Triggers triggers) :
    ∀ st ∈ m.eventStatements ns event, ∃ t ∈ m.schema.allTables,
      st.On triggers t ∧ event.About t := by
  intro st hst
  cases event with
  | entry e =>
    unfold Mapping.eventStatements at hst
    dsimp only at hst
    split at hst
    · next r hr =>
      obtain ⟨t, htable, -, hdescribes⟩ := Mapping.describes_entryRows hm.codes_nodup hm.default_mem
        hm.compiled.column_not_reserved hr
      have ht : t ∈ m.schema.allTables :=
        List.mem_append_left _ (Schema.entryTable?_eq_some htable).1
      exact ⟨t, ht, htriggers.recordStatements ht hdescribes st hst, (hm.in_iff ht htable).2 rfl⟩
    · cases hst
  | asset a =>
    have ht : assetLayout ∈ m.schema.allTables :=
      List.mem_append_right _ (List.mem_singleton.2 rfl)
    exact ⟨assetLayout, ht, htriggers.recordStatements ht
      (Mapping.describes_assetRows hm.codes_nodup a) st hst, rfl⟩
  | deletion d =>
    obtain ⟨table, htable, rfl⟩ := List.mem_map.1 hst
    obtain ⟨t, ht, rfl⟩ := Mapping.exists_table_of_tombstone htable
    exact ⟨t, ht, htriggers.deleteRecord ht d.sysId, (hm.mem_tombstoneTables ht d).1 htable⟩

/-- A payload is about one table. -/
theorem Mapping.WellFormed.about_unique (hm : m.WellFormed) {t' : TableLayout}
    (ht : t ∈ m.schema.allTables) (ht' : t' ∈ m.schema.allTables) (h : event.About t)
    (h' : event.About t') (hpayload : ∀ d, event ≠ .deletion d) : t' = t := by
  cases event with
  | entry e =>
    have hfound := hm.compiled.entryTable?_eq_some ((hm.compiled.kind_eq_entry ht').1 h'.1)
    rw [← h'.2] at hfound
    exact (hm.in_iff ht hfound).1 h
  | asset a =>
    rw [(hm.compiled.kind_eq_asset ht).1 h, (hm.compiled.kind_eq_asset ht').1 h']
  | deletion d => exact absurd rfl (hpayload d)

/-- Each statement of an event is on one side of a table's scope, and beyond it if the event is not
about the table. -/
theorem Mapping.WellFormed.eventStatements_side (hm : m.WellFormed)
    {triggers : SortedMap Ident (List Ident)} (htriggers : m.schema.Triggers triggers)
    (ht : t ∈ m.schema.allTables) :
    ∀ st ∈ m.eventStatements ns event,
      (st.Within triggers t.scope ∧ event.About t) ∨ st.Beyond triggers t.scope := by
  intro st hst
  obtain ⟨t', ht', hon, habout⟩ := hm.eventStatements_on htriggers st hst
  by_cases he : t' = t
  · subst he
    exact .inl ⟨hon.within, habout⟩
  · exact .inr (hon.beyond hm.collisionFree ht ht' he)

end

namespace Namespace.Coherent

variable {m : Mapping} {n n₁ n' origin : Namespace} {t : TableLayout} {ns : Ident}

/-- A coherent namespace lets records be deleted. -/
theorem exists_deleteAll {s : Schema} {codes : List String} {default : String}
    (h : n.Coherent origin s codes default) (hfree : s.CollisionFree) (ns : Ident)
    {pairs : List (Ident × String)} (hpairs : ∀ pair ∈ pairs, ∃ t ∈ s.allTables, t.name = pair.1) :
    ∃ n', n.applyAll (pairs.map fun pair => Mapping.deleteRecord ns pair.1 pair.2) = .ok n' := by
  induction pairs generalizing n with
  | nil => exact ⟨n, rfl⟩
  | cons pair pairs ih =>
    obtain ⟨⟨t, ht, hname⟩, hpairs⟩ := List.forall_mem_cons.1 hpairs
    obtain ⟨base, contents, hbase, -, hmirror, -⟩ := id h
    obtain ⟨n₁, hfirst, -⟩ :=
      hmirror.deleteRecords hfree hbase ht (.textEq Column.sysId.text pair.2)
    have hfirst : n.apply (Mapping.deleteRecord ns t.name pair.2) = .ok n₁ := hfirst
    obtain ⟨n', hrest⟩ := ih (h.deleteRecord hfree ht hfirst) hpairs
    rw [hname] at hfirst
    exact ⟨n', Namespace.applyAll_cons.2 ⟨n₁, hfirst, hrest⟩⟩

/-- An event about a table goes through wherever it goes through on the same table and link tables. -/
theorem exists_eventStatements (h' : n'.Coherent origin m.schema m.space.localeCodes m.default)
    (hm : m.WellFormed) (ht : t ∈ m.schema.allTables) (hsame : n.only t.scope = n'.only t.scope)
    {event : FeedEvent} (hrun : n.applyAll (m.eventStatements ns event) = .ok n₁)
    (habout : event.About t) : ∃ n₁', n'.applyAll (m.eventStatements ns event) = .ok n₁' := by
  have htriggers : n.triggers = n'.triggers := Namespace.triggers_eq hsame
  have hpayload (hevent : ∀ d, event ≠ .deletion d) :
      ∃ n₁', n'.applyAll (m.eventStatements ns event) = .ok n₁' := by
    have hwithin : ∀ st ∈ m.eventStatements ns event, st.Within n'.triggers t.scope := by
      intro st hst
      obtain ⟨t', ht', hon, habout'⟩ := hm.eventStatements_on h'.triggers st hst
      exact hm.about_unique ht ht' habout habout' hevent ▸ hon.within
    have hexcerpt : (n.only t.scope).applyAll (m.eventStatements ns event) = .ok (n₁.only t.scope) := by
      rw [Namespace.applyAll_only (htriggers ▸ hwithin), hrun]
      rfl
    rw [hsame] at hexcerpt
    obtain ⟨n₁', hrun', -⟩ := Namespace.exists_of_applyAll_only hwithin hexcerpt
    exact ⟨n₁', hrun'⟩
  cases event with
  | entry e => exact hpayload nofun
  | asset a => exact hpayload nofun
  | deletion d =>
    -- a tombstone may address other tables too, and these take it whatever they hold
    have hpairs : ∀ pair ∈ ((m.tombstoneTables? d).getD []).map (·, d.sysId),
        ∃ t ∈ m.schema.allTables, t.name = pair.1 := by
      intro pair hpair
      obtain ⟨table, htable, rfl⟩ := List.mem_map.1 hpair
      exact Mapping.exists_table_of_tombstone htable
    obtain ⟨n₁', hrun'⟩ := h'.exists_deleteAll hm.collisionFree ns hpairs
    rw [List.map_map] at hrun'
    exact ⟨n₁', hrun'⟩

/-- An event brings to a table what it brings where the table and its link tables are the same: nothing
if it is not about the table. -/
theorem event_about (h : n.Coherent origin m.schema m.space.localeCodes m.default)
    (h' : n'.Coherent origin m.schema m.space.localeCodes m.default) (hm : m.WellFormed)
    (ht : t ∈ m.schema.allTables) (hsame : n.only t.scope = n'.only t.scope) {event : FeedEvent}
    (hrun : n.applyAll (m.eventStatements ns event) = .ok n₁) :
    (event.About t → ∃ n₁', n'.applyAll (m.eventStatements ns event) = .ok n₁' ∧
      n₁.only t.scope = n₁'.only t.scope) ∧
    (¬ event.About t → n₁.only t.scope = n'.only t.scope) := by
  have hside : ∀ st ∈ m.eventStatements ns event, (st.Within n.triggers t.scope ∧ event.About t) ∨
      st.Beyond n.triggers t.scope := hm.eventStatements_side h.triggers ht
  have hsides : ∀ st ∈ m.eventStatements ns event,
      st.Within n.triggers t.scope ∨ st.Beyond n.triggers t.scope :=
    fun st hst => (hside st hst).imp_left And.left
  refine ⟨fun habout => ?_, fun hnot => ?_⟩
  · obtain ⟨n₁', hrun'⟩ := h'.exists_eventStatements hm ht hsame hrun habout
    exact ⟨n₁', hrun', Namespace.only_eq_of_applyAll hsame hsides hsides rfl hrun hrun'⟩
  · have hnone : (m.eventStatements ns event).filter (·.Within n.triggers t.scope) = [] :=
      List.filter_eq_nil_iff.2 fun st hst => by
        simpa using ((hside st hst).resolve_left fun hin => hnot hin.2).not_within
    have hempty : ∀ st ∈ ([] : List Statement),
        st.Within n.triggers t.scope ∨ st.Beyond n.triggers t.scope := nofun
    exact Namespace.only_eq_of_applyAll hsame hsides hempty hnone hrun rfl

end Namespace.Coherent

/-! ## Pages -/

/-- The records of the part of a page about a table are those of the page in this table. -/
theorem Mapping.WellFormed.pageRecords_about {m : Mapping} (hm : m.WellFormed) {t : TableLayout}
    (ht : t ∈ m.schema.allTables) {p : SyncPage} {records : List RecordRows}
    (h : m.pageRecords p = .ok records) :
    m.pageRecords (p.about t) = .ok (records.filter (·.table = t.name)) := by
  obtain ⟨rows, hrows, h⟩ := bind_eq_ok.1 h
  obtain rfl := pure_eq_ok.1 h
  have hentries : ((p.entries.filter m.hasTable).filter (·.In t)).mapM m.entryRows
      = .ok (rows.filter (·.table = t.name)) := by
    refine mapM_filter_ok (fun e r hr => decide_eq_decide.2 ?_) hrows
    obtain ⟨t', htable, -, hdescribes⟩ := describes_entryRows hm.codes_nodup hm.default_mem
      hm.compiled.column_not_reserved hr
    have ht' := List.mem_append_left [assetLayout] (Schema.entryTable?_eq_some htable).1
    rw [hdescribes.table_eq, hm.in_iff ht htable]
    exact ⟨fun he => hm.collisionFree.table_eq ht' ht he, congrArg _⟩
  have hassets : (p.assets.filter fun _ => t.kind = .asset).map m.assetRows
      = (p.assets.map m.assetRows).filter (·.table = t.name) := by
    rw [List.filter_map]
    refine congrArg _ (List.filter_congr fun a _ => decide_eq_decide.2 ?_)
    have hasset : assetLayout ∈ m.schema.allTables :=
      List.mem_append_right _ (List.mem_singleton.2 rfl)
    rw [hm.compiled.kind_eq_asset ht]
    exact ⟨fun he => he ▸ rfl, fun he => (hm.collisionFree.table_eq hasset ht he).symm⟩
  unfold pageRecords SyncPage.about
  dsimp only
  rw [List.filter_comm, hentries, hassets, List.filter_append]
  rfl

/-- Two coherent namespaces have the same token, and the same rows in a table and its link tables. -/
structure Namespace.Alongside (m : Mapping) (origin : Namespace) (t : TableLayout)
    (n n' : Namespace) : Prop where
  left : n.Coherent origin m.schema m.space.localeCodes m.default
  right : n'.Coherent origin m.schema m.space.localeCodes m.default
  same : n.only t.scope = n'.only t.scope

namespace Namespace.Alongside

variable {m : Mapping} {origin n n₁ n' : Namespace} {t : TableLayout} {ns : Ident}

/-- Events bring to a table what those of them bring that are about it. -/
theorem events (hm : m.WellFormed) (ht : t ∈ m.schema.allTables) :
    ∀ {events : List FeedEvent} {n n' : Namespace}, Alongside m origin t n n' →
      n.applyAll (events.flatMap (m.eventStatements ns)) = .ok n₁ →
      ∃ n₁', n'.applyAll ((events.filter (·.About t)).flatMap (m.eventStatements ns)) = .ok n₁' ∧
        Alongside m origin t n₁ n₁' := by
  intro events
  induction events with
  | nil =>
    intro n n' h hrun
    obtain rfl := pure_eq_ok.1 hrun
    exact ⟨n', rfl, h⟩
  | cons event events ih =>
    intro n n' h hrun
    rw [List.flatMap_cons] at hrun
    obtain ⟨n₂, hfirst, hrest⟩ := Namespace.applyAll_append.1 hrun
    have h₂ := h.left.event hm hfirst
    obtain ⟨habout, hother⟩ := h.left.event_about h.right hm ht h.same hfirst
    by_cases hevent : event.About t
    · obtain ⟨n₂', hfirst', hsame⟩ := habout hevent
      obtain ⟨n₁', hrest', h₁⟩ := ih ⟨h₂, h.right.event hm hfirst', hsame⟩ hrest
      rw [List.filter_cons_of_pos (by simpa using hevent), List.flatMap_cons]
      exact ⟨n₁', Namespace.applyAll_append.2 ⟨n₂', hfirst', hrest'⟩, h₁⟩
    · rw [List.filter_cons_of_neg (by simpa using hevent)]
      exact ih ⟨h₂, h.right, hother hevent⟩ hrest

/-- The batch of a page brings to a table what that of its part about the table brings. -/
theorem page (h : Alongside m origin t n n') (hm : m.WellFormed) (ht : t ∈ m.schema.allTables)
    {p : SyncPage} {batch : List Statement} (hbatch : m.pageBatch ns p = .ok batch)
    (hrun : n.applyAll batch = .ok n₁) :
    ∃ batch' n₁', m.pageBatch ns (p.about t) = .ok batch' ∧ n'.applyAll batch' = .ok n₁' ∧
      Alongside m origin t n₁ n₁' := by
  obtain ⟨records, hrecords, -⟩ := bind_eq_ok.1 hbatch
  obtain ⟨batch', hbatch'⟩ : ∃ batch', m.pageBatch ns (p.about t) = .ok batch' :=
    ⟨_, bind_eq_ok.2 ⟨_, hm.pageRecords_about ht hrecords, rfl⟩⟩
  obtain ⟨rfl, -⟩ := Mapping.pageBatch_eq hbatch
  obtain ⟨rfl, -⟩ := Mapping.pageBatch_eq hbatch'
  obtain ⟨n₂, hevents, hlast⟩ := Namespace.applyAll_append.1 hrun
  obtain ⟨n₂', hevents', h₂⟩ := events hm ht h hevents
  have htoken : ∀ st ∈ [Statement.saveSyncToken ns p.cursor.token],
      st.Within n₂'.triggers t.scope := by
    refine List.forall_mem_singleton.2 ⟨rfl, fun name hname => ?_⟩
    rw [List.mem_singleton.1 hname]
    exact List.mem_cons_self ..
  have hexcerpt : (n₂'.only t.scope).applyAll [.saveSyncToken ns p.cursor.token]
      = .ok (n₁.only t.scope) := by
    rw [← h₂.same, Namespace.applyAll_only (Namespace.triggers_eq h₂.same ▸ htoken), hlast]
    rfl
  obtain ⟨n₁', hlast', hsame⟩ := Namespace.exists_of_applyAll_only htoken hexcerpt
  rw [← SyncPage.events_about] at hevents'
  have hrun' := Namespace.applyAll_append.2 ⟨n₂', hevents', hlast'⟩
  exact ⟨_, n₁', hbatch', hrun', h.left.pageBatch hm hbatch hrun,
    h.right.pageBatch hm hbatch' hrun', hsame.symm⟩

/-- The batches of several pages bring to a table what those of their parts about the table bring. -/
theorem pages (hm : m.WellFormed) (ht : t ∈ m.schema.allTables) :
    ∀ {pages : List SyncPage} {batches : List (List Statement)} {n n' : Namespace},
      Alongside m origin t n n' → pages.mapM (m.pageBatch ns) = .ok batches →
      batches.foldlM Namespace.applyAll n = .ok n₁ →
      ∃ batches' n₁', (pages.map (·.about t)).mapM (m.pageBatch ns) = .ok batches' ∧
        batches'.foldlM Namespace.applyAll n' = .ok n₁' ∧ Alongside m origin t n₁ n₁' := by
  intro pages
  induction pages with
  | nil =>
    intro batches n n' h hbatches hrun
    rw [List.mapM_nil, pure_eq_ok] at hbatches
    subst hbatches
    obtain rfl := pure_eq_ok.1 hrun
    exact ⟨[], n', rfl, rfl, h⟩
  | cons p pages ih =>
    intro batches n n' h hbatches hrun
    rw [List.mapM_cons] at hbatches
    obtain ⟨batch, hbatch, hbatches⟩ := bind_eq_ok.1 hbatches
    obtain ⟨rest, hrest, hbatches⟩ := bind_eq_ok.1 hbatches
    obtain rfl := pure_eq_ok.1 hbatches
    obtain ⟨n₂, hfirst, hrun⟩ := bind_eq_ok.1 hrun
    obtain ⟨batch', n₂', hbatch', hfirst', h₂⟩ := h.page hm ht hbatch hfirst
    obtain ⟨rest', n₁', hrest', hrun', h₁⟩ := ih h₂ hrest hrun
    refine ⟨batch' :: rest', n₁', ?_, bind_eq_ok.2 ⟨n₂', hfirst', hrun'⟩, h₁⟩
    rw [List.map_cons, List.mapM_cons]
    exact bind_eq_ok.2 ⟨batch', hbatch', bind_eq_ok.2 ⟨rest', hrest', rfl⟩⟩

end Namespace.Alongside

end ContentReplica
