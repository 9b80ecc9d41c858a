import ContentReplica.Proofs.Replication.CopyFeed
import ContentReplica.Proofs.Replication.Edges
import ContentReplica.Proofs.Store.Insertion

/-!
# Coherent contents

`Contents.Coherent s codes default contents` is the invariant that ties the tables of a replica to each
other: every row is that of a record in a locale, every edge has an owner, the positions of edges
leave no gap, and, if locales can be told from identities, every record has a row in the default
locale. Coherent contents may be put together (`Coherent.or`), so what is added has to be coherent in
itself; of what is removed only the rows that the rest refers to count.

No locale has to be free of the separator for the first three: where the identities of two records run
together a batch may be refused, or a row may take the place of another record's row, but it has the
same identity and so owns the same edges. Hence the statements that bring a record up to date or delete
it leave a namespace coherent whenever they go through (`Namespace.Coherent.record`,
`Namespace.Coherent.deleteRecord`).
-/

namespace ContentReplica

/-! ## The invariant -/

/-- The rows are those of records in locales, the row that owns an edge is there, no position before
that of an edge is free, and every record has a row in the default locale, if no locale holds the
separator. -/
structure Contents.Coherent (s : Schema) (codes : List String) (default : String)
    (contents : Contents) : Prop where
  rows : ∀ t ∈ s.allTables, ∀ row, contents t.name row →
    ∃ sysId, ∃ locale ∈ codes, RowOf sysId locale row
  edges : ∀ t ∈ s.allTables, ∀ l ∈ t.linkTables, ∀ row, contents l.name row →
    ∃ sysId, ∃ locale ∈ codes, ∃ position target, EdgeTo sysId locale position target row ∧
      ∃ owner, contents t.name owner ∧
        owner.cell Column.id = .text (Naming.rowId sysId locale)
  dense : ∀ l ∈ s.linkTables, ∀ row, contents l.name row → ∀ sysId locale position target,
    EdgeTo sysId locale position target row → ∀ p < position,
      ∃ row' target', contents l.name row' ∧ EdgeTo sysId locale p target' row'
  rooted : (∀ code ∈ codes, '_' ∉ code.toList) → ∀ t ∈ s.allTables, ∀ row, contents t.name row →
    ∀ sysId locale, RowOf sysId locale row →
      ∃ root, contents t.name root ∧ RowOf sysId default root

namespace Contents.Coherent

variable {s : Schema} {codes : List String} {default : String} {contents contents' : Contents}

/-- Nothing is coherent. -/
theorem empty : Coherent s codes default fun _ _ => False := ⟨nofun, nofun, nofun, nofun⟩

/-- Coherent contents may be put together. -/
theorem union {α : Type} {parts : α → Contents} (h : ∀ a, (parts a).Coherent s codes default) :
    Coherent s codes default fun name row => ∃ a, parts a name row where
  rows t ht row := fun ⟨a, hrow⟩ => (h a).rows t ht row hrow
  edges t ht l hl row := fun ⟨a, hrow⟩ => by
    obtain ⟨sysId, locale, hlocale, position, target, hedge, owner, howner, hid⟩ :=
      (h a).edges t ht l hl row hrow
    exact ⟨sysId, locale, hlocale, position, target, hedge, owner, ⟨a, howner⟩, hid⟩
  dense l hl row := fun ⟨a, hrow⟩ sysId locale position target hedge p hp => by
    obtain ⟨row', target', hrow', hedge'⟩ :=
      (h a).dense l hl row hrow sysId locale position target hedge p hp
    exact ⟨row', target', ⟨a, hrow'⟩, hedge'⟩
  rooted hcodes t ht row := fun ⟨a, hrow⟩ sysId locale hrowOf => by
    obtain ⟨root, hroot, hrootOf⟩ := (h a).rooted hcodes t ht row hrow sysId locale hrowOf
    exact ⟨root, ⟨a, hroot⟩, hrootOf⟩

/-- Two coherent contents may be put together. -/
theorem or (h : contents.Coherent s codes default) (h' : contents'.Coherent s codes default) :
    Coherent s codes default fun name row => contents name row ∨ contents' name row := by
  have hunion : Coherent s codes default fun name row =>
      ∃ b : Bool, (if b then contents else contents') name row :=
    union fun b => by cases b <;> assumption
  simpa [or_comm] using hunion

/-! ## Removals -/

/-- Rows removed from a table leave the contents coherent, if a record loses its row in the default
locale only with all others: the edges that they own go with them. -/
theorem deleteRecords (h : contents.Coherent s codes default) (hfree : s.CollisionFree)
    {t : TableLayout} (ht : t ∈ s.allTables) {p : Predicate}
    (hp : ∀ row root sysId locale, RowOf sysId locale row → RowOf sysId default root →
      p.holds row = false → p.holds root = false) :
    Coherent s codes default fun name row => contents name row ∧
      (name = t.name → p.holds row = false) ∧
      (name ∈ t.linkTables.map LinkTable.name → ¬ Mirror.OwnedBy (contents t.name) p row) where
  rows t' ht' row hrow := h.rows t' ht' row hrow.1
  edges t' ht' l hl row := fun ⟨hrow, _, hkept⟩ => by
    obtain ⟨sysId, locale, hlocale, position, target, hedge, owner, howner, hid⟩ :=
      h.edges t' ht' l hl row hrow
    refine ⟨sysId, locale, hlocale, position, target, hedge, owner,
      ⟨howner, fun hname => ?_, fun hname => ?_⟩, hid⟩
    · obtain rfl := hfree.table_eq ht' ht hname
      refine Bool.eq_false_iff.2 fun hholds => hkept (List.mem_map_of_mem hl) ?_
      refine ⟨owner, _, howner, hholds, hid, ?_⟩
      rw [hedge.ownerId]
      rfl
    · obtain ⟨l', hl', he⟩ := List.mem_map.1 hname
      exact absurd he.symm (hfree.table_ne_link ht' (Schema.mem_linkTables ht hl'))
  dense l hl row := fun ⟨hrow, _, hkept⟩ sysId locale position target hedge q hq => by
    obtain ⟨row', target', hrow', hedge'⟩ :=
      h.dense l hl row hrow sysId locale position target hedge q hq
    refine ⟨row', target', ⟨hrow', fun hname => ?_, fun hname howned => hkept hname ?_⟩, hedge'⟩
    · exact absurd hname.symm (hfree.table_ne_link ht hl)
    -- the edges of one array in one locale have one owner
    · obtain ⟨owner, key, howner, hholds, hid, hkey⟩ := howned
      rw [hedge'.ownerId, ← hedge.ownerId] at hkey
      exact ⟨owner, key, howner, hholds, hid, hkey⟩
  rooted hcodes t' ht' row := fun ⟨hrow, hkept, _⟩ sysId locale hrowOf => by
    obtain ⟨root, hroot, hrootOf⟩ := h.rooted hcodes t' ht' row hrow sysId locale hrowOf
    refine ⟨root, ⟨hroot, fun hname => hp row root sysId locale hrowOf hrootOf (hkept hname),
      fun hname => ?_⟩, hrootOf⟩
    obtain ⟨l', hl', he⟩ := List.mem_map.1 hname
    exact absurd he.symm (hfree.table_ne_link ht' (Schema.mem_linkTables ht hl'))

/-- All edges of a record removed from a link table leave the contents coherent. -/
theorem deleteEdges (h : contents.Coherent s codes default) (hfree : s.CollisionFree)
    {l : LinkTable} (hl : l ∈ s.linkTables) (sysId : String) :
    Coherent s codes default fun name row => contents name row ∧
      (name = l.name → row.cell Column.ownerSysId ≠ .text sysId) where
  rows t ht row hrow := h.rows t ht row hrow.1
  edges t ht l' hl' row := fun ⟨hrow, _⟩ => by
    obtain ⟨sysId', locale, hlocale, position, target, hedge, owner, howner, hid⟩ :=
      h.edges t ht l' hl' row hrow
    exact ⟨sysId', locale, hlocale, position, target, hedge, owner,
      ⟨howner, fun hname => absurd hname (hfree.table_ne_link ht hl)⟩, hid⟩
  dense l' hl' row := fun ⟨hrow, hkept⟩ sysId' locale position target hedge p hp => by
    obtain ⟨row', target', hrow', hedge'⟩ :=
      h.dense l' hl' row hrow sysId' locale position target hedge p hp
    rw [hedge.ownerSysId, ← hedge'.ownerSysId] at hkept
    exact ⟨row', target', ⟨hrow', hkept⟩, hedge'⟩
  rooted hcodes t ht row := fun ⟨hrow, _⟩ sysId' locale hrowOf => by
    obtain ⟨root, hroot, hrootOf⟩ := h.rooted hcodes t ht row hrow sysId' locale hrowOf
    exact ⟨root, ⟨hroot, fun hname => absurd hname (hfree.table_ne_link ht hl)⟩, hrootOf⟩

/-! ## Additions -/

section
variable {t : TableLayout} {r : RecordRows}

/-- The rows of a record in place of those with the same identities leave the contents coherent: they
own the same edges. -/
theorem upsert (h : contents.Coherent s codes default) (hfree : s.CollisionFree)
    (ht : t ∈ s.allTables) (hr : r.Describes t codes) (hnumbered : r.Numbered default) :
    Coherent s codes default fun name row =>
      (name = t.name ∧ row ∈ r.rows.map (Row.ofCells t.columns)) ∨
        contents name row ∧ (name = t.name → ∀ new ∈ r.rows.map (Row.ofCells t.columns),
          row.cell Column.id ≠ new.cell Column.id) := by
  -- the identities of a table stay, and only rows of the record are new
  have hkept : ∀ t' ∈ s.allTables, ∀ owner, contents t'.name owner →
      (∃ new ∈ r.rows.map (Row.ofCells t.columns), t' = t ∧
        new.cell Column.id = owner.cell Column.id) ∨
      (t'.name = t.name → ∀ new ∈ r.rows.map (Row.ofCells t.columns),
        owner.cell Column.id ≠ new.cell Column.id) := by
    intro t' ht' owner _
    rw [or_iff_not_imp_right]
    intro hreplaced
    push Not at hreplaced
    obtain ⟨hname, new, hnew, hid⟩ := hreplaced
    exact ⟨new, hnew, hfree.table_eq ht' ht hname, hid.symm⟩
  refine ⟨fun t' ht' row hrow => ?_, fun t' ht' l hl row hrow => ?_,
    fun l hl row hrow sysId locale position target hedge p hp => ?_,
    fun hcodes t' ht' row hrow sysId locale hrowOf => ?_⟩
  · rcases hrow with ⟨-, hrow⟩ | ⟨hrow, -⟩
    · obtain ⟨locale, hl, hrowOf⟩ := hr.rowOf_of_mem hrow
      exact ⟨_, locale, hr.locales_subset _ hl, hrowOf⟩
    · exact h.rows t' ht' row hrow
  · have hold : contents l.name row := hrow.elim
      (fun he => absurd he.1.symm (hfree.table_ne_link ht (Schema.mem_linkTables ht' hl))) And.left
    obtain ⟨sysId, locale, hlocale, position, target, hedge, owner, howner, hid⟩ :=
      h.edges t' ht' l hl row hold
    refine ⟨sysId, locale, hlocale, position, target, hedge, ?_⟩
    rcases hkept t' ht' owner howner with ⟨new, hnew, rfl, hsame⟩ | hstays
    · exact ⟨new, .inl ⟨rfl, hnew⟩, hsame.trans hid⟩
    · exact ⟨owner, .inr ⟨howner, hstays⟩, hid⟩
  · have hne : l.name ≠ t.name := (hfree.table_ne_link ht hl).symm
    have hold : contents l.name row := hrow.elim (fun he => absurd he.1 hne) And.left
    obtain ⟨row', target', hrow', hedge'⟩ :=
      h.dense l hl row hold sysId locale position target hedge p hp
    exact ⟨row', target', .inr ⟨hrow', fun he => absurd he hne⟩, hedge'⟩
  · rcases hrow with ⟨hname, hrow⟩ | ⟨hrow, -⟩
    · obtain ⟨locale', -, hnewOf⟩ := hr.rowOf_of_mem hrow
      obtain rfl := Value.text.inj (hnewOf.sysId.symm.trans hrowOf.sysId)
      obtain ⟨root, hroot, hrootOf⟩ := hr.exists_rowOf hnumbered.default_mem
      exact ⟨root, .inl ⟨hname, hroot⟩, hrootOf⟩
    · obtain ⟨root, hroot, hrootOf⟩ := h.rooted hcodes t' ht' row hrow sysId locale hrowOf
      rcases hkept t' ht' root hroot with ⟨new, hnew, rfl, hsame⟩ | hstays
      -- a new row with the identity of the old one is that of the same record in the same locale
      · obtain ⟨locale', hl', hnewOf⟩ := hr.rowOf_of_mem hnew
        obtain ⟨hsys, rfl⟩ := hnewOf.inj (Naming.apart_of_plain hcodes) hrootOf
          (hr.locales_subset _ hl') (hr.locales_subset _ hnumbered.default_mem) hsame
        exact ⟨new, .inl ⟨rfl, hnew⟩, hsys ▸ hnewOf⟩
      · exact ⟨root, .inr ⟨hroot, hstays⟩, hrootOf⟩

/-- The rows of a record with the edges of some of its arrays are coherent. -/
theorem ofRecord (hfree : s.CollisionFree) (ht : t ∈ s.allTables) (hr : r.Describes t codes)
    (hnumbered : r.Numbered default) {sets : List EdgeSet} (hsets : ∀ set ∈ sets, set ∈ r.edges) :
    Coherent s codes default fun name row =>
      (name = t.name ∧ row ∈ r.rows.map (Row.ofCells t.columns)) ∨
        ∃ set ∈ sets, name = set.linkTable ∧
          row ∈ set.rows.map (Row.ofCells LinkTable.columns) := by
  have htable : ∀ t' ∈ s.allTables, ∀ set ∈ sets, t'.name ≠ set.linkTable := by
    intro t' ht' set hset he
    obtain ⟨l, hl, hlink⟩ := hr.exists_link (hsets set hset)
    exact hfree.table_ne_link ht' (Schema.mem_linkTables ht hl) (he.trans hlink.symm)
  refine ⟨fun t' ht' row hrow => ?_, fun t' ht' l hl row hrow => ?_,
    fun l hl row hrow sysId locale position target hedge p hp => ?_,
    fun hcodes t' ht' row hrow sysId locale hrowOf => ?_⟩
  · rcases hrow with ⟨-, hrow⟩ | ⟨set, hset, hname, -⟩
    · obtain ⟨locale, hl, hrowOf⟩ := hr.rowOf_of_mem hrow
      exact ⟨_, locale, hr.locales_subset _ hl, hrowOf⟩
    · exact absurd hname (htable t' ht' set hset)
  · rcases hrow with ⟨hname, -⟩ | ⟨set, hset, hname, hrow⟩
    · exact absurd hname.symm (hfree.table_ne_link ht (Schema.mem_linkTables ht' hl))
    · obtain ⟨l', hl', hlink⟩ := hr.exists_link (hsets set hset)
      obtain rfl := hfree.owner_eq ht ht' hl' hl (hlink.trans hname.symm)
      obtain ⟨locale, hlocale, position, target, hedge⟩ := hnumbered.edgeTo (hsets set hset) hrow
      obtain ⟨owner, howner, hownerOf⟩ := hr.exists_rowOf hlocale
      exact ⟨_, locale, hr.locales_subset _ hlocale, position, target, hedge, owner,
        .inl ⟨rfl, howner⟩, hownerOf.id⟩
  · rcases hrow with ⟨hname, -⟩ | ⟨set, hset, hname, hrow⟩
    · exact absurd hname.symm (hfree.table_ne_link ht hl)
    · obtain ⟨row', hrow', target', hedge'⟩ := hnumbered.dense (hsets set hset) hrow hedge hp
      exact ⟨row', target', .inr ⟨set, hset, hname, hrow'⟩, hedge'⟩
  · rcases hrow with ⟨hname, hrow⟩ | ⟨set, hset, hname, -⟩
    · obtain ⟨locale', -, hnewOf⟩ := hr.rowOf_of_mem hrow
      obtain rfl := Value.text.inj (hnewOf.sysId.symm.trans hrowOf.sysId)
      obtain ⟨root, hroot, hrootOf⟩ := hr.exists_rowOf hnumbered.default_mem
      exact ⟨root, .inl ⟨hname, hroot⟩, hrootOf⟩
    · exact absurd hname (htable t' ht' set hset)

/-- What a record brings to all tables is coherent. -/
theorem stored (hfree : s.CollisionFree) (ht : t ∈ s.allTables) (hr : r.Describes t codes)
    (hnumbered : r.Numbered default) :
    Coherent s codes default fun name row => row ∈ r.stored name := by
  have hrecord := ofRecord hfree ht hr hnumbered fun _ hset => hset
  rw [← hr.table_eq, ← hr.columns_eq] at hrecord
  have hsame : (fun name row => row ∈ r.stored name) = fun name row =>
      (name = r.table ∧ row ∈ r.rows.map (Row.ofCells r.columns)) ∨
        ∃ set ∈ r.edges, name = set.linkTable ∧
          row ∈ set.rows.map (Row.ofCells LinkTable.columns) := by
    funext name row
    exact propext RecordRows.mem_stored
  rwa [hsame]

end

end Contents.Coherent

/-! ## Namespaces -/

/-- Two namespaces have the same query functions, views and locales. -/
structure Namespace.Beside (n origin : Namespace) : Prop where
  functions : n.functions = origin.functions
  views : n.views = origin.views
  locales : n.tables.get? localesTable = origin.tables.get? localesTable

/-- A namespace stands beside itself. -/
theorem Namespace.Beside.refl (n : Namespace) : n.Beside n := ⟨rfl, rfl, rfl⟩

/-- A namespace with other contents stands beside the same. -/
theorem Namespace.Beside.mirror {s : Schema} {base n origin : Namespace} {contents : Contents}
    (h : base.Beside origin) (hmirror : Mirror s base n contents) (hfree : s.CollisionFree) :
    n.Beside origin :=
  ⟨hmirror.functions.trans h.functions, hmirror.views.trans h.views,
    (hmirror.others _ hfree.locales_notMem).trans h.locales⟩

/-- A namespace with another token stands beside the same. -/
theorem Namespace.Beside.saveToken {base base' origin : Namespace} {token : String}
    (h : base.Beside origin) (hsave : base.saveToken token = .ok base') : base'.Beside origin := by
  obtain ⟨t, -, hsave⟩ := bind_eq_ok.1 hsave
  obtain rfl := pure_eq_ok.1 hsave
  have hne : localesTable ≠ syncTokenTable := by decide
  exact ⟨h.functions, h.views, (SortedMap.get?_insert_of_ne _ _ hne).trans h.locales⟩

/-- A schema was set up in the namespace, beside the functions, views and locales of another one, and
its tables hold coherent contents. -/
def Namespace.Coherent (n origin : Namespace) (s : Schema) (codes : List String)
    (default : String) : Prop :=
  ∃ base contents, s.Installed base ∧ base.Beside origin ∧ Mirror s base n contents ∧
    contents.Coherent s codes default

/-- What every piece of a batch that goes through keeps, the batch keeps. -/
theorem Namespace.applyAll_flatMap_preserves {α : Type} {P : Namespace → Prop}
    {statements : α → List Statement} {xs : List α}
    (step : ∀ n x n', x ∈ xs → P n → n.applyAll (statements x) = .ok n' → P n') {n n' : Namespace}
    (h : P n) (hrun : n.applyAll (xs.flatMap statements) = .ok n') : P n' := by
  induction xs generalizing n with
  | nil => exact pure_eq_ok.1 hrun ▸ h
  | cons x xs ih =>
    rw [List.flatMap_cons] at hrun
    obtain ⟨n₁, hfirst, hrest⟩ := applyAll_append.1 hrun
    exact ih (fun n y n' hy => step n y n' (List.mem_cons_of_mem _ hy))
      (step n x n₁ (List.mem_cons_self ..) h hfirst) hrest

section
variable {s : Schema} {codes : List String} {default : String} {base n n' origin : Namespace}
  {contents : Contents} {ns : Ident} {t : TableLayout} {r : RecordRows}

/-- The rows of a record in its table are the given ones. -/
def Contents.HasRecord (contents : Contents) (t : TableLayout) (r : RecordRows) : Prop :=
  ∀ row, contents t.name row ∧ row.cell Column.sysId = .text r.sysId ↔
    row ∈ r.rows.map (Row.ofCells t.columns)

/-- The rows of a record may be put in place of those that it had. -/
theorem Mirror.coherent_rowStatements (h : Mirror s base n contents) (hfree : s.CollisionFree)
    (hbase : s.Installed base) (hcoherent : contents.Coherent s codes default)
    (ht : t ∈ s.allTables) (hr : r.Describes t codes) (hnumbered : r.Numbered default)
    (hrun : n.applyAll [.upsert ⟨ns, r.table⟩ r.columns r.rows Column.id,
      .delete ⟨ns, r.table⟩ (.and [.textEq Column.sysId.text r.sysId,
        .noneOf ⟨Column.locale, .text⟩ (r.locales.map .text)])] = .ok n') :
    ∃ contents', Mirror s base n' contents' ∧ contents'.Coherent s codes default ∧
      contents'.HasRecord t r := by
  rw [hr.table_eq, hr.columns_eq] at hrun
  obtain ⟨n₁, hupsert, hrun⟩ := Namespace.applyAll_cons.1 hrun
  obtain ⟨n₂, hdelete, hrun⟩ := Namespace.applyAll_cons.1 hrun
  obtain rfl := pure_eq_ok.1 hrun
  obtain ⟨_, hupsert', h₁⟩ :=
    h.upsert hfree (Schema.mem_contentTables_of_table ht) hr.rows_fit hr.rows_nodup
  obtain rfl := Except.ok.inj (hupsert'.symm.trans hupsert)
  have h₁ : Mirror s base _ fun name row =>
      (name = t.name ∧ row ∈ r.rows.map (Row.ofCells t.columns)) ∨
        contents name row ∧ (name = t.name → ∀ new ∈ r.rows.map (Row.ofCells t.columns),
          row.cell Column.id ≠ new.cell Column.id) := h₁.congr fun name _ row => by
    by_cases hname : name = t.name
    · subst hname
      simp
    · simp [hname]
  obtain ⟨_, hdelete', h₂⟩ := h₁.deleteRecords hfree hbase ht _
  obtain rfl := Except.ok.inj (hdelete'.symm.trans hdelete)
  refine ⟨_, h₂, (hcoherent.upsert hfree ht hr hnumbered).deleteRecords hfree ht ?_,
    fun row => ⟨?_, fun hrow => ⟨⟨.inl ⟨rfl, hrow⟩, fun _ => ?_, fun hname => ?_⟩, ?_⟩⟩⟩
  · intro row root sysId locale hrowOf hrootOf _
    exact Bool.eq_false_iff.2 fun hholds =>
      ((Predicate.holds_stale hrootOf).1 hholds).2 hnumbered.default_mem
  -- an old row of the record is stale, or a new row has its identity
  · rintro ⟨⟨⟨-, hrow⟩ | ⟨hrow, hids⟩, hkept, -⟩, hsys⟩
    · exact hrow
    · obtain ⟨_, locale, -, hrowOf⟩ := hcoherent.rows t ht row hrow
      obtain rfl := Value.text.inj (hrowOf.sysId.symm.trans hsys)
      have hlocale : locale ∈ r.locales := by
        by_contra hnot
        exact Bool.eq_false_iff.1 (hkept rfl) ((Predicate.holds_stale hrowOf).2 ⟨rfl, hnot⟩)
      obtain ⟨new, hnew, hnewOf⟩ := hr.exists_rowOf hlocale
      exact absurd (hrowOf.id.trans hnewOf.id.symm) (hids rfl new hnew)
  · obtain ⟨locale, hl, hrowOf⟩ := hr.rowOf_of_mem hrow
    exact Bool.eq_false_iff.2 fun hholds => ((Predicate.holds_stale hrowOf).1 hholds).2 hl
  · exact absurd hname (hfree.name_notMem_links ht)
  · obtain ⟨locale, -, hrowOf⟩ := hr.rowOf_of_mem hrow
    exact hrowOf.sysId

/-- Where the rows of a record stand, its edges may be put in place of those that it had. -/
theorem Mirror.coherent_edgeStatements (h : Mirror s base n contents) (hfree : s.CollisionFree)
    (hbase : s.Installed base) (hcoherent : contents.Coherent s codes default)
    (ht : t ∈ s.allTables) (hr : r.Describes t codes) (hnumbered : r.Numbered default)
    (hrecord : contents.HasRecord t r) {set : EdgeSet} (hset : set ∈ r.edges)
    (hrun : n.applyAll (Mapping.edgeStatements ns r.sysId set) = .ok n') :
    ∃ contents', Mirror s base n' contents' ∧ contents'.Coherent s codes default ∧
      contents'.HasRecord t r := by
  obtain ⟨l, hl, hname⟩ := hr.exists_link hset
  have hlink := Schema.mem_linkTables ht hl
  have hne := hfree.table_ne_link ht hlink
  obtain ⟨n₁, hdelete, h₁⟩ :=
    h.deleteEdges hfree hbase hlink (.textEq Column.ownerSysId.text r.sysId)
  have h₁ : Mirror s base n₁ fun name row => contents name row ∧
      (name = l.name → row.cell Column.ownerSysId ≠ .text r.sysId) :=
    h₁.congr fun name _ row => by rw [Bool.eq_false_iff, ne_eq, Predicate.holds_textEq]
  have hcoherent₁ := hcoherent.deleteEdges hfree hlink r.sysId
  have hrecord₁ : Contents.HasRecord (fun name row => contents name row ∧
      (name = l.name → row.cell Column.ownerSysId ≠ .text r.sysId)) t r := fun row => by
    rw [← hrecord row]
    simp [hne]
  unfold Mapping.edgeStatements at hrun
  obtain ⟨n₁', hdelete', hrun⟩ := Namespace.applyAll_cons.1 hrun
  obtain rfl : n₁ = n₁' := by
    rw [hname] at hdelete
    exact Except.ok.inj (hdelete.symm.trans hdelete')
  split at hrun
  · obtain rfl := pure_eq_ok.1 hrun
    exact ⟨_, h₁, hcoherent₁, hrecord₁⟩
  · obtain ⟨n₂, hinsert, hrun⟩ := Namespace.applyAll_cons.1 hrun
    obtain rfl := pure_eq_ok.1 hrun
    have hx : (set.linkTable, LinkTable.columns) ∈ s.contentTables :=
      hname ▸ Schema.mem_contentTables_of_link hlink
    have h₂ := h₁.of_insert hfree ⟨ns, set.linkTable⟩ hx (hr.edges_fit set hset) hinsert
    -- the rows of the record are there already
    have hthere (name : Ident) (row : Row) :
        name = t.name ∧ row ∈ r.rows.map (Row.ofCells t.columns) → contents name row ∧
          (name = l.name → row.cell Column.ownerSysId ≠ .text r.sysId) := by
      rintro ⟨rfl, hrow⟩
      exact ((hrecord₁ row).2 hrow).1
    have h₂ : Mirror s base n₂ fun name row =>
        ((name = t.name ∧ row ∈ r.rows.map (Row.ofCells t.columns)) ∨ ∃ set' ∈ [set],
          name = set'.linkTable ∧ row ∈ set'.rows.map (Row.ofCells LinkTable.columns)) ∨
        contents name row ∧ (name = l.name → row.cell Column.ownerSysId ≠ .text r.sysId) :=
      h₂.congr fun name _ row => by
        have := hthere name row
        simp only [List.mem_singleton, exists_eq_left]
        tauto
    refine ⟨_, h₂, (Contents.Coherent.ofRecord hfree ht hr hnumbered
      (List.forall_mem_singleton.2 hset)).or hcoherent₁, fun row => ?_⟩
    have := hthere t.name row
    rw [← hrecord₁ row]
    simp only [List.mem_singleton, exists_eq_left, ← hname, hne]
    tauto

/-- A record may be put in place of all that it had. -/
theorem Mirror.coherent_record (h : Mirror s base n contents) (hfree : s.CollisionFree)
    (hbase : s.Installed base) (hcoherent : contents.Coherent s codes default)
    (ht : t ∈ s.allTables) (hr : r.Describes t codes) (hnumbered : r.Numbered default)
    (hrun : n.applyAll (Mapping.recordStatements ns r) = .ok n') :
    ∃ contents', Mirror s base n' contents' ∧ contents'.Coherent s codes default ∧
      contents'.HasRecord t r := by
  obtain ⟨n₁, hrows, hedges⟩ := Namespace.applyAll_append.1 hrun
  refine Namespace.applyAll_flatMap_preserves
    (P := fun n => ∃ contents, Mirror s base n contents ∧ contents.Coherent s codes default ∧
      contents.HasRecord t r) (fun n set n' hset hn hstep => ?_)
    (h.coherent_rowStatements hfree hbase hcoherent ht hr hnumbered hrows) hedges
  obtain ⟨contents, hmirror, hcoherent, hrecord⟩ := hn
  exact hmirror.coherent_edgeStatements hfree hbase hcoherent ht hr hnumbered hrecord hset hstep

namespace Namespace.Coherent

/-- A record that is deleted leaves a namespace coherent. -/
theorem deleteRecord (h : n.Coherent origin s codes default) (hfree : s.CollisionFree)
    (ht : t ∈ s.allTables) {sysId : String}
    (hrun : n.apply (Mapping.deleteRecord ns t.name sysId) = .ok n') :
    n'.Coherent origin s codes default := by
  obtain ⟨base, contents, hbase, hbeside, hmirror, hcoherent⟩ := h
  obtain ⟨n₁, hdelete, hmirror'⟩ :=
    hmirror.deleteRecords hfree hbase ht (.textEq Column.sysId.text sysId)
  obtain rfl := Except.ok.inj (hdelete.symm.trans hrun)
  refine ⟨base, _, hbase, hbeside, hmirror', hcoherent.deleteRecords hfree ht ?_⟩
  intro row root sysId' locale hrowOf hrootOf hkept
  rw [Bool.eq_false_iff, ne_eq, Predicate.holds_textEq] at hkept ⊢
  rwa [hrootOf.sysId, ← hrowOf.sysId]

/-- Records that are deleted leave a namespace coherent. -/
theorem deleteAll (h : n.Coherent origin s codes default) (hfree : s.CollisionFree)
    {pairs : List (Ident × String)} (hpairs : ∀ pair ∈ pairs, ∃ t ∈ s.allTables, t.name = pair.1)
    (hrun : n.applyAll (pairs.map fun pair => Mapping.deleteRecord ns pair.1 pair.2) = .ok n') :
    n'.Coherent origin s codes default := by
  refine foldlM_preserves (P := fun n => n.Coherent origin s codes default)
    (fun n statement n' hstatement hn hstep => ?_) h hrun
  obtain ⟨pair, hpair, rfl⟩ := List.mem_map.1 hstatement
  obtain ⟨t, ht, hname⟩ := hpairs pair hpair
  rw [← hname] at hstep
  exact hn.deleteRecord hfree ht hstep

/-- A record that is brought up to date leaves a namespace coherent. -/
theorem record (h : n.Coherent origin s codes default) (hfree : s.CollisionFree)
    (ht : t ∈ s.allTables) (hr : r.Describes t codes) (hnumbered : r.Numbered default)
    (hrun : n.applyAll (Mapping.recordStatements ns r) = .ok n') :
    n'.Coherent origin s codes default := by
  obtain ⟨base, contents, hbase, hbeside, hmirror, hcoherent⟩ := h
  obtain ⟨contents', hmirror', hcoherent', -⟩ :=
    hmirror.coherent_record hfree hbase hcoherent ht hr hnumbered hrun
  exact ⟨base, contents', hbase, hbeside, hmirror', hcoherent'⟩

/-- A token that is stored leaves a namespace coherent. -/
theorem saveToken (h : n.Coherent origin s codes default) (hfree : s.CollisionFree)
    {token : String} (hrun : n.saveToken token = .ok n') : n'.Coherent origin s codes default := by
  obtain ⟨base, contents, hbase, hbeside, hmirror, hcoherent⟩ := h
  obtain ⟨n₁, base', hsave, hsaveBase, hbase', hmirror'⟩ := hmirror.saveToken hfree hbase token
  obtain rfl := Except.ok.inj (hsave.symm.trans hrun)
  exact ⟨base', contents, hbase', hbeside.saveToken hsaveBase, hmirror', hcoherent⟩

end Namespace.Coherent

end

end ContentReplica
