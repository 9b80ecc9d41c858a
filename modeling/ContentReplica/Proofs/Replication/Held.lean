import ContentReplica.Proofs.Replication.Statements

/-!
# The records that a namespace holds

`Replicated s codes base n held` says that a namespace holds exactly the given records, each with its
rows and edges, and is `base` apart from that. The records settle the namespace
(`Replicated.unique`). Bringing a record up to date sets it (`Replicated.record`), and deleting one
removes it (`Replicated.delete`), whatever was held before.
-/

namespace ContentReplica

/-- The records that are held, by table and identity. -/
abbrev Held := Ident → String → Option RecordRows

/-- The records with one of them set or removed. -/
def Held.set (held : Held) (table : Ident) (sysId : String) (r? : Option RecordRows) : Held :=
  fun table' sysId' => if table' = table ∧ sysId' = sysId then r? else held table' sysId'

/-- The rows that a record brings to a table, none if it is not held. -/
def Held.stored (held : Held) (table : Ident) (sysId : String) (name : Ident) : List Row :=
  match held table sysId with
  | some r => r.stored name
  | none => []

/-- The contents are those of the given records: what belongs to a record are its rows and edges. -/
structure Contents.Shows (s : Schema) (codes : List String) (held : Held) (contents : Contents) :
    Prop where
  regular : contents.Regular s codes
  describes : ∀ t ∈ s.allTables, ∀ sysId r, held t.name sysId = some r →
    r.Describes t codes ∧ r.sysId = sysId
  iff : ∀ t ∈ s.allTables, ∀ sysId name row, t.Owns sysId name row →
    (contents name row ↔ row ∈ held.stored t.name sysId name)

/-- The namespace holds the given records and is `base` apart from that. -/
def Replicated (s : Schema) (codes : List String) (base n : Namespace) (held : Held) : Prop :=
  ∃ contents, Mirror s base n contents ∧ contents.Shows s codes held

/-- A record that is set is the only one whose rows change. -/
theorem Held.stored_set (held : Held) (table table' : Ident) (sysId sysId' : String)
    (r? : Option RecordRows) (name : Ident) :
    (held.set table sysId r?).stored table' sysId' name =
      if table' = table ∧ sysId' = sysId then
        match r? with
        | some r => r.stored name
        | none => []
      else held.stored table' sysId' name := by
  unfold Held.stored Held.set
  by_cases h : table' = table ∧ sysId' = sysId
  · rw [if_pos h, if_pos h]
  · rw [if_neg h, if_neg h]

/-! ## Whose a row is -/

section
variable {s : Schema} {codes : List String}

/-- A row or edge belongs to one record. -/
theorem TableLayout.Owns.inj {t t' : TableLayout} {sysId sysId' : String} {name : Ident} {row : Row}
    (h : t.Owns sysId name row) (h' : t'.Owns sysId' name row) (hfree : s.CollisionFree)
    (ht : t ∈ s.allTables) (ht' : t' ∈ s.allTables) : t = t' ∧ sysId = sysId' := by
  rcases h with ⟨rfl, hsys⟩ | ⟨hlink, hsys⟩
  · rcases h' with ⟨hname, hsys'⟩ | ⟨hlink', -⟩
    · exact ⟨hfree.table_eq ht ht' hname, Value.text.inj (hsys.symm.trans hsys')⟩
    · obtain ⟨l, hl, he⟩ := List.mem_map.1 hlink'
      exact absurd he.symm (hfree.table_ne_link ht (Schema.mem_linkTables ht' hl))
  · obtain ⟨l, hl, rfl⟩ := List.mem_map.1 hlink
    rcases h' with ⟨hname, -⟩ | ⟨hlink', hsys'⟩
    · exact absurd hname.symm (hfree.table_ne_link ht' (Schema.mem_linkTables ht hl))
    · obtain ⟨l', hl', he⟩ := List.mem_map.1 hlink'
      exact ⟨hfree.owner_eq ht ht' hl hl' he.symm, Value.text.inj (hsys.symm.trans hsys')⟩

/-- A row of a table is that of a record in some locale, or one of its link tables has it as an edge
of the record. -/
def TableLayout.Keeps (t : TableLayout) (codes : List String) (sysId : String) (name : Ident)
    (row : Row) : Prop :=
  (name = t.name ∧ ∃ locale ∈ codes, RowOf sysId locale row) ∨
    (name ∈ t.linkTables.map LinkTable.name ∧
      ∃ locale ∈ codes, ∃ position, EdgeOf sysId locale position row)

namespace TableLayout.Keeps

variable {t t' : TableLayout} {sysId sysId' : String} {name : Ident} {row row' : Row}

/-- A row that is kept for a record belongs to it. -/
theorem owns (h : t.Keeps codes sysId name row) : t.Owns sysId name row := by
  rcases h with ⟨hname, locale, -, hrow⟩ | ⟨hlink, locale, -, position, hedge⟩
  · exact .inl ⟨hname, hrow.sysId⟩
  · exact .inr ⟨hlink, hedge.ownerSysId⟩

/-- A row that is kept has an identity. -/
theorem exists_id (h : t.Keeps codes sysId name row) : ∃ key, row.cell Column.id = .text key := by
  rcases h with ⟨-, locale, -, hrow⟩ | ⟨-, locale, -, position, hedge⟩
  · exact ⟨_, hrow.id⟩
  · exact ⟨_, hedge.id⟩

/-- The identity of a row settles the record that it is kept for. -/
theorem inj (h : t.Keeps codes sysId name row) (h' : t'.Keeps codes sysId' name row')
    (hfree : s.CollisionFree) (hcodes : Naming.Apart codes) (ht : t ∈ s.allTables)
    (ht' : t' ∈ s.allTables) (hid : row.cell Column.id = row'.cell Column.id) :
    t = t' ∧ sysId = sysId' := by
  rcases h with ⟨rfl, locale, hl, hrow⟩ | ⟨hlink, locale, hl, position, hedge⟩
  · rcases h' with ⟨hname, locale', hl', hrow'⟩ | ⟨hlink', -⟩
    · exact ⟨hfree.table_eq ht ht' hname,
        (hrow.inj hcodes hrow' hl hl' hid).1⟩
    · obtain ⟨l, hl, he⟩ := List.mem_map.1 hlink'
      exact absurd he.symm (hfree.table_ne_link ht (Schema.mem_linkTables ht' hl))
  · obtain ⟨l, hlt, rfl⟩ := List.mem_map.1 hlink
    rcases h' with ⟨hname, -⟩ | ⟨hlink', locale', hl', position', hedge'⟩
    · exact absurd hname.symm (hfree.table_ne_link ht' (Schema.mem_linkTables ht hlt))
    · obtain ⟨l', hlt', he⟩ := List.mem_map.1 hlink'
      have howner := (hedge.owner_inj hedge' hid).1
      exact ⟨hfree.owner_eq ht ht' hlt hlt' he.symm,
        (hcodes.rowId_inj hl hl' howner).1⟩

end TableLayout.Keeps

namespace RecordRows.Describes

variable {t : TableLayout} {r : RecordRows}

/-- What a record brings to a table is kept for it. -/
theorem keeps (hr : r.Describes t codes) {name : Ident} {row : Row} (h : row ∈ r.stored name) :
    t.Keeps codes r.sysId name row := by
  rcases RecordRows.mem_stored.1 h with ⟨hname, hrow⟩ | ⟨set, hset, hname, hrow⟩
  · rw [hr.columns_eq] at hrow
    obtain ⟨locale, hl, hrowOf⟩ := hr.rowOf_of_mem hrow
    exact .inl ⟨hname.trans hr.table_eq, locale, hr.locales_subset _ hl, hrowOf⟩
  · obtain ⟨values, hv, rfl⟩ := List.mem_map.1 hrow
    obtain ⟨locale, hl, position, hedge⟩ := hr.edgeOf set hset values hv
    obtain ⟨l, hlt, hlink⟩ := hr.exists_link hset
    exact .inr ⟨hname ▸ hlink ▸ List.mem_map_of_mem hlt, locale, hr.locales_subset _ hl, position,
      hedge⟩

/-- To its own table a record brings its rows. -/
theorem stored_table (hr : r.Describes t codes) (htable : t.name ∉ t.linkTables.map LinkTable.name) :
    r.stored t.name = r.rows.map (Row.ofCells t.columns) := by
  have hnone : r.edges.filter (fun set => set.linkTable = t.name) = [] := by
    refine List.filter_eq_nil_iff.2 fun set hset he => htable ?_
    rw [← of_decide_eq_true he, ← hr.links_eq]
    exact List.mem_map_of_mem hset
  unfold stored
  rw [if_pos hr.table_eq.symm, hnone, hr.columns_eq]
  exact List.append_nil _

/-- To any other table a record brings its edges there. -/
theorem stored_link (hr : r.Describes t codes) {name : Ident} (hname : name ≠ t.name) :
    r.stored name = (r.edges.filter fun set => set.linkTable = name).flatMap fun set =>
      set.rows.map (Row.ofCells LinkTable.columns) := by
  unfold stored
  rw [if_neg (hr.table_eq ▸ hname)]
  exact List.nil_append _

/-- What a record brings to a table has no identity twice. -/
theorem nodup_ids (hr : r.Describes t codes) (hlinks : (t.linkTables.map LinkTable.name).Nodup)
    (htable : t.name ∉ t.linkTables.map LinkTable.name) (name : Ident) :
    ((r.stored name).map fun row => row.cell Column.id).Nodup := by
  by_cases hname : name = t.name
  · rw [hname, hr.stored_table htable, List.map_map]
    exact hr.rows_nodup
  · rw [hr.stored_link hname, List.map_flatMap]
    refine List.nodup_flatMap.2 ⟨fun set hset => ?_, ?_⟩
    · rw [List.map_map]
      exact hr.edges_nodup set (List.mem_of_mem_filter hset)
    -- a record has one array of links for each link table
    · have hnames : r.edges.Pairwise fun a b => a.linkTable ≠ b.linkTable :=
        List.pairwise_map.1 (hr.links_eq ▸ hlinks)
      refine (hnames.filter _).imp_of_mem fun {a b} ha hb hne => absurd ?_ hne
      rw [of_decide_eq_true (List.mem_filter.1 ha).2, of_decide_eq_true (List.mem_filter.1 hb).2]

end RecordRows.Describes

/-- What stands in a table that holds content is kept for a record. -/
theorem Contents.Regular.keeps {contents : Contents} (h : contents.Regular s codes) {name : Ident}
    (hname : name ∈ s.contentTables.map Prod.fst) {row : Row} (hrow : contents name row) :
    ∃ t ∈ s.allTables, ∃ sysId, t.Keeps codes sysId name row := by
  obtain ⟨⟨_, columns⟩, hx, rfl⟩ := List.mem_map.1 hname
  rcases List.mem_append.1 hx with hx | hx
  · obtain ⟨t, ht, he⟩ := List.mem_map.1 hx
    cases he
    obtain ⟨sysId, locale, hl, hrowOf⟩ := h.rows t ht row hrow
    exact ⟨t, ht, sysId, .inl ⟨rfl, locale, hl, hrowOf⟩⟩
  · obtain ⟨l, hl, he⟩ := List.mem_map.1 hx
    cases he
    obtain ⟨t, ht, hl⟩ := List.mem_flatMap.1 hl
    have ht : t ∈ s.allTables := List.mem_append_left _ ht
    obtain ⟨sysId, locale, hlocale, position, hedge, -⟩ := h.edges t ht l hl row hrow
    exact ⟨t, ht, sysId, .inr ⟨List.mem_map_of_mem hl, locale, hlocale, position, hedge⟩⟩

/-! ## Contents and records -/

namespace Contents.Shows

variable {held : Held} {contents contents' : Contents}

/-- No rows show no records. -/
theorem empty : Contents.Shows s codes (fun _ _ => none) fun _ _ => False :=
  ⟨.empty, nofun, fun _ _ _ _ _ _ => ⟨nofun, fun h => absurd h List.not_mem_nil⟩⟩

/-- The records settle the rows of every table that holds content. -/
theorem unique (h : contents.Shows s codes held) (h' : contents'.Shows s codes held) {name : Ident}
    (hname : name ∈ s.contentTables.map Prod.fst) (row : Row) :
    contents name row ↔ contents' name row := by
  constructor
  · intro hrow
    obtain ⟨t, ht, sysId, hkeeps⟩ := h.regular.keeps hname hrow
    have howns := hkeeps.owns
    exact (h'.iff t ht sysId name row howns).2 ((h.iff t ht sysId name row howns).1 hrow)
  · intro hrow
    obtain ⟨t, ht, sysId, hkeeps⟩ := h'.regular.keeps hname hrow
    have howns := hkeeps.owns
    exact (h.iff t ht sysId name row howns).2 ((h'.iff t ht sysId name row howns).1 hrow)

/-- Without the rows of a record the record is not held. -/
theorem remove (h : contents.Shows s codes held) (hfree : s.CollisionFree) {t : TableLayout}
    (ht : t ∈ s.allTables) (sysId : String) :
    (contents.remove t sysId).Shows s codes (held.set t.name sysId none) := by
  refine ⟨h.regular.remove hfree ht sysId, fun t' ht' sysId' r hr => ?_,
    fun t' ht' sysId' name row howns => ?_⟩
  · unfold Held.set at hr
    split at hr
    · cases hr
    · exact h.describes t' ht' sysId' r hr
  unfold Contents.remove
  rw [Held.stored_set]
  by_cases hsame : t'.name = t.name ∧ sysId' = sysId
  · obtain rfl := hfree.table_eq ht' ht hsame.1
    obtain rfl := hsame.2
    rw [if_pos hsame]
    exact ⟨fun hrow => absurd howns hrow.2, fun hrow => absurd hrow List.not_mem_nil⟩
  · rw [if_neg hsame, ← h.iff t' ht' sysId' name row howns]
    refine and_iff_left fun howns' => hsame ?_
    obtain ⟨rfl, rfl⟩ := howns.inj howns' hfree ht' ht
    exact ⟨rfl, rfl⟩

/-- With the rows of a record in place of all that it had the record is held. -/
theorem put (h : contents.Shows s codes held) (hfree : s.CollisionFree) {t : TableLayout}
    (ht : t ∈ s.allTables) {r : RecordRows} (hr : r.Describes t codes) :
    (contents.put t r).Shows s codes (held.set t.name r.sysId (some r)) := by
  refine ⟨h.regular.put hfree ht hr, fun t' ht' sysId r' hr' => ?_,
    fun t' ht' sysId name row howns => ?_⟩
  · unfold Held.set at hr'
    split at hr'
    · next hsame =>
      cases hr'
      exact ⟨hfree.table_eq ht ht' hsame.1.symm ▸ hr, hsame.2.symm⟩
    · exact h.describes t' ht' sysId r' hr'
  have hothers := (h.remove hfree ht r.sysId).iff t' ht' sysId name row howns
  rw [Held.stored_set] at hothers ⊢
  unfold Contents.put
  by_cases hsame : t'.name = t.name ∧ sysId = r.sysId
  · rw [if_pos hsame] at hothers
    rw [if_pos hsame, hothers]
    exact or_iff_left List.not_mem_nil
  · rw [if_neg hsame] at hothers
    rw [if_neg hsame, hothers]
    refine or_iff_right fun hrow => hsame ?_
    obtain ⟨rfl, rfl⟩ := howns.inj (hr.keeps hrow).owns hfree ht' ht
    exact ⟨rfl, rfl⟩

end Contents.Shows

/-! ## Namespaces and records -/

namespace Replicated

variable {base n : Namespace} {held : Held}

/-- A schema that was set up holds no records. -/
theorem empty (h : s.Installed base) : Replicated s codes base base fun _ _ => none :=
  ⟨_, .empty h, .empty⟩

/-- The records that a namespace holds settle it. -/
theorem unique {n' : Namespace} (h : Replicated s codes base n held)
    (h' : Replicated s codes base n' held) : n = n' := by
  obtain ⟨contents, hmirror, hshows⟩ := h
  obtain ⟨contents', hmirror', hshows'⟩ := h'
  exact hmirror.unique (hmirror'.congr fun name hname row => hshows'.unique hshows hname row)

/-- A record that is brought up to date is held, whatever was held before. -/
theorem record (h : Replicated s codes base n held) (hfree : s.CollisionFree)
    (hbase : s.Installed base) (hcodes : Naming.Apart codes) (ns : Ident)
    {t : TableLayout} (ht : t ∈ s.allTables) {r : RecordRows} (hr : r.Describes t codes) :
    ∃ n', n.applyAll (Mapping.recordStatements ns r) = .ok n' ∧
      Replicated s codes base n' (held.set t.name r.sysId (some r)) := by
  obtain ⟨contents, hmirror, hshows⟩ := h
  obtain ⟨n', hrun, hmirror'⟩ :=
    hmirror.recordStatements hfree hbase hcodes hshows.regular ns ht hr
  exact ⟨n', hrun, _, hmirror', hshows.put hfree ht hr⟩

/-- A record that is deleted is not held. -/
theorem delete (h : Replicated s codes base n held) (hfree : s.CollisionFree)
    (hbase : s.Installed base) (hcodes : Naming.Apart codes) (ns : Ident)
    {t : TableLayout} (ht : t ∈ s.allTables) (sysId : String) :
    ∃ n', n.apply (Mapping.deleteRecord ns t.name sysId) = .ok n' ∧
      Replicated s codes base n' (held.set t.name sysId none) := by
  obtain ⟨contents, hmirror, hshows⟩ := h
  obtain ⟨n', hrun, hmirror'⟩ :=
    hmirror.deleteRecord hfree hbase hcodes hshows.regular ht sysId
  exact ⟨n', hrun, _, hmirror', hshows.remove hfree ht sysId⟩

/-- A token is stored beside the records. -/
theorem saveToken (h : Replicated s codes base n held) (hfree : s.CollisionFree)
    (hbase : s.Installed base) (token : String) :
    ∃ n' base', n.saveToken token = .ok n' ∧ base.saveToken token = .ok base' ∧
      s.Installed base' ∧ Replicated s codes base' n' held := by
  obtain ⟨contents, hmirror, hshows⟩ := h
  obtain ⟨n', base', hrun, hrunBase, hbase', hmirror'⟩ := hmirror.saveToken hfree hbase token
  exact ⟨n', base', hrun, hrunBase, hbase', _, hmirror', hshows⟩

end Replicated

end

end ContentReplica
