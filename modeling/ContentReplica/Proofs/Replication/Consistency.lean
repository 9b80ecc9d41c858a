import ContentReplica.Proofs.Replication.Coherence
import ContentReplica.Proofs.Replication.Cycle

/-!
# What every cycle keeps

The batches of news and of a bulk load keep a namespace coherent when they go through
(`Namespace.Coherent.pageBatch`, `Namespace.Coherent.copyBatches`), and a cycle that fails has applied
the batches of some pages or none. So a replica that was set up is coherent after any cycles, whatever
their pages, failures and stops (`Replica.consistent_of_reached`).
-/

namespace ContentReplica

/-! ## The records of pages -/

/-- The schema is a compiled one whose tables have names of their own, and the locales are those of a
valid space. -/
structure Mapping.WellFormed (m : Mapping) : Prop where
  compiled : m.schema.Compiled
  collisionFree : m.schema.CollisionFree
  codes_nodup : m.space.localeCodes.Nodup
  default_mem : m.default ∈ m.space.localeCodes

namespace Mapping

variable {m : Mapping}

/-- The mapping of a compiled schema and a valid space is well formed. -/
theorem wellFormed_of_ok {schema : Schema} {space : Space} (hm : Mapping.of schema space = .ok m)
    (hspace : space.validate = .ok ()) (hschema : schema.Compiled) (hfree : schema.CollisionFree) :
    m.schema = schema ∧ m.space = space ∧ m.WellFormed := by
  obtain ⟨d, hd, rfl⟩ := of_eq_ok.1 hm
  exact ⟨rfl, rfl, hschema, hfree, Space.nodup_localeCodes hspace, Space.default_mem_localeCodes hd⟩

/-- An entry that converts is a record of the table of its content type. -/
theorem WellFormed.entry (h : m.WellFormed) {e : Entry} {r : RecordRows}
    (hr : m.entryRows e = .ok r) : ∃ t ∈ m.schema.allTables,
      r.Describes t m.space.localeCodes ∧ r.Numbered m.default := by
  obtain ⟨t, ht, -, hdescribes⟩ :=
    describes_entryRows h.codes_nodup h.default_mem h.compiled.column_not_reserved hr
  exact ⟨t, List.mem_append_left _ (Schema.entryTable?_eq_some ht).1, hdescribes,
    numbered_entryRows h.default_mem hr⟩

/-- An asset is a record of the table of assets. -/
theorem WellFormed.asset (h : m.WellFormed) (a : Asset) : ∃ t ∈ m.schema.allTables,
    (m.assetRows a).Describes t m.space.localeCodes ∧ (m.assetRows a).Numbered m.default :=
  ⟨assetLayout, List.mem_append_right _ (List.mem_singleton.2 rfl),
    describes_assetRows h.codes_nodup a, numbered_assetRows h.default_mem a⟩

/-- The records of a page are records of tables of the schema. -/
theorem WellFormed.records (h : m.WellFormed) {p : SyncPage} {records : List RecordRows}
    (hp : m.pageRecords p = .ok records) : ∀ r ∈ records, ∃ t ∈ m.schema.allTables,
      r.Describes t m.space.localeCodes ∧ r.Numbered m.default := by
  obtain ⟨rows, hrows, hp⟩ := bind_eq_ok.1 hp
  obtain rfl := pure_eq_ok.1 hp
  intro r hr
  rcases List.mem_append.1 hr with hr | hr
  · obtain ⟨e, -, he⟩ := exists_of_mapM hrows hr
    exact h.entry he
  · obtain ⟨a, -, rfl⟩ := List.mem_map.1 hr
    exact h.asset a

end Mapping

/-! ## Batches -/

namespace Namespace.Coherent

variable {m : Mapping} {n n' origin : Namespace} {ns : Ident}

/-- The statements of an event leave a namespace coherent. -/
theorem event (h : n.Coherent origin m.schema m.space.localeCodes m.default) (hm : m.WellFormed)
    {event : FeedEvent} (hrun : n.applyAll (m.eventStatements ns event) = .ok n') :
    n'.Coherent origin m.schema m.space.localeCodes m.default := by
  cases event with
  | entry e =>
    unfold Mapping.eventStatements at hrun
    dsimp only at hrun
    split at hrun
    · next r hr =>
      obtain ⟨t, ht, hdescribes, hnumbered⟩ := hm.entry hr
      exact h.record hm.collisionFree ht hdescribes hnumbered hrun
    · exact pure_eq_ok.1 hrun ▸ h
  | asset a =>
    obtain ⟨t, ht, hdescribes, hnumbered⟩ := hm.asset a
    exact h.record hm.collisionFree ht hdescribes hnumbered hrun
  | deletion t =>
    have hpairs : m.eventStatements ns (.deletion t) = (((m.tombstoneTables? t).getD []).map
        (·, t.sysId)).map fun pair => Mapping.deleteRecord ns pair.1 pair.2 := by
      rw [List.map_map]
      rfl
    rw [hpairs] at hrun
    refine h.deleteAll hm.collisionFree (fun pair hpair => ?_) hrun
    obtain ⟨table, htable, rfl⟩ := List.mem_map.1 hpair
    exact Mapping.exists_table_of_tombstone htable

/-- The batch of a page leaves a namespace coherent. -/
theorem pageBatch (h : n.Coherent origin m.schema m.space.localeCodes m.default) (hm : m.WellFormed)
    {p : SyncPage} {batch : List Statement} (hbatch : m.pageBatch ns p = .ok batch)
    (hrun : n.applyAll batch = .ok n') : n'.Coherent origin m.schema m.space.localeCodes m.default := by
  obtain ⟨rfl, -⟩ := Mapping.pageBatch_eq hbatch
  obtain ⟨n₁, hevents, hlast⟩ := Namespace.applyAll_append.1 hrun
  obtain ⟨n₂, htoken, hdone⟩ := Namespace.applyAll_cons.1 hlast
  obtain rfl := pure_eq_ok.1 hdone
  have h₁ := Namespace.applyAll_flatMap_preserves
    (P := fun n => n.Coherent origin m.schema m.space.localeCodes m.default)
    (fun _ _ _ _ hn hstep => hn.event hm hstep) h hevents
  exact h₁.saveToken hm.collisionFree htoken

/-- The batches of several pages leave a namespace coherent. -/
theorem pageBatches (h : n.Coherent origin m.schema m.space.localeCodes m.default) (hm : m.WellFormed)
    {pages : List SyncPage} {batches : List (List Statement)}
    (hbatches : pages.mapM (m.pageBatch ns) = .ok batches)
    (hrun : n.applyAll batches.flatten = .ok n') :
    n'.Coherent origin m.schema m.space.localeCodes m.default := by
  rw [← List.flatMap_id] at hrun
  refine Namespace.applyAll_flatMap_preserves
    (P := fun n => n.Coherent origin m.schema m.space.localeCodes m.default)
    (fun n batch n' hbatch hn hstep => ?_) h hrun
  obtain ⟨p, -, hp⟩ := exists_of_mapM hbatches hbatch
  exact hn.pageBatch hm hp hstep

end Namespace.Coherent

/-! ## Batches of a bulk load -/

/-- Rows that were copied into several tables came to those that were there. -/
theorem Mirror.of_copyAll {s : Schema} {base : Namespace} (hfree : s.CollisionFree) {ns : Ident} :
    ∀ {items : List CopyItem} {n n' : Namespace} {contents : Contents}, Mirror s base n contents →
      (∀ item ∈ items, (item.1, item.2.1) ∈ s.contentTables ∧
        ∀ values ∈ item.2.2, FitsColumns item.2.1 values) →
      n.applyAll (items.filterMap fun item =>
        CopyState.copyStatement? ns item.1 item.2.1 item.2.2) = .ok n' →
      Mirror s base n' fun name row =>
        (∃ item ∈ items, name = item.1 ∧ row ∈ item.stored) ∨ contents name row := by
  intro items
  induction items with
  | nil =>
    intro n n' contents h _ hrun
    obtain rfl := pure_eq_ok.1 hrun
    exact h.congr fun _ _ _ => by simp
  | cons item items ih =>
    intro n n' contents h hitems hrun
    obtain ⟨⟨hx, hfit⟩, hrest⟩ := List.forall_mem_cons.1 hitems
    rw [List.filterMap_cons] at hrun
    have hsplit : ∃ n₁, Mirror s base n₁ (fun name row =>
          (name = item.1 ∧ row ∈ item.stored) ∨ contents name row) ∧
        n₁.applyAll (items.filterMap fun item =>
          CopyState.copyStatement? ns item.1 item.2.1 item.2.2) = .ok n' := by
      unfold CopyState.copyStatement? at hrun ⊢
      by_cases hempty : item.2.2.isEmpty = true
      · rw [if_pos hempty] at hrun
        refine ⟨n, h.congr fun name _ row => ?_, hrun⟩
        unfold CopyItem.stored
        rw [List.isEmpty_iff.1 hempty]
        simp
      · rw [if_neg hempty] at hrun
        obtain ⟨n₁, hinsert, hrun⟩ := Namespace.applyAll_cons.1 hrun
        exact ⟨n₁, h.of_insert hfree ⟨ns, item.1⟩ hx hfit hinsert, hrun⟩
    obtain ⟨n₁, h₁, hrun⟩ := hsplit
    refine (ih h₁ hrest hrun).congr fun name _ row => ?_
    simp only [List.mem_cons, or_and_right, exists_or, exists_eq_left, or_assoc]
    exact or_left_comm

/-- Only records of tables of the schema are kept in mind. -/
def ByRecord.Within (s : Schema) (copied : ByRecord Unit) : Prop :=
  ∀ table sysId, copied.has table sysId = true → ∃ t ∈ s.allTables, t.name = table

/-- Nothing is kept in mind at the start. -/
theorem ByRecord.Within.empty (s : Schema) : (ByRecord.empty : ByRecord Unit).Within s := by
  intro table sysId hhas
  rw [ByRecord.has_iff, ByRecord.get?_empty] at hhas
  obtain ⟨_, hnone⟩ := hhas
  cases hnone

namespace Mapping.WellFormed

variable {m : Mapping} {copied : ByRecord Unit} {p : SyncPage} {s : CopyState}

/-- What the work on a page keeps under a table and an identity is a record of the table with this
identity. -/
theorem copyState_kept (hm : m.WellFormed) (hs : m.copyState copied p = .ok s) {table : Ident}
    {sysId : String} {r : RecordRows} (hr : s.records.get? table sysId = some r) :
    r.table = table ∧ r.sysId = sysId ∧ ∃ t ∈ m.schema.allTables,
      r.Describes t m.space.localeCodes ∧ r.Numbered m.default := by
  obtain ⟨records, hrecords, hs⟩ := bind_eq_ok.1 hs
  obtain rfl := pure_eq_ok.1 hs
  rw [(CopyState.ofPage_spec copied records p.deletions table sysId).1] at hr
  split at hr
  · cases hr
  · obtain ⟨hmem, htable, hsys⟩ := (Held.setAll_eq_some hr).resolve_right nofun
    exact ⟨htable, hsys, hm.records hrecords r hmem⟩

/-- The work on a page keeps records that their tables describe. -/
theorem copyState_keeps (hm : m.WellFormed) (hs : m.copyState copied p = .ok s) :
    s.Keeps m.schema m.space.localeCodes := fun _ _ _ hr => by
  obtain ⟨htable, hsys, t, ht, hdescribes, -⟩ := hm.copyState_kept hs hr
  exact ⟨htable, hsys, t, ht, hdescribes⟩

/-- The work on a page takes up and keeps in mind records of tables of the schema only. -/
theorem copyState_within (hm : m.WellFormed) (hcopied : copied.Within m.schema)
    (hs : m.copyState copied p = .ok s) :
    s.stale.Within m.schema ∧ s.copiedAfter.Within m.schema := by
  have hkeeps := hm.copyState_keeps hs
  obtain ⟨records, hrecords, hs⟩ := bind_eq_ok.1 hs
  obtain rfl := pure_eq_ok.1 hs
  have hspec := CopyState.ofPage_spec copied records p.deletions
  refine ⟨fun table sysId hstale => hcopied table sysId ((hspec table sysId).2.2.1 hstale).1,
    fun table sysId hafter => ?_⟩
  unfold CopyState.copiedAfter at hafter
  rw [ByRecord.has_foldl_put, ByRecord.mem_ids, ByRecord.has_iff] at hafter
  rcases hafter with ⟨r, hr⟩ | hbefore
  · obtain ⟨htable, -, t, ht, hdescribes⟩ := hkeeps table sysId r hr
    exact ⟨t, ht, hdescribes.table_eq.symm.trans htable⟩
  · exact hcopied table sysId ((hspec table sysId).2.1.1 hbefore).1

end Mapping.WellFormed

namespace Namespace.Coherent

variable {m : Mapping} {n n' origin : Namespace} {ns : Ident} {copied : ByRecord Unit}

/-- The batch by which a bulk load copies a page leaves a namespace coherent. -/
theorem copyBatch (h : n.Coherent origin m.schema m.space.localeCodes m.default) (hm : m.WellFormed)
    (hcopied : copied.Within m.schema) {p : SyncPage} {s : CopyState}
    (hs : m.copyState copied p = .ok s) (hrun : n.applyAll (s.batch ns) = .ok n') :
    n'.Coherent origin m.schema m.space.localeCodes m.default := by
  have hfree := hm.collisionFree
  have hkeeps := hm.copyState_keeps hs
  obtain ⟨hstale, -⟩ := hm.copyState_within hcopied hs
  rw [CopyState.batch_eq] at hrun
  obtain ⟨n₁, hdelete, hcopy⟩ := Namespace.applyAll_append.1 hrun
  have hdeleted := h.deleteAll hfree (fun pair hpair =>
    hstale pair.1 pair.2 (ByRecord.mem_ids.1 hpair)) hdelete
  obtain ⟨base, contents, hbase, hbeside, hmirror, hcoherent⟩ := hdeleted
  have hcopied := hmirror.of_copyAll hfree (fun item hitem => by
    obtain ⟨hx, hfit, -⟩ := hkeeps.item_spec hfree hitem
    exact ⟨hx, hfit⟩) hcopy
  have hmirror' : Mirror m.schema base n' fun name row =>
      (∃ r : { r // r ∈ s.records.values }, row ∈ r.1.stored name) ∨ contents name row :=
    hcopied.congr fun name _ row => or_congr_left <| by
      rw [hkeeps.exists_item_iff hfree, Subtype.exists]
      exact exists_congr fun r => exists_prop.symm
  refine ⟨base, _, hbase, hbeside, hmirror', .or (.union fun r => ?_) hcoherent⟩
  obtain ⟨table, sysId, hr⟩ := ByRecord.mem_values.1 r.2
  obtain ⟨-, -, t, ht, hdescribes, hnumbered⟩ := hm.copyState_kept hs hr
  exact .stored hfree ht hdescribes hnumbered

/-- The batches by which a bulk load copies pages leave a namespace coherent. -/
theorem copyBatches (hm : m.WellFormed) :
    ∀ {pages : List SyncPage} {batches : List (List Statement)} {copied : ByRecord Unit}
      {n : Namespace}, n.Coherent origin m.schema m.space.localeCodes m.default →
      copied.Within m.schema → m.copyBatches ns copied pages = .ok batches →
      n.applyAll batches.flatten = .ok n' →
      n'.Coherent origin m.schema m.space.localeCodes m.default := by
  intro pages
  induction pages with
  | nil =>
    intro batches copied n h _ hbatches hrun
    cases hbatches
    exact pure_eq_ok.1 hrun ▸ h
  | cons p pages ih =>
    intro batches copied n h hcopied hbatches hrun
    obtain ⟨s, hs, hbatches⟩ := bind_eq_ok.1 hbatches
    obtain ⟨rest, hrest, hbatches⟩ := bind_eq_ok.1 hbatches
    obtain rfl := pure_eq_ok.1 hbatches
    obtain ⟨n₁, hfirst, hrun⟩ := Namespace.applyAll_append.1 hrun
    exact ih (h.copyBatch hm hcopied hs hfirst) (hm.copyState_within hcopied hs).2 hrest hrun

end Namespace.Coherent

/-! ## Consistent stores -/

/-- The row that a table has under a key. -/
def Store.row? (s : Store) (ns table : Ident) (key : String) : Option Row :=
  (s.database.table? ns table).bind fun t => t.rows.get? key

/-- The edges in a link table that a record has in a locale. -/
def Store.edges (s : Store) (ns link : Ident) (sysId locale : String) : List Row :=
  (s.rows ns link).filter fun row =>
    row.text? Column.ownerSysId == some sysId && row.text? Column.locale == some locale

/-- The tables of a replica fit together. -/
structure Replica.Consistent (r : Replica) (default : String) (s : Store) : Prop where
  /-- Every table stands. -/
  tables : ∀ name ∈ r.schema.contentTables.map Prod.fst,
    ∃ table, s.database.table? r.namespaceName name = some table
  /-- A row is stored under its identity, that of a record in a locale of the space. -/
  rows : ∀ t ∈ r.schema.allTables, ∀ key row, s.row? r.namespaceName t.name key = some row →
    ∃ sysId, ∃ locale ∈ r.space.localeCodes,
      key = Naming.rowId sysId locale ∧ RowOf sysId locale row
  /-- A record has one row in a locale. -/
  unique : ∀ t ∈ r.schema.allTables, ((s.rows r.namespaceName t.name).map fun row =>
    (row.cell Column.sysId, row.cell Column.locale)).Nodup
  /-- An edge is stored under its identity, and the row that owns it is there. -/
  edges : ∀ t ∈ r.schema.allTables, ∀ l ∈ t.linkTables, ∀ key row,
    s.row? r.namespaceName l.name key = some row →
      ∃ sysId, ∃ locale ∈ r.space.localeCodes, ∃ position target,
        key = Naming.rowId (Naming.rowId sysId locale) (toString position) ∧
        EdgeTo sysId locale position target row ∧
        ∃ owner, s.row? r.namespaceName t.name (Naming.rowId sysId locale) = some owner
  /-- The edges of a record in a locale are numbered from zero without a gap. -/
  positions : ∀ l ∈ r.schema.linkTables, ∀ sysId locale, ∃ count,
    ((s.edges r.namespaceName l.name sysId locale).map fun row => row.cell Column.position).Perm
      ((List.range count).map fun position : Nat => .int position)
  /-- A record has a row in the default locale, if locales can be told from identities. -/
  rooted : (∀ code ∈ r.space.localeCodes, '_' ∉ code.toList) → ∀ t ∈ r.schema.allTables,
    ∀ row ∈ s.rows r.namespaceName t.name, ∀ sysId, row.cell Column.sysId = .text sysId →
      ∃ root, s.row? r.namespaceName t.name (Naming.rowId sysId default) = some root ∧
        RowOf sysId default root

/-- Different numbers of which none is left out are those from zero on. -/
theorem perm_range_of_dense {ps : List Nat} (hnodup : ps.Nodup)
    (hdense : ∀ p ∈ ps, ∀ q < p, q ∈ ps) : ps.Perm (List.range ps.length) := by
  have hsubset : ps ⊆ List.range ps.length := by
    intro p hp
    have hbelow : List.range (p + 1) ⊆ ps := by
      intro q hq
      rcases Nat.lt_succ_iff_lt_or_eq.1 (List.mem_range.1 hq) with hq | rfl
      · exact hdense p hp q hq
      · exact hp
    have hlength := (List.subperm_of_subset List.nodup_range hbelow).length_le
    rw [List.length_range] at hlength
    exact List.mem_range.2 hlength
  exact (List.subperm_of_subset hnodup hsubset).perm_of_length_le (Nat.le_of_eq List.length_range)

/-- What stands for something element by element stands for a list. -/
theorem exists_map_eq {α β γ : Type} {f : α → γ} {g : β → γ} :
    ∀ {ys : List β}, (∀ y ∈ ys, ∃ x, f x = g y) → ∃ xs : List α, xs.map f = ys.map g
  | [], _ => ⟨[], rfl⟩
  | y :: ys, h => by
    obtain ⟨hy, hys⟩ := List.forall_mem_cons.1 h
    obtain ⟨x, hx⟩ := hy
    obtain ⟨xs, hxs⟩ := exists_map_eq hys
    exact ⟨x :: xs, by rw [List.map_cons, List.map_cons, hx, hxs]⟩

/-- Rows with different positions of which none is left out are numbered from zero on. -/
theorem perm_range_of_positions {rows : List Row} (hnodup : rows.Nodup)
    (hposition : ∀ row ∈ rows, ∃ p : Nat, .int p = row.cell Column.position)
    (hinj : ∀ row ∈ rows, ∀ row' ∈ rows,
      row.cell Column.position = row'.cell Column.position → row = row')
    (hdense : ∀ row ∈ rows, ∀ p : Nat, .int p = row.cell Column.position → ∀ q < p,
      ∃ row' ∈ rows, row'.cell Column.position = .int (q : Nat)) :
    ∃ count, (rows.map fun row => row.cell Column.position).Perm
      ((List.range count).map fun position : Nat => .int position) := by
  obtain ⟨ps, hps⟩ := exists_map_eq hposition
  have hmem : ∀ p, p ∈ ps ↔ ∃ row ∈ rows, row.cell Column.position = .int (p : Nat) := by
    intro p
    rw [← List.mem_map, ← hps, List.mem_map]
    constructor
    · exact fun hp => ⟨p, hp, rfl⟩
    · rintro ⟨q, hq, he⟩
      rwa [← Int.ofNat.inj (Value.int.inj he)]
  have hnodupPs : ps.Nodup :=
    .of_map (fun position : Nat => Value.int position) (hps ▸ hnodup.map_on hinj)
  refine ⟨ps.length, hps ▸ (perm_range_of_dense hnodupPs fun p hp q hq => ?_).map _⟩
  obtain ⟨row, hrow, hp⟩ := (hmem p).1 hp
  exact (hmem q).2 (hdense row hrow p hp.symm q hq)

section
variable {r : Replica} {default : String} {s : Store} {n : Namespace}

/-- A table that holds content, as the store has it. -/
theorem Mirror.table?_eq_some {schema : Schema} {base : Namespace} {contents : Contents}
    (h : Mirror schema base n contents) {ns : Ident} (hn : s.namespace? ns = some n) {name : Ident}
    {columns : List ColumnDef} (hx : (name, columns) ∈ schema.contentTables) :
    ∃ table, s.database.table? ns name = some table ∧ table.Holds columns (contents name) ∧
      s.rows ns name = table.rows.values ∧
      ∀ key row, s.row? ns name key = some row ↔
        contents name row ∧ row.cell Column.id = .text key := by
  obtain ⟨table, htable, hold⟩ := h.tables name columns hx
  have hsome : s.database.table? ns name = some table :=
    Option.bind_eq_some_iff.2 ⟨n, hn, htable⟩
  refine ⟨table, hsome, hold, ?_, fun key row => ?_⟩
  · unfold Store.rows
    rw [hsome]
  · unfold Store.row?
    rw [hsome]
    exact hold.get?_iff key row

/-- Rows of one table with the same identity are the same. -/
theorem Table.Holds.inj_id {t : Table} {columns : List ColumnDef} {rows : Row → Prop}
    (h : t.Holds columns rows) {row row' : Row} (hrow : row ∈ t.rows.values)
    (hrow' : row' ∈ t.rows.values) (hid : row.cell Column.id = row'.cell Column.id) :
    row = row' := by
  obtain ⟨hrow, key, hkey⟩ := h.mem_values.1 hrow
  obtain ⟨hrow', -⟩ := h.mem_values.1 hrow'
  have hget := (h.get?_iff key row).2 ⟨hrow, hkey⟩
  have hget' := (h.get?_iff key row').2 ⟨hrow', hid.symm.trans hkey⟩
  exact Option.some.inj (hget.symm.trans hget')

/-- The edges of a record in a locale are numbered from zero on where the contents are coherent. -/
theorem Mirror.positions {schema : Schema} {codes : List String} {base : Namespace}
    {contents : Contents} (h : Mirror schema base n contents)
    (hcoherent : contents.Coherent schema codes default) {ns : Ident}
    (hn : s.namespace? ns = some n) {t : TableLayout} (ht : t ∈ schema.allTables) {l : LinkTable}
    (hl : l ∈ t.linkTables) (sysId locale : String) :
    ∃ count, ((s.edges ns l.name sysId locale).map fun row => row.cell Column.position).Perm
      ((List.range count).map fun position : Nat => .int position) := by
  have hlink := Schema.mem_linkTables ht hl
  obtain ⟨table, -, hold, hrows, -⟩ :=
    h.table?_eq_some hn (Schema.mem_contentTables_of_link hlink)
  have hmem : ∀ row, row ∈ s.edges ns l.name sysId locale ↔
      contents l.name row ∧ ∃ position target, EdgeTo sysId locale position target row := by
    intro row
    unfold Store.edges
    rw [hrows, List.mem_filter, hold.mem_values, Bool.and_eq_true, beq_iff_eq, beq_iff_eq,
      Row.text?_eq_some, Row.text?_eq_some]
    constructor
    · rintro ⟨⟨hrow, -⟩, hsys, hlocale⟩
      obtain ⟨_, _, -, position, target, hedge, -⟩ := hcoherent.edges t ht l hl row hrow
      obtain rfl := Value.text.inj (hsys.symm.trans hedge.ownerSysId)
      obtain rfl := Value.text.inj (hlocale.symm.trans hedge.locale)
      exact ⟨hrow, position, target, hedge⟩
    · rintro ⟨hrow, position, target, hedge⟩
      exact ⟨⟨hrow, _, hedge.id⟩, hedge.ownerSysId, hedge.locale⟩
  have hvalues : ∀ row ∈ s.edges ns l.name sysId locale, row ∈ table.rows.values := fun row hrow =>
    hrows ▸ List.mem_of_mem_filter hrow
  refine perm_range_of_positions ((hrows ▸ hold.nodup_values).filter _) (fun row hrow => ?_)
    (fun row hrow row' hrow' he => ?_) fun row hrow p hp q hq => ?_
  · obtain ⟨-, position, target, hedge⟩ := (hmem row).1 hrow
    exact ⟨position, hedge.position.symm⟩
  · obtain ⟨-, position, target, hedge⟩ := (hmem row).1 hrow
    obtain ⟨-, position', target', hedge'⟩ := (hmem row').1 hrow'
    rw [hedge.position, hedge'.position] at he
    obtain rfl := Int.ofNat.inj (Value.int.inj he)
    exact hold.inj_id (hvalues row hrow) (hvalues row' hrow') (hedge.id.trans hedge'.id.symm)
  · obtain ⟨hcontents, position, target, hedge⟩ := (hmem row).1 hrow
    rw [hedge.position] at hp
    obtain rfl := Int.ofNat.inj (Value.int.inj hp)
    obtain ⟨row', target', hrow', hedge'⟩ :=
      hcoherent.dense l hlink row hcontents sysId locale _ target hedge q hq
    exact ⟨row', (hmem row').2 ⟨hrow', q, target', hedge'⟩, hedge'.position⟩

/-- A coherent namespace is that of a consistent replica. -/
theorem Namespace.Coherent.replica {origin : Namespace}
    (h : n.Coherent origin r.schema r.space.localeCodes default)
    (hn : s.namespace? r.namespaceName = some n) : r.Consistent default s := by
  obtain ⟨base, contents, -, -, hmirror, hcoherent⟩ := h
  have htable {t : TableLayout} (ht : t ∈ r.schema.allTables) :=
    hmirror.table?_eq_some hn (Schema.mem_contentTables_of_table ht)
  refine ⟨fun name hname => ?_, fun t ht key row hrow => ?_, fun t ht => ?_,
    fun t ht l hl key row hrow => ?_, fun l hl sysId locale => ?_,
    fun hcodes t ht row hrow sysId hsys => ?_⟩
  · obtain ⟨⟨_, columns⟩, hx, rfl⟩ := List.mem_map.1 hname
    obtain ⟨table, hsome, -⟩ := hmirror.table?_eq_some hn hx
    exact ⟨table, hsome⟩
  · obtain ⟨table, -, -, -, hget⟩ := htable ht
    obtain ⟨hrow, hid⟩ := (hget key row).1 hrow
    obtain ⟨sysId, locale, hlocale, hrowOf⟩ := hcoherent.rows t ht row hrow
    exact ⟨sysId, locale, hlocale, Value.text.inj (hid.symm.trans hrowOf.id), hrowOf⟩
  · obtain ⟨table, -, hold, hrows, -⟩ := htable ht
    rw [hrows]
    refine hold.nodup_values.map_on fun row hrow row' hrow' he => ?_
    obtain ⟨hsame, hsameLocale⟩ := Prod.mk.inj he
    obtain ⟨_, _, -, hrowOf⟩ := hcoherent.rows t ht row (hold.mem_values.1 hrow).1
    obtain ⟨_, _, -, hrowOf'⟩ := hcoherent.rows t ht row' (hold.mem_values.1 hrow').1
    obtain rfl := Value.text.inj (hrowOf.sysId.symm.trans (hsame.trans hrowOf'.sysId))
    obtain rfl := Value.text.inj (hrowOf.locale.symm.trans (hsameLocale.trans hrowOf'.locale))
    exact hold.inj_id hrow hrow' (hrowOf.id.trans hrowOf'.id.symm)
  · obtain ⟨-, -, -, -, hget⟩ := htable ht
    obtain ⟨-, -, -, -, hgetEdge⟩ := hmirror.table?_eq_some hn
      (Schema.mem_contentTables_of_link (Schema.mem_linkTables ht hl))
    obtain ⟨hrow, hid⟩ := (hgetEdge key row).1 hrow
    obtain ⟨sysId, locale, hlocale, position, target, hedge, owner, howner, hownerId⟩ :=
      hcoherent.edges t ht l hl row hrow
    exact ⟨sysId, locale, hlocale, position, target, Value.text.inj (hid.symm.trans hedge.id), hedge,
      owner, (hget _ owner).2 ⟨howner, hownerId⟩⟩
  · obtain ⟨t, ht, hl⟩ := List.mem_flatMap.1 hl
    exact hmirror.positions hcoherent hn (List.mem_append_left _ ht) hl sysId locale
  · obtain ⟨table, -, hold, hrows, hget⟩ := htable ht
    rw [hrows] at hrow
    have hcontents := (hold.mem_values.1 hrow).1
    obtain ⟨_, locale, -, hrowOf⟩ := hcoherent.rows t ht row hcontents
    obtain rfl := Value.text.inj (hrowOf.sysId.symm.trans hsys)
    obtain ⟨root, hroot, hrootOf⟩ := hcoherent.rooted hcodes t ht row hcontents _ locale hrowOf
    exact ⟨root, (hget _ root).2 ⟨hroot, hrootOf.id⟩, hrootOf⟩

end

/-! ## Cycles -/

/-- The stores that a replica is led to: its namespace is set up where there was none, cycles and bulk
loads follow with any configuration, source, failures and stops, and other things may happen to the
store outside the namespace. -/
inductive Replica.Reached (r : Replica) : Store → Prop
  | setUp {s created : Store} {ddl : List Statement} :
    r.schema.ddl r.namespaceName r.space = .ok ddl → s.hasNamespace r.namespaceName = false →
    s.execute ddl = (.ok (), created) → Reached r created
  | run (config : SyncConfig) (signal : Signal) {w : World} : Reached r w.store →
    Reached r ((Engine.mk r config).run signal w).world.store
  | bulkLoad (config : SyncConfig) (signal : Signal) (start : Moment) {w : World} :
    Reached r w.store → Reached r ((Engine.mk r config).bulkLoad signal start w).world.store
  | elsewhere {s s' : Store} : Reached r s →
    s'.namespace? r.namespaceName = s.namespace? r.namespaceName → Reached r s'

namespace Engine

variable {e : Engine} {m : Mapping} {w : World} {n origin : Namespace}

/-- After a load, successful or not, the namespace is coherent if it was before. -/
theorem load_coherent (hm : Mapping.of e.schema e.space = .ok m) (hwell : m.WellFormed)
    (h : n.Coherent origin m.schema m.space.localeCodes m.default)
    (hn : w.store.namespace? e.namespaceName = some n) (signal : Signal) (save : Bool)
    (start : Moment) :
    ∃ n', (e.load signal save start w).world.store.namespace? e.namespaceName = some n' ∧
      n'.Coherent origin m.schema m.space.localeCodes m.default := by
  unfold Store.namespace? at hn ⊢
  obtain ⟨-, ⟨err, -, hdatabase⟩ | ⟨report, m', token, batches, -, hm', -, hbatches, happly⟩⟩ :=
    e.load_cases signal save start w
  · rw [hdatabase]
    exact ⟨n, hn, h⟩
  · obtain rfl := Except.ok.inj (hm.symm.trans hm')
    obtain ⟨n', hrun, hn'⟩ :=
      Database.exists_namespace_of_applyAll hn (load_local hbatches save token) happly
    refine ⟨n', hn', ?_⟩
    obtain ⟨n₁, hcopied, hclosing⟩ := Namespace.applyAll_append.1 hrun
    have h₁ := Namespace.Coherent.copyBatches hwell h (.empty _) hbatches hcopied
    unfold closing at hclosing
    split at hclosing
    · obtain ⟨n₂, htoken, hdone⟩ := Namespace.applyAll_cons.1 hclosing
      obtain rfl := pure_eq_ok.1 hdone
      exact h₁.saveToken hwell.collisionFree htoken
    · exact pure_eq_ok.1 hclosing ▸ h₁

/-- After a cycle of news, successful or not, the namespace is coherent if it was before. -/
theorem delta_coherent (hm : Mapping.of e.schema e.space = .ok m) (hwell : m.WellFormed)
    (h : n.Coherent origin m.schema m.space.localeCodes m.default)
    (hn : w.store.namespace? e.namespaceName = some n) (signal : Signal) (token : String)
    (start : Moment) :
    ∃ n', (e.delta signal token start w).world.store.namespace? e.namespaceName = some n' ∧
      n'.Coherent origin m.schema m.space.localeCodes m.default := by
  obtain ⟨applied, batches, -, -, hbatches, happly, -⟩ := e.delta_cases signal token start w
  obtain ⟨n', hrun, hn'⟩ := Database.exists_namespace_of_applyAll hn (fun statement hs => by
    obtain ⟨batch, hbatch, hs⟩ := List.mem_flatten.1 hs
    obtain ⟨p, -, hp⟩ := exists_of_mapM hbatches hbatch
    exact Replica.pageBatch_local hp statement hs) happly
  have hsame : e.pageBatch = m.pageBatch e.namespaceName := by
    funext p
    unfold Replica.pageBatch
    rw [hm]
    rfl
  rw [hsame] at hbatches
  exact ⟨n', hn', h.pageBatches hwell hbatches hrun⟩

end Engine

/-- A replica of a valid space with a compiled schema whose tables have names of their own is consistent
in every store that it is led to, whatever became of its cycles: every row stands under its identity,
no edge is without its owner, the edges of a record in a locale are numbered without a gap, and, if
no locale code holds the separator, every record has a row in the default locale. -/
theorem Replica.consistent_of_reached {r : Replica} {s : Store} (h : r.Reached s)
    (hspace : r.space.validate = .ok ()) (hschema : r.schema.Compiled)
    (hfree : r.schema.CollisionFree) :
    ∃ default, r.space.defaultLocale = .ok default ∧ r.Consistent default.code s := by
  obtain ⟨default, hdefault⟩ := Space.exists_defaultLocale hspace
  have hm : Mapping.of r.schema r.space = .ok ⟨r.schema, r.space, default.code⟩ :=
    bind_eq_ok.2 ⟨default, hdefault, rfl⟩
  obtain ⟨-, -, hwell⟩ := Mapping.wellFormed_of_ok hm hspace hschema hfree
  refine ⟨default, hdefault, ?_⟩
  suffices ∃ n origin, s.namespace? r.namespaceName = some n ∧
      n.Coherent origin r.schema r.space.localeCodes default.code by
    obtain ⟨n, origin, hn, hcoherent⟩ := this
    exact hcoherent.replica hn
  induction h with
  | setUp hddl hfresh hexecute =>
    obtain ⟨base, happly, hbase⟩ :=
      Schema.applyAll_ddl hfree hddl (SortedMap.contains_eq_false.1 hfresh)
    obtain ⟨-, happly', -⟩ := Store.execute_ok hexecute
    refine ⟨base, base, ?_, base, _, hbase, .refl base, .empty hbase, .empty⟩
    unfold Store.namespace?
    rw [← Except.ok.inj (happly.symm.trans happly')]
    exact Database.get?_withNamespace_self ..
  | @run config signal w _ ih =>
    obtain ⟨n, origin, hn, hcoherent⟩ := ih
    cases htoken : w.store.syncToken? r.namespaceName with
    | none =>
      rw [Engine.run_of_none (e := ⟨r, config⟩) htoken]
      obtain ⟨n', hn', hcoherent'⟩ :=
        Engine.load_coherent (e := ⟨r, config⟩) hm hwell hcoherent hn signal true .start
      exact ⟨n', origin, hn', hcoherent'⟩
    | some token =>
      rw [Engine.run_of_some (e := ⟨r, config⟩) htoken]
      obtain ⟨n', hn', hcoherent'⟩ :=
        Engine.delta_coherent (e := ⟨r, config⟩) hm hwell hcoherent hn signal token .start
      exact ⟨n', origin, hn', hcoherent'⟩
  | @bulkLoad config signal start w _ ih =>
    obtain ⟨n, origin, hn, hcoherent⟩ := ih
    obtain ⟨n', hn', hcoherent'⟩ :=
      Engine.load_coherent (e := ⟨r, config⟩) hm hwell hcoherent hn signal false start
    exact ⟨n', origin, hn', hcoherent'⟩
  | elsewhere _ hsame ih =>
    rw [hsame]
    exact ih

namespace Catalog

/-- The namespace of the catalog after a cycle that loads a product with two tags, and one that
fails. -/
def settled : Store :=
  let page := (SyncPage.empty (.done "first")).withEntry taggedProduct
  let loaded := engine.run .never ⟨{ source with answers := [.ok page] }, setUp⟩
  (engine.run .never
    ⟨{ source with answers := [.error (.internal "unreachable")] }, loaded.world.store⟩).world.store

end Catalog

/-- The catalog is consistent after a load and a failed cycle, with two edges of one product. -/
theorem Replica.consistent_of_reached_catalog :
    Catalog.engine.toReplica.Consistent Catalog.english Catalog.settled ∧
      (Catalog.settled.edges Catalog.namespaceName ⟨"con_product_tags"⟩ "p1"
        Catalog.english).length = 2 := by
  obtain ⟨ddl, hddl, hsetUp⟩ := Catalog.exists_setUp
  have hreached : Catalog.engine.toReplica.Reached Catalog.settled :=
    .run {} .never (.run {} .never (.setUp hddl rfl hsetUp))
  obtain ⟨default, hdefault, hconsistent⟩ := consistent_of_reached hreached
    (show Catalog.space.validate = .ok () from rfl) (.all Catalog.types rfl) Catalog.collisionFree
  have hcode : Catalog.space.defaultLocale.map Locale.code = .ok Catalog.english := rfl
  rw [show Catalog.space.defaultLocale = .ok default from hdefault] at hcode
  rw [Except.ok.inj hcode] at hconsistent
  exact ⟨hconsistent, by decide +kernel⟩

end ContentReplica
