import ContentReplica.Proofs.Replication.About
import ContentReplica.Proofs.Replication.BulkLoad

/-!
# What a bulk load copies of one table

A bulk load keeps records in mind by table and identity, and a tombstone drops its identity from all
tables. Where no tombstone has the identity of a record of a table that it does not name
(`SyncPage.Spares`), what a bulk load does to the table and its link tables is what it does with the
parts of the pages about the table (`Namespace.Coherent.copyBatches_about`).
-/

namespace ContentReplica

/-! ## One table of many -/

/-- Of a map in key order only one entry counts, if the others give nothing. -/
theorem SortedMap.flatMap_entries_eq {κ α β : Type} [Ord κ] [Std.TransOrd κ] [Std.LawfulEqOrd κ]
    {m : SortedMap κ α} {k : κ} {f : κ × α → List β} (h : ∀ e ∈ m.entries, e.1 ≠ k → f e = []) :
    m.entries.flatMap f = ((m.get? k).map fun v => f (k, v)).getD [] := by
  cases hget : m.get? k with
  | none =>
    refine List.flatMap_eq_nil_iff.2 fun e he => h e he ?_
    rintro rfl
    rw [(mem_entries_iff m e).1 he] at hget
    cases hget
  | some v =>
    obtain ⟨before, after, hentries⟩ := List.append_of_mem ((mem_entries_iff m (k, v)).2 hget)
    have hnodup : (m.entries.map Prod.fst).Nodup := m.nodup_keys
    rw [hentries, List.map_append, List.map_cons] at hnodup
    have hother : ∀ e ∈ before ++ after, f e = [] := by
      intro e he
      have hmem : e ∈ m.entries := by
        rw [hentries]
        simp only [List.mem_append, List.mem_cons] at he ⊢
        tauto
      refine h e hmem fun hkey => ?_
      have hnotMem := (List.nodup_middle.1 hnodup).notMem
      rw [← List.map_append] at hnotMem
      exact hnotMem (List.mem_map.2 ⟨e, he, hkey⟩)
    have hbefore : before.flatMap f = [] :=
      List.flatMap_eq_nil_iff.2 fun e he => hother e (List.mem_append_left _ he)
    have hafter : after.flatMap f = [] :=
      List.flatMap_eq_nil_iff.2 fun e he => hother e (List.mem_append_right _ he)
    rw [hentries, List.flatMap_append, List.flatMap_cons, hbefore, hafter, List.append_nil]
    rfl

/-- What some of a list give is what tells of itself that one of them gave it. -/
theorem flatMap_filter_eq {α β : Type} {f : α → List β} {p : α → Bool} {q : β → Bool} {xs : List α}
    (h : ∀ x ∈ xs, ∀ y ∈ f x, q y = p x) : (xs.filter p).flatMap f = (xs.flatMap f).filter q := by
  induction xs with
  | nil => rfl
  | cons x xs ih =>
    obtain ⟨hx, hxs⟩ := List.forall_mem_cons.1 h
    rw [List.filter_cons, List.flatMap_cons, List.filter_append, ← ih hxs]
    cases hp : p x with
    | true =>
      have hall : (f x).filter q = f x := List.filter_eq_self.2 fun y hy => (hx y hy).trans hp
      rw [if_pos rfl, List.flatMap_cons, hall]
    | false =>
      have hnone : (f x).filter q = [] := List.filter_eq_nil_iff.2 fun y hy => by
        rw [hx y hy, hp]
        exact Bool.false_ne_true
      rw [if_neg Bool.false_ne_true, hnone, List.nil_append]

namespace ByRecord

variable {α β : Type} {m m' : ByRecord α} {table : Ident}

/-- The part of what is kept that belongs to one table is all that is kept in another map. -/
def PartOf (table : Ident) (m' m : ByRecord α) : Prop :=
  ∀ name sysId, m'.get? name sysId = if name = table then m.get? name sysId else none

/-- What is kept for the records of a table. -/
def row (m : ByRecord α) (table : Ident) : SortedMap String α := (m.tables.get? table).getD .empty

/-- A record is looked up in its table. -/
theorem get?_row (m : ByRecord α) (table : Ident) (sysId : String) :
    (m.row table).get? sysId = m.get? table sysId := by
  unfold row get?
  cases m.tables.get? table with
  | none => exact SortedMap.get?_empty _
  | some records => rfl

/-- The part of one table has the records of this table. -/
theorem PartOf.row_eq (h : PartOf table m' m) : m'.row table = m.row table := by
  refine SortedMap.ext_get? fun sysId => ?_
  rw [get?_row, get?_row, h table sysId, if_pos rfl]

/-- What is listed of a map, table by table, is for one table what is listed of its part. -/
theorem PartOf.flatMap_eq (h : PartOf table m' m) {f : Ident × SortedMap String α → List β}
    (hempty : ∀ name, f (name, .empty) = []) {p : β → Bool}
    (hp : ∀ name records, m.tables.get? name = some records →
      ∀ x ∈ f (name, records), (p x = true ↔ name = table)) :
    m'.tables.entries.flatMap f = (m.tables.entries.flatMap f).filter p := by
  have hrow (m : ByRecord α) : ((m.tables.get? table).map fun records => f (table, records)).getD []
      = f (table, m.row table) := by
    unfold row
    cases m.tables.get? table with
    | none => exact (hempty table).symm
    | some records => rfl
  have hpart : m'.tables.entries.flatMap f = f (table, m'.row table) := by
    rw [SortedMap.flatMap_entries_eq (k := table), hrow]
    intro e he hne
    have hnone : e.2 = .empty := by
      refine SortedMap.ext_get? fun sysId => ?_
      have hget := h e.1 sysId
      rw [if_neg hne] at hget
      unfold get? at hget
      rw [(SortedMap.mem_entries_iff _ _).1 he, Option.bind_some] at hget
      rw [hget, SortedMap.get?_empty]
    obtain ⟨name, records⟩ := e
    obtain rfl : records = .empty := hnone
    exact hempty name
  have hall : (m.tables.entries.flatMap f).filter p = f (table, m.row table) := by
    have hp' (e : Ident × SortedMap String α) (he : e ∈ m.tables.entries) :
        ∀ x ∈ f e, (p x = true ↔ e.1 = table) := hp e.1 e.2 ((SortedMap.mem_entries_iff _ _).1 he)
    rw [List.filter_flatMap, SortedMap.flatMap_entries_eq (k := table)]
    · rw [← hrow]
      cases hget : m.tables.get? table with
      | none => rfl
      | some records =>
        exact List.filter_eq_self.2 fun x hx => (hp table records hget x hx).2 rfl
    · intro e he hne
      exact List.filter_eq_nil_iff.2 fun x hx hpx => hne ((hp' e he x hx).1 hpx)
  rw [hpart, hall, h.row_eq]

/-- The records of a part are those of its table. -/
theorem PartOf.ids_eq (h : PartOf table m' m) : m'.ids = m.ids.filter (·.1 = table) := by
  refine h.flatMap_eq (f := fun e => e.2.keys.map (e.1, ·)) (fun _ => rfl) fun name records _ x hx => ?_
  obtain ⟨sysId, -, rfl⟩ := List.mem_map.1 hx
  exact decide_eq_true_iff

/-- What is kept in a part is what is kept of its table. -/
theorem PartOf.values_eq (h : PartOf table m' m) {key : α → Ident}
    (hkey : ∀ name sysId x, m.get? name sysId = some x → key x = name) :
    m'.values = m.values.filter (key · = table) := by
  have hvalues (m : ByRecord α) : m.values = m.tables.entries.flatMap fun e => e.2.values := by
    unfold values
    rw [SortedMap.values, List.flatMap_map]
  rw [hvalues, hvalues]
  refine h.flatMap_eq (fun _ => rfl) fun name records hget x hx => ?_
  obtain ⟨sysId, hsys⟩ := SortedMap.mem_values.1 hx
  have hkept : m.get? name sysId = some x := by
    unfold get?
    rw [hget]
    exact hsys
  rw [decide_eq_true_iff, hkey name sysId x hkept]

/-- In a part something is kept for the records of its table for which something is kept. -/
theorem PartOf.has_iff (h : PartOf table m' m) (name : Ident) (sysId : String) :
    m'.has name sysId = true ↔ name = table ∧ m.has name sysId = true := by
  unfold has
  rw [h name sysId]
  by_cases hname : name = table <;> simp [hname]

/-- Notes are a part of others if they are made of the records of one table. -/
theorem partOf_of_has {m m' : ByRecord Unit}
    (h : ∀ name sysId, m'.has name sysId = true ↔ name = table ∧ m.has name sysId = true) :
    PartOf table m' m := by
  intro name sysId
  have hsame := h name sysId
  unfold has at hsame
  cases hx : m.get? name sysId <;> cases hx' : m'.get? name sysId <;> simp_all

end ByRecord

/-! ## Pages that spare a table -/

namespace SyncPage

/-- The identities of the records that a page delivers. -/
def ids (p : SyncPage) : List String := p.entries.map (·.sys.id) ++ p.assets.map (·.sys.id)

/-- The tombstones of a page that do not name the records of a table have none of the identities that
another page delivers to it. -/
def Spares (t : TableLayout) (earlier p : SyncPage) : Prop :=
  ∀ d ∈ p.deletions, ¬ d.Names t → d.sysId ∉ (earlier.about t).ids

/-- The tombstones of pages that do not name the records of a table have none of the identities that
their own page or an earlier one delivers to it. -/
def AllSpare (t : TableLayout) (pages : List SyncPage) : Prop :=
  (∀ p ∈ pages, p.Spares t p) ∧ pages.Pairwise (Spares t)

instance (t : TableLayout) (earlier p : SyncPage) : Decidable (earlier.Spares t p) :=
  inferInstanceAs (Decidable (∀ d ∈ p.deletions, ¬ d.Names t → _))

instance (t : TableLayout) (pages : List SyncPage) : Decidable (AllSpare t pages) :=
  inferInstanceAs (Decidable ((∀ p ∈ pages, _) ∧ _))

end SyncPage

namespace Mapping.WellFormed

variable {m : Mapping} {t : TableLayout} {p : SyncPage} {records : List RecordRows}

/-- The records of a page have the identities that it delivers. -/
theorem mem_ids (hm : m.WellFormed) (hrecords : m.pageRecords p = .ok records) :
    ∀ r ∈ records, r.sysId ∈ p.ids := by
  obtain ⟨rows, hrows, hrecords⟩ := bind_eq_ok.1 hrecords
  obtain rfl := pure_eq_ok.1 hrecords
  intro r hr
  unfold SyncPage.ids
  rcases List.mem_append.1 hr with hr | hr
  · obtain ⟨e, he, hconverts⟩ := exists_of_mapM hrows hr
    obtain ⟨_, -, hsys, -⟩ := describes_entryRows hm.codes_nodup hm.default_mem
      hm.compiled.column_not_reserved hconverts
    exact List.mem_append_left _ (hsys ▸ List.mem_map_of_mem (List.mem_of_mem_filter he))
  · obtain ⟨a, ha, rfl⟩ := List.mem_map.1 hr
    exact List.mem_append_right _ (List.mem_map_of_mem ha)

/-- The records of a page in a table have the identities that it delivers to the table. -/
theorem mem_ids_about (hm : m.WellFormed) (ht : t ∈ m.schema.allTables)
    (hrecords : m.pageRecords p = .ok records) {r : RecordRows} (hr : r ∈ records)
    (htable : r.table = t.name) : r.sysId ∈ (p.about t).ids :=
  hm.mem_ids (hm.pageRecords_about ht hrecords) r
    (List.mem_filter.2 ⟨hr, decide_eq_true htable⟩)

end Mapping.WellFormed

/-! ## One page -/

/-- To set the records of one table is to set all, as far as this table goes. -/
theorem Held.setAll_filter (table : Ident) :
    ∀ {records : List RecordRows} {held held' : Held},
      (∀ name sysId, held' name sysId = if name = table then held name sysId else none) →
      ∀ name sysId, held'.setAll (records.filter (·.table = table)) name sysId
        = if name = table then held.setAll records name sysId else none := by
  intro records
  induction records with
  | nil => exact fun h => h
  | cons r records ih =>
    intro held held' h
    by_cases htable : r.table = table
    · rw [List.filter_cons_of_pos (by simpa using htable)]
      refine ih fun name sysId => ?_
      unfold Held.set
      by_cases hname : name = table <;> simp [h, hname, htable]
    · rw [List.filter_cons_of_neg (by simpa using htable)]
      refine ih fun name sysId => ?_
      unfold Held.set
      rw [h name sysId]
      by_cases hname : name = table
      · have hne : ¬ (name = r.table ∧ sysId = r.sysId) := fun he => htable (he.1.symm.trans hname)
        simp only [if_pos hname, if_neg hne]
      · rw [if_neg hname, if_neg hname]

namespace CopyState

/-- The work on a page is, for one table, the work on another page. -/
structure Part (table : Ident) (s' s : CopyState) : Prop where
  records : s'.records.PartOf table s.records
  stale : s'.stale.PartOf table s.stale
  copied : s'.copiedAfter.PartOf table s.copiedAfter

section
variable {t : TableLayout} {copied copied' : ByRecord Unit} {records : List RecordRows}
  {deletions : List Tombstone}

/-- Where a table had a record or gets one, the tombstones that name its records are all that count, if
the others have none of their identities. -/
theorem mem_tombstones_iff
    (hspared : ∀ d ∈ deletions, ¬ d.Names t → copied.has t.name d.sysId = false ∧
      ∀ r ∈ records, r.table = t.name → r.sysId ≠ d.sysId) {sysId : String}
    (hthere : copied.has t.name sysId = true ∨
      ∃ r, Held.setAll (fun _ _ => none) records t.name sysId = some r) :
    sysId ∈ (deletions.filter (·.Names t)).map Tombstone.sysId
      ↔ sysId ∈ deletions.map Tombstone.sysId := by
  constructor
  · exact fun h => ((List.filter_sublist ..).map _).subset h
  · intro h
    obtain ⟨d, hd, rfl⟩ := List.mem_map.1 h
    refine List.mem_map_of_mem (List.mem_filter.2 ⟨hd, decide_eq_true ?_⟩)
    by_contra hnames
    obtain ⟨hnone, hothers⟩ := hspared d hd hnames
    rcases hthere with hhas | ⟨r, hr⟩
    · rw [hnone] at hhas
      cases hhas
    · obtain ⟨hr, htable, hsys⟩ := (Held.setAll_eq_some hr).resolve_right nofun
      exact hothers r hr htable hsys

/-- The work on a page is, for a table, the work on its records there and the tombstones that name
them, if the other tombstones have none of their identities. -/
theorem part_of_page (hcopied : copied'.PartOf t.name copied)
    (hspared : ∀ d ∈ deletions, ¬ d.Names t → copied.has t.name d.sysId = false ∧
      ∀ r ∈ records, r.table = t.name → r.sysId ≠ d.sysId) :
    Part t.name
      ((ofRecords copied' (records.filter (·.table = t.name))).buryAll (deletions.filter (·.Names t)))
      ((ofRecords copied records).buryAll deletions) := by
  have hset : ∀ name sysId,
      Held.setAll (fun _ _ => none) (records.filter (·.table = t.name)) name sysId
        = if name = t.name then Held.setAll (fun _ _ => none) records name sysId else none :=
    Held.setAll_filter t.name fun _ _ => (ite_self none).symm
  have hspec := ofPage_spec copied records deletions
  have hspec' := ofPage_spec copied' (records.filter (·.table = t.name))
    (deletions.filter (·.Names t))
  have hrecords : ByRecord.PartOf t.name
      ((ofRecords copied' (records.filter (·.table = t.name))).buryAll
        (deletions.filter (·.Names t))).records
      ((ofRecords copied records).buryAll deletions).records := by
    intro name sysId
    rw [(hspec name sysId).1, (hspec' name sysId).1, hset name sysId]
    by_cases hname : name = t.name
    · subst hname
      rw [if_pos rfl, if_pos rfl]
      cases hr : Held.setAll (fun _ _ => none) records t.name sysId with
      | none => rw [ite_self, ite_self]
      | some r => exact if_congr (mem_tombstones_iff hspared (.inr ⟨r, hr⟩)) rfl rfl
    · rw [if_neg hname, if_neg hname, ite_self]
  refine ⟨hrecords, ByRecord.partOf_of_has fun name sysId => ?_,
    ByRecord.partOf_of_has fun name sysId => ?_⟩
  · rw [(hspec name sysId).2.2, (hspec' name sysId).2.2, hcopied.has_iff, hset name sysId, and_assoc]
    refine and_congr_right fun hname => and_congr_right fun hhas => ?_
    rw [if_pos hname]
    subst hname
    exact or_congr_right (mem_tombstones_iff hspared (.inl hhas))
  · unfold copiedAfter
    rw [ByRecord.has_foldl_put, ByRecord.has_foldl_put, ByRecord.mem_ids, ByRecord.mem_ids,
      (hspec name sysId).2.1, (hspec' name sysId).2.1, hrecords.has_iff, hcopied.has_iff,
      and_or_left, and_assoc]
    refine or_congr_right (and_congr_right fun hname => and_congr_right fun hhas => ?_)
    subst hname
    exact not_congr (mem_tombstones_iff hspared (.inl hhas))

end

/-! ## The batch of a page -/

section
variable {s s' : CopyState} {schema : Schema} {codes : List String} {t : TableLayout}

/-- What is copied into a table is what is copied of its part. -/
theorem Part.tableRows_eq {table : Ident} (h : s'.Part table s) :
    s'.tableRows = s.tableRows.filter (·.1 = table) := by
  unfold tableRows
  rw [List.filterMap_eq_flatMap_toList, List.filterMap_eq_flatMap_toList]
  refine h.records.flatMap_eq (fun _ => rfl) fun name records _ item hitem => ?_
  dsimp only at hitem
  split at hitem
  · cases hitem
  · obtain rfl := List.mem_singleton.1 hitem
    exact decide_eq_true_iff

/-- The table of a record that is kept describes it. -/
theorem Keeps.exists_describes (h : s.Keeps schema codes) {r : RecordRows}
    (hr : r ∈ s.records.values) : ∃ t ∈ schema.allTables, r.table = t.name ∧ r.Describes t codes := by
  obtain ⟨table, sysId, hget⟩ := ByRecord.mem_values.1 hr
  obtain ⟨-, -, t, ht, hdescribes⟩ := h table sysId r hget
  exact ⟨t, ht, hdescribes.table_eq, hdescribes⟩

/-- The arrays of links of a part are those in the link tables of its table. -/
theorem Part.edgeSets_eq (h : s'.Part t.name s) (hkeeps : s.Keeps schema codes)
    (hfree : schema.CollisionFree) (ht : t ∈ schema.allTables) :
    s'.edgeSets = s.edgeSets.filter fun set => t.scope.contains set.linkTable := by
  have hvalues : s'.records.values = s.records.values.filter (·.table = t.name) :=
    h.records.values_eq fun name sysId r hget => (hkeeps name sysId r hget).1
  unfold edgeSets
  rw [hvalues]
  refine flatMap_filter_eq fun r hr set hset => ?_
  obtain ⟨t', ht', htable, hdescribes⟩ := hkeeps.exists_describes hr
  obtain ⟨l, hl, hlink⟩ := hdescribes.exists_link hset
  have hgroup : set.linkTable ∈ t'.group :=
    List.mem_cons_of_mem _ (hlink ▸ List.mem_map_of_mem hl)
  rw [List.contains_eq_mem, decide_eq_decide, hfree.mem_scope_iff ht ht' hgroup, htable]
  exact ⟨congrArg _, hfree.table_eq ht' ht⟩

/-- What is copied into the link tables of a table is what is copied of its part. -/
theorem Part.linkRows_eq (h : s'.Part t.name s) (hkeeps : s.Keeps schema codes)
    (hfree : schema.CollisionFree) (ht : t ∈ schema.allTables) :
    s'.linkRows = s.linkRows.filter fun name _ => t.scope.contains name := by
  refine SortedMap.ext_get? fun name => ?_
  rw [SortedMap.get?_filter, get?_linkRows, get?_linkRows]
  unfold edgesInto
  rw [h.edgeSets_eq hkeeps hfree ht, List.filter_filter]
  by_cases hname : name ∈ t.scope
  · have hmem : name ∈ (s.edgeSets.filter fun set => t.scope.contains set.linkTable).map
        EdgeSet.linkTable ↔ name ∈ s.edgeSets.map EdgeSet.linkTable := by
      simp only [List.mem_map, List.mem_filter, List.contains_iff_mem, and_assoc]
      exact exists_congr fun set => and_congr_right fun _ =>
        ⟨fun he => he.2, fun he => ⟨he ▸ hname, he⟩⟩
    have hsame : (s.edgeSets.filter fun set =>
        decide (set.linkTable = name) && t.scope.contains set.linkTable)
        = s.edgeSets.filter fun set => set.linkTable = name := by
      refine List.filter_congr fun set _ => ?_
      by_cases he : set.linkTable = name <;> simp [he, hname]
    rw [hsame, List.contains_iff_mem.2 hname]
    by_cases hthere : name ∈ s.edgeSets.map EdgeSet.linkTable
    · rw [if_pos (hmem.2 hthere), if_pos hthere]
      rfl
    · rw [if_neg fun h => hthere (hmem.1 h), if_neg hthere]
      rfl
  · have hnone : name ∉ (s.edgeSets.filter fun set => t.scope.contains set.linkTable).map
        EdgeSet.linkTable := by
      intro hmem
      obtain ⟨set, hset, rfl⟩ := List.mem_map.1 hmem
      exact hname (List.contains_iff_mem.1 (List.mem_filter.1 hset).2)
    rw [if_neg hnone, List.contains_eq_mem, decide_eq_false hname]
    split <;> rfl

/-- What is copied goes into the group of a table. -/
theorem Keeps.exists_group (h : s.Keeps schema codes) (hfree : schema.CollisionFree)
    {item : CopyItem} (hitem : item ∈ s.items) : ∃ t ∈ schema.allTables, item.1 ∈ t.group := by
  rcases List.mem_append.1 hitem with hitem | hitem
  · obtain ⟨records, first, rest, hrecords, hvalues, -⟩ := mem_tableRows.1 hitem
    obtain ⟨t, ht, htable, -⟩ := h.exists_table hfree hrecords (hvalues ▸ List.cons_ne_nil _ _)
    exact ⟨t, ht, htable ▸ List.mem_cons_self ..⟩
  · obtain ⟨l, hl, hlink⟩ := h.exists_link (mem_linkItems.1 hitem).1
    obtain ⟨t, ht, hl⟩ := List.mem_flatMap.1 hl
    exact ⟨t, List.mem_append_left _ ht,
      List.mem_cons_of_mem _ (hlink ▸ List.mem_map_of_mem hl)⟩

/-- What is copied into a table and its link tables is what is copied of its part. -/
theorem Part.items_eq (h : s'.Part t.name s) (hkeeps : s.Keeps schema codes)
    (hfree : schema.CollisionFree) (ht : t ∈ schema.allTables) :
    s'.items = s.items.filter fun item => t.scope.contains item.1 := by
  have htables : s.tableRows.filter (·.1 = t.name)
      = s.tableRows.filter fun item => t.scope.contains item.1 := by
    refine List.filter_congr fun item hitem => ?_
    obtain ⟨records, first, rest, hrecords, hvalues, -⟩ := mem_tableRows.1 hitem
    obtain ⟨t', ht', htable, -⟩ :=
      hkeeps.exists_table hfree hrecords (hvalues ▸ List.cons_ne_nil _ _)
    rw [List.contains_eq_mem, decide_eq_decide, ← htable,
      hfree.mem_scope_iff ht ht' (List.mem_cons_self ..)]
    exact ⟨hfree.table_eq ht' ht, congrArg _⟩
  unfold items
  rw [h.tableRows_eq, htables, h.linkRows_eq hkeeps hfree ht, List.filter_append, List.filter_map]
  rfl

/-- The statements of the batch are each on the group of a table. -/
theorem Keeps.batch_on (h : s.Keeps schema codes) (hfree : schema.CollisionFree)
    (hstale : s.stale.Within schema) {triggers : SortedMap Ident (List Ident)}
    (htriggers : schema.Triggers triggers) (ns : Ident) :
    ∀ st ∈ s.batch ns, ∃ t ∈ schema.allTables, st.On triggers t := by
  intro st hst
  rw [batch_eq] at hst
  rcases List.mem_append.1 hst with hst | hst
  · obtain ⟨pair, hpair, rfl⟩ := List.mem_map.1 hst
    obtain ⟨t, ht, htable⟩ := hstale pair.1 pair.2 (ByRecord.mem_ids.1 hpair)
    exact ⟨t, ht, htable ▸ htriggers.deleteRecord ht pair.2⟩
  · obtain ⟨item, hitem, hst⟩ := List.mem_filterMap.1 hst
    obtain ⟨t, ht, hgroup⟩ := h.exists_group hfree hitem
    unfold copyStatement? at hst
    split at hst
    · cases hst
    · cases hst
      exact ⟨t, ht, rfl, List.forall_mem_singleton.2 hgroup⟩

/-- Of the batch of a page the scope of a table sees the batch of its part. -/
theorem Part.batch_eq (h : s'.Part t.name s) (hkeeps : s.Keeps schema codes)
    (hfree : schema.CollisionFree) (hstale : s.stale.Within schema)
    {triggers : SortedMap Ident (List Ident)} (htriggers : schema.Triggers triggers)
    (ht : t ∈ schema.allTables) (ns : Ident) :
    s'.batch ns = (s.batch ns).filter (·.Within triggers t.scope) := by
  rw [CopyState.batch_eq, CopyState.batch_eq, List.filter_append, h.stale.ids_eq,
    h.items_eq hkeeps hfree ht, List.filter_map]
  congr 1
  · refine congrArg _ (List.filter_congr fun pair hpair => decide_eq_decide.2 ?_)
    obtain ⟨t', ht', htable⟩ := hstale pair.1 pair.2 (ByRecord.mem_ids.1 hpair)
    have hon : (Mapping.deleteRecord ns pair.1 pair.2).On triggers t' :=
      htable ▸ htriggers.deleteRecord ht' pair.2
    rw [hon.within_iff hfree ht ht', ← htable]
    exact ⟨hfree.table_eq ht' ht, congrArg _⟩
  · rw [List.filterMap_eq_flatMap_toList, List.filterMap_eq_flatMap_toList]
    refine flatMap_filter_eq fun item _ st hst => ?_
    rw [Option.mem_toList] at hst
    unfold copyStatement? at hst
    split at hst
    · cases hst
    · cases hst
      rw [List.contains_eq_mem, decide_eq_decide]
      exact ⟨fun hwithin => hwithin.2 item.1 (List.mem_singleton.2 rfl),
        fun hname => ⟨rfl, List.forall_mem_singleton.2 hname⟩⟩

end

end CopyState

/-! ## All pages -/

section
variable {m : Mapping} {t : TableLayout} {ns : Ident} {p : SyncPage} {s : CopyState}
  {copied copied' : ByRecord Unit} {triggers : SortedMap Ident (List Ident)}

namespace Mapping.WellFormed

/-- Where its tombstones spare a table, the work on a page is, for the table, the work on the part of the
page about it. -/
theorem copyState_about (hm : m.WellFormed) (ht : t ∈ m.schema.allTables)
    (hcopied : copied'.PartOf t.name copied)
    (hbefore : ∀ d ∈ p.deletions, ¬ d.Names t → copied.has t.name d.sysId = false)
    (hspares : p.Spares t p) (hs : m.copyState copied p = .ok s) :
    ∃ s', m.copyState copied' (p.about t) = .ok s' ∧ s'.Part t.name s := by
  obtain ⟨records, hrecords, hs⟩ := bind_eq_ok.1 hs
  obtain rfl := pure_eq_ok.1 hs
  refine ⟨_, bind_eq_ok.2 ⟨_, hm.pageRecords_about ht hrecords, rfl⟩,
    CopyState.part_of_page hcopied fun d hd hnames => ⟨hbefore d hd hnames, ?_⟩⟩
  intro r hr htable hsys
  exact hspares d hd hnames (hsys ▸ hm.mem_ids_about ht hrecords hr htable)

/-- After a page a load keeps no record of a table in mind but those that it kept before and those that
the page delivers. -/
theorem mem_copiedAfter (hm : m.WellFormed) (ht : t ∈ m.schema.allTables)
    (hs : m.copyState copied p = .ok s) {sysId : String}
    (hafter : s.copiedAfter.has t.name sysId = true) :
    copied.has t.name sysId = true ∨ sysId ∈ (p.about t).ids := by
  obtain ⟨records, hrecords, hs⟩ := bind_eq_ok.1 hs
  obtain rfl := pure_eq_ok.1 hs
  obtain ⟨hkept, hbefore, -⟩ := CopyState.ofPage_spec copied records p.deletions t.name sysId
  unfold CopyState.copiedAfter at hafter
  rw [ByRecord.has_foldl_put, ByRecord.mem_ids, ByRecord.has_iff] at hafter
  rcases hafter with ⟨r, hr⟩ | hafter
  · rw [hkept] at hr
    split at hr
    · cases hr
    · obtain ⟨hmem, htable, rfl⟩ := (Held.setAll_eq_some hr).resolve_right nofun
      exact .inr (hm.mem_ids_about ht hrecords hmem htable)
  · exact .inl (hbefore.1 hafter).1

/-- The statements by which a bulk load copies pages are each on the group of a table. -/
theorem copyBatches_on (hm : m.WellFormed) (htriggers : m.schema.Triggers triggers) :
    ∀ {pages : List SyncPage} {copied : ByRecord Unit} {batches : List (List Statement)},
      copied.Within m.schema → m.copyBatches ns copied pages = .ok batches →
      ∀ st ∈ batches.flatten, ∃ t ∈ m.schema.allTables, st.On triggers t := by
  intro pages
  induction pages with
  | nil =>
    intro copied batches _ hbatches
    cases hbatches
    exact nofun
  | cons p pages ih =>
    intro copied batches hcopied hbatches
    obtain ⟨s, hs, hbatches⟩ := bind_eq_ok.1 hbatches
    obtain ⟨rest, hrest, hbatches⟩ := bind_eq_ok.1 hbatches
    obtain rfl := pure_eq_ok.1 hbatches
    obtain ⟨hstale, hafter⟩ := hm.copyState_within hcopied hs
    intro st hst
    rw [List.flatten_cons] at hst
    rcases List.mem_append.1 hst with hst | hst
    · exact (hm.copyState_keeps hs).batch_on hm.collisionFree hstale htriggers ns st hst
    · exact ih hafter hrest st hst

/-- Where tombstones spare a table, its scope sees of the batches that copy pages those that copy the
parts of the pages about the table. -/
theorem copyBatches_about (hm : m.WellFormed) (ht : t ∈ m.schema.allTables)
    (htriggers : m.schema.Triggers triggers) :
    ∀ {pages : List SyncPage} {copied copied' : ByRecord Unit} {batches : List (List Statement)},
      copied'.PartOf t.name copied → copied.Within m.schema →
      (∀ p ∈ pages, ∀ d ∈ p.deletions, ¬ d.Names t → copied.has t.name d.sysId = false) →
      SyncPage.AllSpare t pages → m.copyBatches ns copied pages = .ok batches →
      ∃ batches', m.copyBatches ns copied' (pages.map (·.about t)) = .ok batches' ∧
        batches'.flatten = batches.flatten.filter (·.Within triggers t.scope) := by
  intro pages
  induction pages with
  | nil =>
    intro copied copied' batches _ _ _ _ hbatches
    cases hbatches
    exact ⟨[], rfl, rfl⟩
  | cons p pages ih =>
    intro copied copied' batches hpart hcopied hbefore hspare hbatches
    obtain ⟨s, hs, hbatches⟩ := bind_eq_ok.1 hbatches
    obtain ⟨rest, hrest, hbatches⟩ := bind_eq_ok.1 hbatches
    obtain rfl := pure_eq_ok.1 hbatches
    obtain ⟨hown, hlater⟩ := hspare
    obtain ⟨hspares, hown⟩ := List.forall_mem_cons.1 hown
    obtain ⟨hearlier, hlater⟩ := List.pairwise_cons.1 hlater
    obtain ⟨hfirst, hothers⟩ := List.forall_mem_cons.1 hbefore
    obtain ⟨hstale, hafter⟩ := hm.copyState_within hcopied hs
    obtain ⟨s', hs', hsame⟩ := hm.copyState_about ht hpart hfirst hspares hs
    -- what this page delivered to the table is spared by the later pages too
    have hbefore' : ∀ q ∈ pages, ∀ d ∈ q.deletions, ¬ d.Names t →
        s.copiedAfter.has t.name d.sysId = false := by
      intro q hq d hd hnames
      refine Bool.eq_false_iff.2 fun hhas => ?_
      rcases hm.mem_copiedAfter ht hs hhas with hhas | hmem
      · rw [hothers q hq d hd hnames] at hhas
        cases hhas
      · exact hearlier q hq d hd hnames hmem
    obtain ⟨rest', hrest', hflatten⟩ := ih hsame.copied hafter hbefore' ⟨hown, hlater⟩ hrest
    refine ⟨s'.batch ns :: rest',
      bind_eq_ok.2 ⟨s', hs', bind_eq_ok.2 ⟨rest', hrest', rfl⟩⟩, ?_⟩
    rw [List.flatten_cons, List.flatten_cons, List.filter_append, hflatten,
      hsame.batch_eq (hm.copyState_keeps hs) hm.collisionFree hstale htriggers ht]

end Mapping.WellFormed

/-- Where tombstones spare a table, a bulk load brings to the table and its link tables what a bulk load
of the parts of its pages about the table brings. -/
theorem Namespace.Coherent.copyBatches_about {n n₁ origin : Namespace}
    (h : n.Coherent origin m.schema m.space.localeCodes m.default) (hm : m.WellFormed)
    (ht : t ∈ m.schema.allTables) {pages : List SyncPage} {batches : List (List Statement)}
    {closing : List Statement} (hspare : SyncPage.AllSpare t pages)
    (hbatches : m.copyBatches ns .empty pages = .ok batches)
    (hclosing : ∀ st ∈ closing, st.Within n.triggers t.scope)
    (hrun : n.applyAll (batches.flatten ++ closing) = .ok n₁) :
    ∃ batches' n₁', m.copyBatches ns .empty (pages.map (·.about t)) = .ok batches' ∧
      n.applyAll (batches'.flatten ++ closing) = .ok n₁' ∧
      n₁'.only t.scope = n₁.only t.scope := by
  have hnothing : (ByRecord.empty : ByRecord Unit).PartOf t.name .empty := by
    intro name sysId
    rw [ByRecord.get?_empty, ite_self]
  have hnone : ∀ p ∈ pages, ∀ d ∈ p.deletions, ¬ d.Names t →
      (ByRecord.empty : ByRecord Unit).has t.name d.sysId = false := fun _ _ _ _ _ => rfl
  obtain ⟨batches', hbatches', hflatten⟩ :=
    hm.copyBatches_about ht h.triggers hnothing (.empty _) hnone hspare hbatches
  have hsides : ∀ st ∈ batches.flatten ++ closing,
      st.Within n.triggers t.scope ∨ st.Beyond n.triggers t.scope := by
    intro st hst
    rcases List.mem_append.1 hst with hst | hst
    · obtain ⟨t', ht', hon⟩ := hm.copyBatches_on h.triggers (.empty _) hbatches st hst
      exact hon.side hm.collisionFree ht ht'
    · exact .inl (hclosing st hst)
  have hfilter : (batches.flatten ++ closing).filter (·.Within n.triggers t.scope)
      = batches'.flatten ++ closing := by
    have hall : closing.filter (·.Within n.triggers t.scope) = closing :=
      List.filter_eq_self.2 fun st hst => decide_eq_true (hclosing st hst)
    rw [List.filter_append, hflatten, hall]
  have hexcerpt := Namespace.applyAll_filter hsides hrun
  rw [hfilter] at hexcerpt
  have hwithin : ∀ st ∈ batches'.flatten ++ closing, st.Within n.triggers t.scope := by
    intro st hst
    rw [← hfilter] at hst
    exact of_decide_eq_true (List.mem_filter.1 hst).2
  obtain ⟨n₁', hrun', hsame⟩ := Namespace.exists_of_applyAll_only hwithin hexcerpt
  exact ⟨batches', n₁', hbatches', hrun', hsame⟩

end

end ContentReplica
