import ContentReplica.Proofs.Replication.Feed
import ContentReplica.Replication.Copy

/-!
# What a bulk load keeps in mind

A bulk load remembers only which records it copied. For one page, `CopyState.ofPage_spec` says which
records are to be copied, which are stale and which are copied afterwards, against the records that
the namespace holds before the page and those that it is to hold after it.

The tombstones of a page are taken to address every table. That agrees with the feed where each of
them addresses the table of every record that is held under its identity (`Mapping.after_deletions`).
-/

namespace ContentReplica

/-! ## Maps by record -/

namespace ByRecord

variable {α : Type} {m : ByRecord α} {table : Ident} {sysId : String}

/-- Nothing is kept in an empty map. -/
@[simp] theorem get?_empty : (empty : ByRecord α).get? table sysId = none := by
  unfold get? empty
  dsimp only
  rw [SortedMap.get?_empty]
  rfl

/-- What is kept after something was put in. -/
theorem get?_put (m : ByRecord α) (table : Ident) (sysId : String) (x : α) (table' : Ident)
    (sysId' : String) : (m.put table sysId x).get? table' sysId' =
      if table' = table ∧ sysId' = sysId then some x else m.get? table' sysId' := by
  unfold get? put
  dsimp only
  rw [SortedMap.get?_insert_eq]
  by_cases htable : table' = table
  · subst htable
    rw [if_pos rfl, Option.bind_some, SortedMap.get?_insert_eq]
    by_cases hsys : sysId' = sysId
    · rw [if_pos hsys, if_pos ⟨rfl, hsys⟩]
    · rw [if_neg hsys, if_neg fun h => hsys h.2]
      cases m.tables.get? table' with
      | none => exact SortedMap.get?_empty _
      | some records => rfl
  · rw [if_neg htable, if_neg fun h => htable h.1]

/-- Something is kept for a record when its look-up gives something. -/
theorem has_iff : m.has table sysId = true ↔ ∃ x, m.get? table sysId = some x :=
  Option.isSome_iff_exists

/-- What is kept after an identity was dropped. -/
theorem get?_drop (m : ByRecord α) (sysId : String) (table : Ident) (sysId' : String) :
    (m.drop sysId).get? table sysId' =
      if sysId' = sysId then none else m.get? table sysId' := by
  unfold get? drop
  dsimp only
  rw [SortedMap.get?_mapValues]
  cases m.tables.get? table with
  | none => exact (ite_self _).symm
  | some records =>
    rw [Option.map_some, Option.bind_some, Option.bind_some]
    by_cases hsys : sysId' = sysId
    · rw [if_pos hsys, hsys, SortedMap.get?_erase_self]
    · rw [if_neg hsys, SortedMap.get?_erase_of_ne _ hsys]

/-- The tables that keep something under an identity. -/
theorem mem_tablesOf : table ∈ m.tablesOf sysId ↔ m.has table sysId = true := by
  unfold tablesOf
  rw [SortedMap.mem_keys, has_iff]
  unfold get?
  constructor
  · rintro ⟨records, h⟩
    obtain ⟨h, hcontains⟩ := SortedMap.get?_filter_eq_some.1 h
    obtain ⟨x, hx⟩ := SortedMap.contains_eq_true.1 hcontains
    exact ⟨x, by rw [h, Option.bind_some, hx]⟩
  · rintro ⟨x, h⟩
    obtain ⟨records, hrecords, hx⟩ := Option.bind_eq_some_iff.1 h
    exact ⟨records, SortedMap.get?_filter_eq_some.2
      ⟨hrecords, SortedMap.contains_eq_true.2 ⟨x, hx⟩⟩⟩

/-- The records that something is kept for. -/
theorem mem_ids : (table, sysId) ∈ m.ids ↔ m.has table sysId = true := by
  unfold ids
  rw [List.mem_flatMap, has_iff]
  unfold get?
  constructor
  · rintro ⟨⟨table', records⟩, he, h⟩
    obtain ⟨sysId', hs, heq⟩ := List.mem_map.1 h
    cases heq
    obtain ⟨x, hx⟩ := SortedMap.mem_keys.1 hs
    exact ⟨x, by rw [(SortedMap.mem_entries_iff _ _).1 he, Option.bind_some, hx]⟩
  · rintro ⟨x, h⟩
    obtain ⟨records, hrecords, hx⟩ := Option.bind_eq_some_iff.1 h
    exact ⟨(table, records), (SortedMap.mem_entries_iff _ (table, records)).2 hrecords,
      List.mem_map.2 ⟨sysId, SortedMap.mem_keys.2 ⟨x, hx⟩, rfl⟩⟩

/-- What is kept after several records were noted. -/
theorem has_foldl_put {pairs : List (Ident × String)} :
    ∀ {m : ByRecord Unit}, (pairs.foldl (fun m p => m.put p.1 p.2 ()) m).has table sysId = true ↔
      (table, sysId) ∈ pairs ∨ m.has table sysId = true := by
  induction pairs with
  | nil => simp
  | cons p pairs ih =>
    intro m
    rw [List.foldl_cons, ih, List.mem_cons, has_iff, get?_put, Prod.ext_iff]
    by_cases h : table = p.1 ∧ sysId = p.2
    · simp [h]
    · simp [h, has_iff]

/-- What is kept, table by table. -/
def values (m : ByRecord α) : List α := m.tables.values.flatMap SortedMap.values

/-- What is kept is what the look-ups give. -/
theorem mem_values {x : α} : x ∈ m.values ↔ ∃ table sysId, m.get? table sysId = some x := by
  unfold values get?
  rw [List.mem_flatMap]
  constructor
  · rintro ⟨records, hr, hx⟩
    obtain ⟨table, htable⟩ := SortedMap.mem_values.1 hr
    obtain ⟨sysId, hsys⟩ := SortedMap.mem_values.1 hx
    exact ⟨table, sysId, by rw [htable, Option.bind_some, hsys]⟩
  · rintro ⟨table, sysId, h⟩
    obtain ⟨records, hrecords, hx⟩ := Option.bind_eq_some_iff.1 h
    exact ⟨records, SortedMap.mem_values.2 ⟨table, hrecords⟩, SortedMap.mem_values.2 ⟨sysId, hx⟩⟩

/-- No record is listed twice. -/
theorem nodup_ids (m : ByRecord α) : m.ids.Nodup := by
  have htables : m.tables.entries.Pairwise fun a b => a.1 ≠ b.1 :=
    List.pairwise_map.1 m.tables.nodup_keys
  refine List.nodup_flatMap.2 ⟨fun e _ => ?_, htables.imp fun {a b} hne => ?_⟩
  · exact e.2.nodup_keys.map fun _ _ he => congrArg Prod.snd he
  · intro p ha hb
    obtain ⟨_, -, rfl⟩ := List.mem_map.1 ha
    obtain ⟨_, -, he⟩ := List.mem_map.1 hb
    exact hne (congrArg Prod.fst he).symm

/-- What is kept under the table and identity that it has itself is listed like the records. -/
theorem map_values {key : α → Ident × String}
    (h : ∀ table sysId x, m.get? table sysId = some x → key x = (table, sysId)) :
    m.values.map key = m.ids := by
  unfold values ids SortedMap.values
  rw [List.map_flatMap, List.flatMap_map]
  refine List.flatMap_congr fun e he => ?_
  dsimp only [SortedMap.keys]
  rw [List.map_map, List.map_map]
  refine List.map_congr_left fun x hx => h e.1 x.1 x.2 ?_
  unfold get?
  rw [(SortedMap.mem_entries_iff _ _).1 he]
  exact (SortedMap.mem_entries_iff _ _).1 hx

end ByRecord

/-! ## One page -/

/-- The records with several of them set, the later of one identity in place of the earlier. -/
def Held.setAll (held : Held) (records : List RecordRows) : Held :=
  records.foldl (fun held r => held.set r.table r.sysId (some r)) held

/-- Of records that are set, those that are not among them stay. -/
theorem Held.setAll_eq {records : List RecordRows} {table : Ident} {sysId : String} :
    ∀ held : Held, held.setAll records table sysId
      = (Held.setAll (fun _ _ => none) records table sysId).or (held table sysId) := by
  induction records with
  | nil => exact fun _ => rfl
  | cons r records ih =>
    intro held
    have hcons (held : Held) : held.setAll (r :: records) table sysId
        = (Held.setAll (fun _ _ => none) records table sysId).or
          (held.set r.table r.sysId (some r) table sysId) := ih _
    rw [hcons, hcons, Option.or_assoc]
    unfold Held.set
    split <;> rfl

/-- A record that is held after several were set is one of them, or was held before. -/
theorem Held.setAll_eq_some {records : List RecordRows} {table : Ident} {sysId : String}
    {r : RecordRows} :
    ∀ {held : Held}, held.setAll records table sysId = some r →
      (r ∈ records ∧ r.table = table ∧ r.sysId = sysId) ∨ held table sysId = some r := by
  induction records with
  | nil => exact fun h => .inr h
  | cons first records ih =>
    intro held h
    have hrest : (held.set first.table first.sysId (some first)).setAll records table sysId
        = some r := h
    rcases ih hrest with ⟨hr, hkey⟩ | h
    · exact .inl ⟨List.mem_cons_of_mem _ hr, hkey⟩
    · unfold Held.set at h
      split at h
      · next hkey =>
        cases h
        exact .inl ⟨List.mem_cons_self .., hkey.1.symm, hkey.2.symm⟩
      · exact .inr h

/-- Under the identity of a record that was set something is held. -/
theorem Held.exists_setAll {records : List RecordRows} {r : RecordRows} (hr : r ∈ records) :
    ∀ held : Held, ∃ r', held.setAll records r.table r.sysId = some r' := by
  induction records with
  | nil => cases hr
  | cons first records ih =>
    intro held
    rcases List.mem_cons.1 hr with rfl | hr
    · have hset : (held.set r.table r.sysId (some r)) r.table r.sysId = some r :=
        if_pos ⟨rfl, rfl⟩
      change ∃ r', (held.set r.table r.sysId (some r)).setAll records r.table r.sysId = some r'
      rw [Held.setAll_eq, hset]
      cases Held.setAll (fun _ _ => none) records r.table r.sysId with
      | none => exact ⟨r, rfl⟩
      | some r' => exact ⟨r', rfl⟩
    · exact ih hr (held.set first.table first.sysId (some first))

/-- To set the records that are kept is to look them up before what was held. -/
theorem Held.setAll_values {m : ByRecord RecordRows}
    (h : ∀ table sysId r, m.get? table sysId = some r → r.table = table ∧ r.sysId = sysId)
    (held : Held) (table : Ident) (sysId : String) :
    held.setAll m.values table sysId = (m.get? table sysId).or (held table sysId) := by
  have hmem : ∀ r, r ∈ m.values → m.get? r.table r.sysId = some r := by
    intro r hr
    obtain ⟨table', sysId', hget⟩ := ByRecord.mem_values.1 hr
    obtain ⟨rfl, rfl⟩ := h table' sysId' r hget
    exact hget
  have hset {r : RecordRows} (hr : Held.setAll (fun _ _ => none) m.values table sysId = some r) :
      m.get? table sysId = some r := by
    obtain ⟨hvalue, rfl, rfl⟩ := (Held.setAll_eq_some hr).resolve_right nofun
    exact hmem r hvalue
  rw [Held.setAll_eq]
  congr 1
  cases hget : m.get? table sysId with
  | none =>
    cases hr : Held.setAll (fun _ _ => none) m.values table sysId with
    | none => rfl
    | some r => exact absurd (hget.symm.trans (hset hr)) nofun
  | some r =>
    obtain ⟨rfl, rfl⟩ := h table sysId r hget
    obtain ⟨r', hr'⟩ :=
      Held.exists_setAll (ByRecord.mem_values.2 ⟨_, _, hget⟩) fun _ _ => none
    rw [hr', ← hget, hset hr']

namespace CopyState

/-- The records of a page are kept, the last one of each identity. -/
theorem get?_foldl_put (records : List RecordRows) :
    ∀ m : ByRecord RecordRows,
      (records.foldl (fun m r => m.put r.table r.sysId r) m).get? = Held.setAll m.get? records := by
  induction records with
  | nil => exact fun _ => rfl
  | cons r records ih =>
    intro m
    have hput : (m.put r.table r.sysId r).get? = Held.set m.get? r.table r.sysId (some r) := by
      funext table sysId
      exact m.get?_put ..
    rw [List.foldl_cons, ih, hput]
    rfl

/-- After the records of a page: the last one of each identity is to be copied, and what was copied
before under its identity is stale. -/
theorem ofRecords_spec (copied : ByRecord Unit) (records : List RecordRows) (table : Ident)
    (sysId : String) :
    ((ofRecords copied records).records.get? table sysId
        = Held.setAll (fun _ _ => none) records table sysId) ∧
      (ofRecords copied records).copied = copied ∧
      ((ofRecords copied records).stale.has table sysId = true ↔
        (Held.setAll (fun _ _ => none) records table sysId).isSome ∧
          copied.has table sysId = true) := by
  have hempty : (ByRecord.empty : ByRecord RecordRows).get? = fun _ _ => none := by
    funext table sysId
    exact ByRecord.get?_empty
  have hget : (records.foldl (fun m r => m.put r.table r.sysId r) ByRecord.empty).get?
      = Held.setAll (fun _ _ => none) records := by
    rw [get?_foldl_put, hempty]
  refine ⟨congrFun (congrFun hget table) sysId, rfl, ?_⟩
  refine ByRecord.has_foldl_put.trans ?_
  have hnothing : ¬ (ByRecord.empty : ByRecord Unit).has table sysId = true := by
    rw [ByRecord.has_iff, ByRecord.get?_empty]
    exact nofun
  rw [List.mem_filter, ByRecord.mem_ids, ByRecord.has, hget]
  exact or_iff_left hnothing

/-- After the tombstones of a page: nothing under their identities is to be copied or copied any
more, and what was copied is stale. -/
theorem buryAll_spec (deletions : List Tombstone) (table : Ident) (sysId : String) :
    ∀ s : CopyState,
      ((s.buryAll deletions).records.get? table sysId
        = if sysId ∈ deletions.map Tombstone.sysId then none else s.records.get? table sysId) ∧
      ((s.buryAll deletions).copied.has table sysId = true ↔
        s.copied.has table sysId = true ∧ sysId ∉ deletions.map Tombstone.sysId) ∧
      ((s.buryAll deletions).stale.has table sysId = true ↔
        s.stale.has table sysId = true ∨
          s.copied.has table sysId = true ∧ sysId ∈ deletions.map Tombstone.sysId) := by
  induction deletions with
  | nil => exact fun s => ⟨by simp [buryAll], by simp [buryAll], by simp [buryAll]⟩
  | cons t deletions ih =>
    intro s
    obtain ⟨hrecords, hcopied, hstale⟩ := ih (s.bury t.sysId)
    have hburied : (s.bury t.sysId).copied.has table sysId = true ↔
        s.copied.has table sysId = true ∧ sysId ≠ t.sysId := by
      change (s.copied.drop t.sysId).has table sysId = true ↔ _
      rw [ByRecord.has_iff, ByRecord.has_iff, ByRecord.get?_drop]
      split <;> simp [*]
    have hburiedStale : (s.bury t.sysId).stale.has table sysId = true ↔
        s.stale.has table sysId = true ∨ s.copied.has table sysId = true ∧ sysId = t.sysId := by
      change ((s.copied.tablesOf t.sysId).foldl (fun m table => m.put table t.sysId ()) s.stale).has
        table sysId = true ↔ _
      have hpairs : (s.copied.tablesOf t.sysId).foldl (fun m table => m.put table t.sysId ()) s.stale
          = ((s.copied.tablesOf t.sysId).map (·, t.sysId)).foldl (fun m p => m.put p.1 p.2 ())
            s.stale := by rw [List.foldl_map]
      rw [hpairs, ByRecord.has_foldl_put, or_comm]
      refine or_congr_right ?_
      rw [List.mem_map]
      constructor
      · rintro ⟨table', h, he⟩
        cases he
        exact ⟨ByRecord.mem_tablesOf.1 h, rfl⟩
      · rintro ⟨h, rfl⟩
        exact ⟨table, ByRecord.mem_tablesOf.2 h, rfl⟩
    simp only [List.map_cons, List.mem_cons]
    refine ⟨?_, ?_, ?_⟩
    · change ((s.bury t.sysId).buryAll deletions).records.get? table sysId = _
      rw [hrecords]
      change (if _ then none else (s.records.drop t.sysId).get? table sysId) = _
      rw [ByRecord.get?_drop]
      by_cases h : sysId = t.sysId <;> simp [h]
    · change ((s.bury t.sysId).buryAll deletions).copied.has table sysId = true ↔ _
      rw [hcopied, hburied, not_or, and_assoc]
    · change ((s.bury t.sysId).buryAll deletions).stale.has table sysId = true ↔ _
      rw [hstale, hburied, hburiedStale]
      by_cases h : sysId = t.sysId <;> simp [h]

/-- After a page: the last record of each identity is to be copied unless a tombstone names it, what
was copied before is copied still unless a tombstone names it, and what was copied before is stale if
the page delivers it or a tombstone names it. -/
theorem ofPage_spec (copied : ByRecord Unit) (records : List RecordRows)
    (deletions : List Tombstone) (table : Ident) (sysId : String) :
    (((ofRecords copied records).buryAll deletions).records.get? table sysId
        = if sysId ∈ deletions.map Tombstone.sysId then none
          else Held.setAll (fun _ _ => none) records table sysId) ∧
      (((ofRecords copied records).buryAll deletions).copied.has table sysId = true ↔
        copied.has table sysId = true ∧ sysId ∉ deletions.map Tombstone.sysId) ∧
      (((ofRecords copied records).buryAll deletions).stale.has table sysId = true ↔
        copied.has table sysId = true ∧
          ((Held.setAll (fun _ _ => none) records table sysId).isSome ∨
            sysId ∈ deletions.map Tombstone.sysId)) := by
  obtain ⟨hrecords, hcopied, hstale⟩ :=
    buryAll_spec deletions table sysId (ofRecords copied records)
  obtain ⟨hpage, hsame, hagain⟩ := ofRecords_spec copied records table sysId
  rw [hpage] at hrecords
  rw [hsame] at hcopied hstale
  refine ⟨hrecords, hcopied, hstale.trans ?_⟩
  rw [hagain, and_or_left]
  exact or_congr_left and_comm

end CopyState

/-! ## The records after a page -/

section
variable {m : Mapping}

/-- The entries of a page set the records that they convert to. -/
theorem Mapping.Sound.after_entries (h : m.Sound) :
    ∀ {entries : List Entry} {records : List RecordRows},
      (entries.filter m.hasTable).mapM m.entryRows = .ok records → ∀ held : Held,
      m.after held (entries.map .entry) = held.setAll records := by
  intro entries
  induction entries with
  | nil =>
    intro records hr held
    rw [List.filter_nil, List.mapM_nil, pure_eq_ok] at hr
    subst hr
    rfl
  | cons e entries ih =>
    intro records hr held
    rw [List.map_cons, ← List.singleton_append, Mapping.after_append]
    by_cases htable : m.hasTable e
    · rw [List.filter_cons_of_pos htable, List.mapM_cons] at hr
      obtain ⟨r, he, hr⟩ := bind_eq_ok.1 hr
      obtain ⟨rest, hrest, hr⟩ := bind_eq_ok.1 hr
      obtain rfl := pure_eq_ok.1 hr
      have hpayload : m.payloadRows? (.entry e) = some r := by
        change (m.entryRows e).toOption = some r
        rw [he]
        rfl
      rw [h.after_payload hpayload, ih hrest]
      rfl
    · rw [List.filter_cons_of_neg htable] at hr
      rw [(Mapping.after_skipped (Bool.eq_false_iff.2 htable) held ⟨""⟩).1, ih hr]

/-- The assets of a page set their records. -/
theorem Mapping.Sound.after_assets (h : m.Sound) (assets : List Asset) :
    ∀ held : Held, m.after held (assets.map .asset) = held.setAll (assets.map m.assetRows) := by
  induction assets with
  | nil => exact fun _ => rfl
  | cons a assets ih =>
    intro held
    rw [List.map_cons, ← List.singleton_append, Mapping.after_append, h.after_payload rfl, ih]
    rfl

/-- Tombstones that address the table of every record held under their identities remove all that is
held under these. -/
theorem Mapping.after_deletions (deletions : List Tombstone) :
    ∀ held : Held, (∀ t ∈ deletions, ∀ table r, held table t.sysId = some r →
        table ∈ (m.tombstoneTables? t).getD []) →
      ∀ table sysId, m.after held (deletions.map .deletion) table sysId =
        if sysId ∈ deletions.map Tombstone.sysId then none else held table sysId := by
  induction deletions with
  | nil => exact fun held _ table sysId => (if_neg List.not_mem_nil).symm
  | cons t deletions ih =>
    intro held hcover table sysId
    have hfirst : m.after held [.deletion t] = fun table sysId =>
        if sysId = t.sysId then none else held table sysId := by
      funext table sysId
      rw [Mapping.after_tombstone]
      by_cases hsys : sysId = t.sysId
      · rw [if_pos hsys]
        split
        · rfl
        · next hnot =>
          cases hheld : held table sysId with
          | none => rfl
          | some r =>
            rw [hsys] at hheld
            exact absurd ⟨hsys, hcover t (List.mem_cons_self ..) table r hheld⟩ hnot
      · rw [if_neg hsys, if_neg fun h => hsys h.1]
    have hrest : ∀ t' ∈ deletions, ∀ table r, m.after held [.deletion t] table t'.sysId = some r →
        table ∈ (m.tombstoneTables? t').getD [] := by
      intro t' ht' table r hr
      rw [hfirst] at hr
      dsimp only at hr
      split at hr
      · cases hr
      · exact hcover t' (List.mem_cons_of_mem _ ht') table r hr
    rw [List.map_cons, ← List.singleton_append, Mapping.after_append, ih _ hrest, hfirst]
    by_cases hsys : sysId = t.sysId <;> simp [hsys]

/-- The records after a page whose tombstones address the table of every record held under their
identities. -/
theorem Mapping.Sound.after_page (h : m.Sound) {p : SyncPage} {records : List RecordRows}
    (hr : m.pageRecords p = .ok records) {held : Held}
    (hcover : ∀ t ∈ p.deletions, ∀ table r, held.setAll records table t.sysId = some r →
      table ∈ (m.tombstoneTables? t).getD []) (table : Ident) (sysId : String) :
    m.after held p.events table sysId =
      if sysId ∈ p.deletions.map Tombstone.sysId then none
      else held.setAll records table sysId := by
  obtain ⟨rows, hrows, hr⟩ := bind_eq_ok.1 hr
  obtain rfl := pure_eq_ok.1 hr
  have hset : m.after held (p.entries.map .entry ++ p.assets.map .asset)
      = held.setAll (rows ++ p.assets.map m.assetRows) := by
    rw [Mapping.after_append, h.after_entries hrows, h.after_assets]
    exact List.foldl_append.symm
  unfold SyncPage.events
  rw [Mapping.after_append, hset]
  exact Mapping.after_deletions p.deletions _ hcover table sysId

end

end ContentReplica
