import ContentReplica.Proofs.Replication.CopyBatch

/-!
# Copying a feed

`Mapping.copyBatches` are the batches by which a bulk load copies pages, and `Replicated.copyPages` says
that they bring an empty namespace to the records that the feed speaks of (`Mapping.after`), just as the
batches of news do. A bulk load takes every tombstone to address all tables, so the tombstones of
the feed have to cover what they are taken for (`Mapping.Covers`).
-/

namespace ContentReplica

namespace Mapping

/-- The work of a bulk load on one page, given what earlier pages copied. -/
def copyState (m : Mapping) (copied : ByRecord Unit) (p : SyncPage) : Except Error CopyState := do
  return (CopyState.ofRecords copied (← m.pageRecords p)).buryAll p.deletions

/-- The batches by which a bulk load copies pages, given what earlier pages copied. -/
def copyBatches (m : Mapping) (ns : Ident) :
    ByRecord Unit → List SyncPage → Except Error (List (List Statement))
  | _, [] => .ok []
  | copied, p :: pages => do
    let s ← m.copyState copied p
    return s.batch ns :: (← m.copyBatches ns s.copiedAfter pages)

/-- The records that some pages deliver. -/
def delivered (m : Mapping) (pages : List SyncPage) : List RecordRows :=
  pages.flatMap fun p => ((m.pageRecords p).toOption).getD []

/-- Every tombstone addresses the table of every record that is delivered under its identity. -/
def Covers (m : Mapping) (pages : List SyncPage) : Prop :=
  ∀ p ∈ pages, ∀ t ∈ p.deletions, ∀ r ∈ m.delivered pages, r.sysId = t.sysId →
    r.table ∈ (m.tombstoneTables? t).getD []

instance (m : Mapping) (pages : List SyncPage) : Decidable (m.Covers pages) :=
  inferInstanceAs (Decidable (∀ p ∈ pages, ∀ t ∈ p.deletions, ∀ r ∈ m.delivered pages, _ → _))

section
variable {m : Mapping}

/-- A record is delivered by a page that converts. -/
theorem mem_delivered {pages : List SyncPage} {r : RecordRows} : r ∈ m.delivered pages ↔
    ∃ p ∈ pages, ∃ records, m.pageRecords p = .ok records ∧ r ∈ records := by
  unfold delivered
  rw [List.mem_flatMap]
  refine exists_congr fun p => and_congr_right fun _ => ?_
  cases m.pageRecords p with
  | error err => exact ⟨nofun, fun ⟨_, h, _⟩ => nomatch h⟩
  | ok records =>
    refine ⟨fun hr => ⟨records, rfl, hr⟩, ?_⟩
    rintro ⟨_, h, hr⟩
    cases h
    exact hr

/-- The batches of pages that convert can be made. -/
theorem exists_copyBatches (ns : Ident) :
    ∀ {pages : List SyncPage}, (∀ p ∈ pages, ∃ records, m.pageRecords p = .ok records) →
      ∀ copied : ByRecord Unit, ∃ batches, m.copyBatches ns copied pages = .ok batches
  | [], _, _ => ⟨[], rfl⟩
  | p :: pages, h, copied => by
    obtain ⟨records, hrecords⟩ := h p (List.mem_cons_self ..)
    let s := (CopyState.ofRecords copied records).buryAll p.deletions
    obtain ⟨rest, hrest⟩ := exists_copyBatches ns
      (fun q hq => h q (List.mem_cons_of_mem _ hq)) s.copiedAfter
    exact ⟨s.batch ns :: rest, bind_eq_ok.2 ⟨s, bind_eq_ok.2 ⟨records, hrecords, rfl⟩,
      bind_eq_ok.2 ⟨rest, hrest, rfl⟩⟩⟩

/-- The batches of news can be made of pages that convert. -/
theorem exists_pageBatches (ns : Ident) {pages : List SyncPage}
    (h : ∀ p ∈ pages, ∃ records, m.pageRecords p = .ok records) :
    ∃ batches, pages.mapM (m.pageBatch ns) = .ok batches := by
  induction pages with
  | nil => exact ⟨[], rfl⟩
  | cons p pages ih =>
    obtain ⟨records, hrecords⟩ := h p (List.mem_cons_self ..)
    obtain ⟨rest, hrest⟩ := ih fun q hq => h q (List.mem_cons_of_mem _ hq)
    have hbatch : ∃ batch, m.pageBatch ns p = .ok batch :=
      ⟨_, bind_eq_ok.2 ⟨records, hrecords, rfl⟩⟩
    obtain ⟨batch, hbatch⟩ := hbatch
    refine ⟨batch :: rest, ?_⟩
    rw [List.mapM_cons]
    exact bind_eq_ok.2 ⟨batch, hbatch, bind_eq_ok.2 ⟨rest, hrest, rfl⟩⟩

/-- The records of a page that converts are described by tables of the schema. -/
theorem Sound.describes_records (h : m.Sound) {p : SyncPage} {records : List RecordRows}
    (hp : m.pageRecords p = .ok records) :
    ∀ r ∈ records, ∃ t ∈ m.schema.allTables, r.Describes t m.space.localeCodes := by
  obtain ⟨rows, hrows, hp⟩ := bind_eq_ok.1 hp
  obtain rfl := pure_eq_ok.1 hp
  intro r hr
  rcases List.mem_append.1 hr with hr | hr
  · obtain ⟨e, -, he⟩ := exists_of_mapM hrows hr
    have hpayload : m.payloadRows? (.entry e) = some r := by
      change (m.entryRows e).toOption = some r
      rw [he]
      rfl
    obtain ⟨t, ht, hdescribes, -⟩ := h.describes hpayload
    exact ⟨t, ht, hdescribes⟩
  · obtain ⟨a, -, rfl⟩ := List.mem_map.1 hr
    have hpayload : m.payloadRows? (.asset a) = some (m.assetRows a) := rfl
    obtain ⟨t, ht, hdescribes, -⟩ := h.describes hpayload
    exact ⟨t, ht, hdescribes⟩

/-- The records that are held were delivered by the pages, each in its place. -/
def HeldFrom (m : Mapping) (pages : List SyncPage) (held : Held) : Prop :=
  ∀ table sysId r, held table sysId = some r →
    r ∈ m.delivered pages ∧ r.table = table ∧ r.sysId = sysId

end

end Mapping

/-! ## One page -/

/-- The work on a page with the given records leads from what is held to what is held after it. -/
structure CopyState.Leads (s : CopyState) (records : List RecordRows) (held after : Held) :
    Prop where
  of_records : ∀ table sysId r, s.records.get? table sysId = some r →
    r ∈ records ∧ r.table = table ∧ r.sysId = sysId
  stale_held : ∀ table sysId, s.stale.has table sysId = true → ∃ r, held table sysId = some r
  fresh : ∀ table sysId r, s.records.get? table sysId = some r →
    s.stale.has table sysId = true ∨ held table sysId = none
  after_eq : ∀ table sysId, (s.records.get? table sysId).or
    (if s.stale.has table sysId then none else held table sysId) = after table sysId
  copied_iff : ∀ table sysId,
    s.copiedAfter.has table sysId = true ↔ ∃ r, after table sysId = some r

/-- If what was copied is what is held, the work on a page and what is held beside it are the records
of the page over those before, without those that its tombstones name. -/
theorem CopyState.records_or_held {copied : ByRecord Unit} {held : Held}
    (hcopied : ∀ table sysId, copied.has table sysId = true ↔ ∃ r, held table sysId = some r)
    (records : List RecordRows) (deletions : List Tombstone) (table : Ident) (sysId : String) :
    (((ofRecords copied records).buryAll deletions).records.get? table sysId).or
      (if ((ofRecords copied records).buryAll deletions).stale.has table sysId then none
        else held table sysId) =
    if sysId ∈ deletions.map Tombstone.sysId then none else held.setAll records table sysId := by
  obtain ⟨hrecords, -, hstale⟩ := ofPage_spec copied records deletions table sysId
  rw [Held.setAll_eq, hrecords]
  by_cases hdeleted : sysId ∈ deletions.map Tombstone.sysId
  · rw [if_pos hdeleted, if_pos hdeleted, Option.none_or]
    split
    · rfl
    · next hnot =>
      rw [hstale, hcopied] at hnot
      cases hheld : held table sysId with
      | none => rfl
      | some r => exact absurd ⟨⟨r, hheld⟩, .inr hdeleted⟩ hnot
  · rw [if_neg hdeleted, if_neg hdeleted]
    cases hrow : Held.setAll (fun _ _ => none) records table sysId with
    | some r => rfl
    | none =>
      rw [Option.none_or, Option.none_or, if_neg]
      rw [hstale, hrow]
      rintro ⟨-, hsome | hmem⟩
      · cases hsome
      · exact hdeleted hmem

/-- If what was copied is what is held, the work on a page leads to its records, without those that
its tombstones name. -/
theorem CopyState.leads_page {copied : ByRecord Unit} {held : Held}
    (hcopied : ∀ table sysId, copied.has table sysId = true ↔ ∃ r, held table sysId = some r)
    (records : List RecordRows) (deletions : List Tombstone) :
    ((ofRecords copied records).buryAll deletions).Leads records held fun table sysId =>
      if sysId ∈ deletions.map Tombstone.sysId then none else held.setAll records table sysId := by
  have hspec := ofPage_spec copied records deletions
  have hpage {table : Ident} {sysId : String} {r : RecordRows}
      (h : ((ofRecords copied records).buryAll deletions).records.get? table sysId = some r) :
      Held.setAll (fun _ _ => none) records table sysId = some r := by
    rw [(hspec table sysId).1] at h
    split at h
    · cases h
    · exact h
  refine ⟨fun table sysId r h => ?_, fun table sysId h => ?_, fun table sysId r h => ?_,
    records_or_held hcopied records deletions, fun table sysId => ?_⟩
  · exact (Held.setAll_eq_some (hpage h)).resolve_right nofun
  · exact (hcopied table sysId).1 ((hspec table sysId).2.2.1 h).1
  · cases hheld : held table sysId with
    | none => exact .inr rfl
    | some r' =>
      have hsome := (hcopied table sysId).2 ⟨r', hheld⟩
      exact .inl ((hspec table sysId).2.2.2 ⟨hsome, .inl (Option.isSome_iff_exists.2 ⟨r, hpage h⟩)⟩)
  · obtain ⟨hrecords, hkept, -⟩ := hspec table sysId
    unfold copiedAfter
    rw [ByRecord.has_foldl_put, ByRecord.mem_ids, ByRecord.has_iff, hkept, hrecords, hcopied,
      Held.setAll_eq held]
    by_cases hdeleted : sysId ∈ deletions.map Tombstone.sysId
    · simp [hdeleted]
    · cases Held.setAll (fun _ _ => none) records table sysId with
      | none => simp [hdeleted]
      | some r => simp [hdeleted]

/-! ## All pages -/

section
variable {m : Mapping} {ns : Ident} {base n : Namespace} {held : Held}

/-- The batch of a page brings a namespace to the records after the page. -/
theorem Replicated.copyPage (h : Replicated m.schema m.space.localeCodes base n held) (hm : m.Sound)
    (hbase : m.schema.Installed base) {pages : List SyncPage} (hcovers : m.Covers pages)
    (hheld : m.HeldFrom pages held) {copied : ByRecord Unit}
    (hcopied : ∀ table sysId, copied.has table sysId = true ↔ ∃ r, held table sysId = some r)
    {p : SyncPage} (hp : p ∈ pages) {s : CopyState} (hs : m.copyState copied p = .ok s) :
    (∃ n', n.applyAll (s.batch ns) = .ok n' ∧
      Replicated m.schema m.space.localeCodes base n' (m.after held p.events)) ∧
      m.HeldFrom pages (m.after held p.events) ∧
      ∀ table sysId, s.copiedAfter.has table sysId = true ↔
        ∃ r, m.after held p.events table sysId = some r := by
  obtain ⟨records, hrecords, hs⟩ := bind_eq_ok.1 hs
  obtain rfl := pure_eq_ok.1 hs
  have hset : m.HeldFrom pages (held.setAll records) := by
    intro table sysId r hr
    rcases Held.setAll_eq_some hr with ⟨hr, hkey⟩ | hr
    · exact ⟨Mapping.mem_delivered.2 ⟨p, hp, records, hrecords, hr⟩, hkey⟩
    · exact hheld table sysId r hr
  have hafter : m.after held p.events = fun table sysId =>
      if sysId ∈ p.deletions.map Tombstone.sysId then none
      else held.setAll records table sysId := by
    funext table sysId
    refine hm.after_page hrecords (fun t ht table r hr => ?_) table sysId
    obtain ⟨hdelivered, rfl, hsys⟩ := hset table t.sysId r hr
    exact hcovers p hp t ht r hdelivered hsys
  have hleads := CopyState.leads_page hcopied records p.deletions
  rw [← hafter] at hleads
  have hdescribes : ∀ r ∈ m.delivered pages,
      ∃ t ∈ m.schema.allTables, r.Describes t m.space.localeCodes := by
    intro r hr
    obtain ⟨q, -, delivered, hq, hr⟩ := Mapping.mem_delivered.1 hr
    exact hm.describes_records hq r hr
  refine ⟨?_, fun table sysId r hr => ?_, hleads.copied_iff⟩
  · have hkeeps : ((CopyState.ofRecords copied records).buryAll p.deletions).Keeps m.schema
        m.space.localeCodes := fun table sysId r hr => by
      obtain ⟨hr, hkey⟩ := hleads.of_records table sysId r hr
      exact ⟨hkey.1, hkey.2, hm.describes_records hrecords r hr⟩
    obtain ⟨n', hrun, h'⟩ := h.copyBatch hm hbase ns hkeeps (fun table sysId hstale => by
      obtain ⟨r, hr⟩ := hleads.stale_held table sysId hstale
      obtain ⟨hdelivered, rfl, -⟩ := hheld table sysId r hr
      obtain ⟨t, ht, hdescribes⟩ := hdescribes r hdelivered
      exact ⟨t, ht, hdescribes.table_eq.symm⟩) hleads.fresh
    refine ⟨n', hrun, ?_⟩
    have hheld' : (fun table sysId =>
        (((CopyState.ofRecords copied records).buryAll p.deletions).records.get? table sysId).or
          (if ((CopyState.ofRecords copied records).buryAll p.deletions).stale.has table sysId
            then none else held table sysId)) = m.after held p.events := by
      funext table sysId
      exact hleads.after_eq table sysId
    exact hheld' ▸ h'
  · rw [hafter] at hr
    dsimp only at hr
    split at hr
    · cases hr
    · exact hset table sysId r hr

/-- The batches of several pages bring a namespace to the records after them. -/
theorem Replicated.copyPages (hm : m.Sound) (hbase : m.schema.Installed base)
    {feed : List SyncPage} (hcovers : m.Covers feed) :
    ∀ {pages : List SyncPage} {batches : List (List Statement)} {copied : ByRecord Unit}
      {n : Namespace} {held : Held}, (∀ p ∈ pages, p ∈ feed) →
      m.copyBatches ns copied pages = .ok batches →
      Replicated m.schema m.space.localeCodes base n held → m.HeldFrom feed held →
      (∀ table sysId, copied.has table sysId = true ↔ ∃ r, held table sysId = some r) →
      ∃ n', n.applyAll batches.flatten = .ok n' ∧
        Replicated m.schema m.space.localeCodes base n'
          (m.after held (pages.flatMap SyncPage.events)) := by
  intro pages
  induction pages with
  | nil =>
    intro batches copied n held _ hbatches h _ _
    cases hbatches
    exact ⟨n, rfl, h⟩
  | cons p pages ih =>
    intro batches copied n held hfeed hbatches h hheld hcopied
    obtain ⟨s, hs, hbatches⟩ := bind_eq_ok.1 hbatches
    obtain ⟨rest, hrest, hbatches⟩ := bind_eq_ok.1 hbatches
    obtain rfl := pure_eq_ok.1 hbatches
    obtain ⟨⟨n₁, hfirst, h₁⟩, hheld₁, hcopied₁⟩ :=
      h.copyPage hm hbase hcovers hheld hcopied (hfeed p (List.mem_cons_self ..)) hs
    obtain ⟨n', hrun, h'⟩ :=
      ih (fun q hq => hfeed q (List.mem_cons_of_mem _ hq)) hrest h₁ hheld₁ hcopied₁
    rw [List.flatMap_cons, Mapping.after_append]
    exact ⟨n', Namespace.applyAll_append.2 ⟨n₁, hfirst, hrun⟩, h'⟩

/-- Two namespaces that hold the same records hold the same rows. -/
theorem Replicated.table_eq {s : Schema} {codes : List String} {base' n' : Namespace}
    (h : Replicated s codes base n held) (h' : Replicated s codes base' n' held) {name : Ident}
    (hname : name ∈ s.contentTables.map Prod.fst) : n.tables.get? name = n'.tables.get? name := by
  obtain ⟨contents, hmirror, hshows⟩ := h
  obtain ⟨contents', hmirror', hshows'⟩ := h'
  obtain ⟨⟨_, columns⟩, hx, rfl⟩ := List.mem_map.1 hname
  obtain ⟨t, ht, hold⟩ := hmirror.tables _ columns hx
  obtain ⟨t', ht', hold'⟩ := hmirror'.tables _ columns hx
  have hsame : t'.Holds columns (contents _) := hold'.congr fun row => hshows'.unique hshows hname row
  rw [ht, ht', hold.unique hsame]

end

end ContentReplica
