import ContentReplica.Proofs.Replication.Held
import ContentReplica.Proofs.Space

/-!
# The feed, event by event

A page delivers events (`SyncPage.events`): payloads of entries and of assets, then deletions. What
the events say of a record is what the last one of them that addresses it says (`Mapping.after`).

The batch of a page is made of the statements of its events (`Mapping.pageBatch_eq`), and these bring
a namespace from the records that it holds to those after the events (`Replicated.page`,
`Replicated.pages`), so it never matters what was stored before a record was delivered. Applied once
more, the batch of a page finds its own records and changes nothing (`Replicated.page_again`).
-/

namespace ContentReplica

/-! ## Events -/

/-- What the feed delivers: a payload, or the news that a record was deleted. -/
inductive FeedEvent where
  | entry (entry : Entry)
  | asset (asset : Asset)
  | deletion (tombstone : Tombstone)

/-- Pages end a cycle at a token: the last of them, and no other, completes it. -/
inductive SyncPage.EndAt : List SyncPage → String → Prop
  | last {p : SyncPage} : p.cursor.isDone = true → EndAt [p] p.cursor.token
  | more {p : SyncPage} {pages : List SyncPage} {token : String} : p.cursor.isDone = false →
    EndAt pages token → EndAt (p :: pages) token

/-- The events of a page in feed order. -/
def SyncPage.events (p : SyncPage) : List FeedEvent :=
  p.entries.map .entry ++ p.assets.map .asset ++ p.deletions.map .deletion

namespace Mapping

/-- Whether an event is about the record with an identity in a table. -/
def addresses (m : Mapping) (table : Ident) (sysId : String) : FeedEvent → Bool
  | .entry e =>
    e.sys.id == sysId && (m.schema.entryTable? e.contentType).map TableLayout.name == some table
  | .asset a => a.sys.id == sysId && assetLayout.name == table
  | .deletion t => t.sysId == sysId && ((m.tombstoneTables? t).getD []).contains table

/-- The rows of a payload, none for a deletion. -/
def payloadRows? (m : Mapping) : FeedEvent → Option RecordRows
  | .entry e => (m.entryRows e).toOption
  | .asset a => some (m.assetRows a)
  | .deletion _ => none

/-- The records after some events: of each record the last event about it counts. -/
def after (m : Mapping) (held : Held) (events : List FeedEvent) : Held := fun table sysId =>
  match (events.filter (m.addresses table sysId)).getLast? with
  | some event => m.payloadRows? event
  | none => held table sysId

/-- The statements that bring an event into a namespace. -/
def eventStatements (m : Mapping) (ns : Ident) : FeedEvent → List Statement
  | .entry e =>
    match m.entryRows e with
    | .ok r => recordStatements ns r
    | .error _ => []
  | .asset a => recordStatements ns (m.assetRows a)
  | .deletion t => m.tombstoneStatements ns t

/-- The payload of an event can be converted, if its content type has a table at all. -/
def Converts (m : Mapping) : FeedEvent → Prop
  | .entry e => m.hasTable e = true → ∃ r, m.entryRows e = .ok r
  | _ => True

section
variable {m : Mapping} {held : Held}

/-! ## Records after events -/

/-- The events of two lists count one after the other. -/
theorem after_append (first second : List FeedEvent) :
    m.after held (first ++ second) = m.after (m.after held first) second := by
  funext table sysId
  unfold after
  rw [List.filter_append, List.getLast?_append]
  cases (second.filter (m.addresses table sysId)).getLast? with
  | some event => rfl
  | none => rfl

/-- After the same events once more the records are the same. -/
theorem after_after (events : List FeedEvent) :
    m.after (m.after held events) events = m.after held events := by
  funext table sysId
  unfold after
  cases (events.filter (m.addresses table sysId)).getLast? with
  | some event => rfl
  | none => rfl

/-- One event changes what it is about. -/
theorem after_singleton (event : FeedEvent) (table : Ident) (sysId : String) :
    m.after held [event] table sysId =
      if m.addresses table sysId event then m.payloadRows? event else held table sysId := by
  unfold after
  by_cases h : m.addresses table sysId event
  · rw [if_pos h, List.filter_cons_of_pos h]
    rfl
  · rw [if_neg h, List.filter_cons_of_neg h]
    rfl

/-- An entry whose content type has no table sets nothing and makes no statements. -/
theorem after_skipped {e : Entry} (h : m.hasTable e = false) (held : Held) (ns : Ident) :
    m.after held [.entry e] = held ∧ m.eventStatements ns (.entry e) = [] := by
  have hnone : m.schema.entryTable? e.contentType = none := by
    simpa [hasTable] using h
  constructor
  · funext table sysId
    have haddresses : m.addresses table sysId (.entry e) = false := by
      unfold addresses
      dsimp only
      rw [hnone]
      exact Bool.and_false _
    rw [after_singleton, haddresses]
    rfl
  · unfold eventStatements entryRows
    dsimp only
    rw [hnone]

/-- A tombstone removes its record from the tables that it addresses. -/
theorem after_tombstone (t : Tombstone) (held : Held) (table : Ident) (sysId : String) :
    m.after held [.deletion t] table sysId =
      if sysId = t.sysId ∧ table ∈ (m.tombstoneTables? t).getD [] then none
      else held table sysId := by
  have haddresses : m.addresses table sysId (.deletion t) = true ↔
      sysId = t.sysId ∧ table ∈ (m.tombstoneTables? t).getD [] := by
    unfold addresses
    dsimp only
    rw [Bool.and_eq_true, beq_iff_eq, List.contains_iff_mem, eq_comm]
  rw [after_singleton]
  exact if_congr haddresses rfl rfl

/-! ## The batch of a page -/

/-- The statements of a page's records are those of its payloads. -/
theorem records_flatMap (ns : Ident) :
    ∀ {entries : List Entry} {records : List RecordRows},
      (entries.filter m.hasTable).mapM m.entryRows = .ok records →
      records.flatMap (recordStatements ns)
          = (entries.map FeedEvent.entry).flatMap (m.eventStatements ns) ∧
        ∀ e ∈ entries, m.Converts (.entry e) := by
  intro entries
  induction entries with
  | nil =>
    intro records h
    rw [List.filter_nil, List.mapM_nil, pure_eq_ok] at h
    subst h
    exact ⟨rfl, nofun⟩
  | cons e entries ih =>
    intro records h
    rw [List.map_cons, List.flatMap_cons]
    by_cases htable : m.hasTable e
    · rw [List.filter_cons_of_pos htable, List.mapM_cons] at h
      obtain ⟨r, hr, h⟩ := bind_eq_ok.1 h
      obtain ⟨rest, hrest, h⟩ := bind_eq_ok.1 h
      obtain rfl := pure_eq_ok.1 h
      obtain ⟨hflat, hconverts⟩ := ih hrest
      have hevent : m.eventStatements ns (.entry e) = recordStatements ns r := by
        unfold eventStatements
        dsimp only
        rw [hr]
      rw [List.flatMap_cons, hflat, hevent]
      exact ⟨rfl, List.forall_mem_cons.2 ⟨fun _ => ⟨r, hr⟩, hconverts⟩⟩
    · rw [List.filter_cons_of_neg htable] at h
      obtain ⟨hflat, hconverts⟩ := ih h
      rw [hflat, (after_skipped (Bool.eq_false_iff.2 htable) (fun _ _ => none) ns).2]
      exact ⟨rfl, List.forall_mem_cons.2 ⟨fun h => absurd h htable, hconverts⟩⟩

/-- The batch of a page is made of the statements of its events and stores the token, and every
payload was converted. -/
theorem pageBatch_eq {ns : Ident} {p : SyncPage} {batch : List Statement}
    (h : m.pageBatch ns p = .ok batch) :
    batch = p.events.flatMap (m.eventStatements ns) ++ [.saveSyncToken ns p.cursor.token] ∧
      ∀ event ∈ p.events, m.Converts event := by
  obtain ⟨records, hrecords, h⟩ := bind_eq_ok.1 h
  obtain rfl := pure_eq_ok.1 h
  obtain ⟨rows, hrows, hrecords⟩ := bind_eq_ok.1 hrecords
  obtain rfl := pure_eq_ok.1 hrecords
  obtain ⟨hflat, hconverts⟩ := records_flatMap ns hrows
  constructor
  · unfold SyncPage.events
    rw [List.flatMap_append, hflat, List.flatMap_append, List.flatMap_append, List.flatMap_map,
      List.flatMap_map, List.flatMap_map, List.flatMap_map]
    rfl
  · intro event hevent
    simp only [SyncPage.events, List.mem_append, List.mem_map] at hevent
    rcases hevent with (⟨e, he, rfl⟩ | ⟨a, -, rfl⟩) | ⟨t, -, rfl⟩
    · exact hconverts e he
    · trivial
    · trivial

/-- The statements that bring a record up to date change its namespace from within. -/
theorem recordStatements_local {ns : Ident} {r : RecordRows} :
    ∀ statement ∈ recordStatements ns r, statement.InNamespace ns := by
  intro statement hs
  rcases List.mem_append.1 hs with hs | hs
  · simp only [List.mem_cons, List.not_mem_nil, or_false] at hs
    rcases hs with rfl | rfl <;> exact ⟨rfl, rfl⟩
  · obtain ⟨set, -, hs⟩ := List.mem_flatMap.1 hs
    rcases List.mem_cons.1 hs with rfl | hs
    · exact ⟨rfl, rfl⟩
    · split at hs
      · cases hs
      · rw [List.mem_singleton.1 hs]
        exact ⟨rfl, rfl⟩

/-- The statements of an event change its namespace from within. -/
theorem eventStatements_local {ns : Ident} {event : FeedEvent} :
    ∀ statement ∈ m.eventStatements ns event, statement.InNamespace ns := by
  intro statement hs
  cases event with
  | entry e =>
    unfold eventStatements at hs
    dsimp only at hs
    split at hs
    · exact recordStatements_local statement hs
    · cases hs
  | asset a => exact recordStatements_local statement hs
  | deletion t =>
    obtain ⟨table, -, rfl⟩ := List.mem_map.1 hs
    exact ⟨rfl, rfl⟩

/-- The batch of a page changes its namespace from within. -/
theorem pageBatch_local {ns : Ident} {p : SyncPage} {batch : List Statement}
    (h : m.pageBatch ns p = .ok batch) : ∀ statement ∈ batch, statement.InNamespace ns := by
  obtain ⟨rfl, -⟩ := pageBatch_eq h
  intro statement hs
  rcases List.mem_append.1 hs with hs | hs
  · obtain ⟨event, -, hs⟩ := List.mem_flatMap.1 hs
    exact eventStatements_local statement hs
  · rw [List.mem_singleton.1 hs]
    exact ⟨rfl, rfl⟩

end

/-! ## Records of a space -/

/-- The schema is a compiled one whose tables have names of their own, and the locales are those of a
valid space, which can be told from what stands before them in an identity. -/
structure Sound (m : Mapping) : Prop where
  compiled : m.schema.Compiled
  collisionFree : m.schema.CollisionFree
  codes_nodup : m.space.localeCodes.Nodup
  codes_apart : Naming.Apart m.space.localeCodes
  default_mem : m.default ∈ m.space.localeCodes

/-- A mapping is made of a schema, a space and the code of its default locale. -/
theorem of_eq_ok {schema : Schema} {space : Space} {m : Mapping} :
    Mapping.of schema space = .ok m ↔
      ∃ d, space.defaultLocale = .ok d ∧ ⟨schema, space, d.code⟩ = m := by
  unfold Mapping.of
  rw [bind_eq_ok]
  simp only [pure_eq_ok]

/-- A valid space has a mapping, and it is sound. -/
theorem sound_of_ok {schema : Schema} {space : Space} {m : Mapping}
    (hm : Mapping.of schema space = .ok m) (hspace : space.validate = .ok ())
    (hcodes : ∀ code ∈ space.localeCodes, '_' ∉ code.toList) (hschema : schema.Compiled)
    (hfree : schema.CollisionFree) : m.schema = schema ∧ m.space = space ∧ m.Sound := by
  obtain ⟨d, hd, rfl⟩ := of_eq_ok.1 hm
  exact ⟨rfl, rfl, hschema, hfree, Space.nodup_localeCodes hspace, Naming.apart_of_plain hcodes,
    Space.default_mem_localeCodes hd⟩

/-- The rows of a payload that converts are those of a record that its event addresses. -/
theorem Sound.describes {m : Mapping} (h : m.Sound) {event : FeedEvent} {r : RecordRows}
    (hr : m.payloadRows? event = some r) :
    ∃ t ∈ m.schema.allTables, r.Describes t m.space.localeCodes ∧
      (∀ ns, m.eventStatements ns event = recordStatements ns r) ∧
      ∀ table sysId, m.addresses table sysId event = true ↔ table = t.name ∧ sysId = r.sysId := by
  cases event with
  | entry e =>
    have hrows : m.entryRows e = .ok r := by
      change (m.entryRows e).toOption = some r at hr
      cases he : m.entryRows e with
      | error fault =>
        rw [he] at hr
        cases hr
      | ok r' =>
        rw [he] at hr
        cases hr
        rfl
    obtain ⟨t, ht, hsys, hdescribes⟩ := describes_entryRows h.codes_nodup h.default_mem
      h.compiled.column_not_reserved hrows
    refine ⟨t, List.mem_append_left _ (Schema.entryTable?_eq_some ht).1, hdescribes, fun ns => ?_,
      fun table sysId => ?_⟩
    · unfold eventStatements
      dsimp only
      rw [hrows]
    · unfold addresses
      dsimp only
      rw [ht, hsys, Bool.and_eq_true, beq_iff_eq, Option.map_some, beq_iff_eq, Option.some.injEq,
        eq_comm (a := e.sys.id), eq_comm (a := t.name), and_comm]
  | asset a =>
    cases hr
    refine ⟨assetLayout, List.mem_append_right _ (List.mem_singleton.2 rfl),
      describes_assetRows h.codes_nodup a, fun _ => rfl, fun table sysId => ?_⟩
    unfold addresses
    dsimp only
    rw [Bool.and_eq_true, beq_iff_eq, beq_iff_eq, eq_comm (a := a.sys.id),
      eq_comm (a := assetLayout.name), and_comm]
    rfl
  | deletion t => cases hr

/-- A payload that converts sets its record. -/
theorem Sound.after_payload {m : Mapping} (h : m.Sound) {event : FeedEvent} {r : RecordRows}
    (hr : m.payloadRows? event = some r) (held : Held) :
    m.after held [event] = held.set r.table r.sysId (some r) := by
  obtain ⟨t, -, hdescribes, -, haddresses⟩ := h.describes hr
  funext table sysId
  rw [after_singleton, hr, hdescribes.table_eq]
  unfold Held.set
  by_cases hsame : table = t.name ∧ sysId = r.sysId
  · rw [if_pos ((haddresses table sysId).2 hsame), if_pos hsame]
  · rw [if_neg fun ha => hsame ((haddresses table sysId).1 ha), if_neg hsame]

/-- The tables that a tombstone addresses are tables of the schema. -/
theorem exists_table_of_tombstone {m : Mapping} {t : Tombstone} {table : Ident}
    (h : table ∈ (m.tombstoneTables? t).getD []) : ∃ l ∈ m.schema.allTables, l.name = table := by
  unfold tombstoneTables? at h
  split at h
  · rw [Option.getD_some, List.mem_singleton] at h
    exact ⟨assetLayout, List.mem_append_right _ (List.mem_singleton.2 rfl), h.symm⟩
  · next contentType _ _ =>
    cases htable : m.schema.entryTable? contentType with
    | none =>
      rw [htable] at h
      cases h
    | some l =>
      rw [htable, Option.map_some, Option.getD_some, List.mem_singleton] at h
      exact ⟨l, List.mem_append_left _ (Schema.entryTable?_eq_some htable).1, h.symm⟩
  · obtain ⟨l, hl, he⟩ := List.mem_map.1 h
    exact ⟨l, List.mem_append_left _ hl, he⟩

end Mapping

/-! ## Events on a namespace -/

namespace Replicated

variable {m : Mapping} {base n : Namespace} {held : Held} {ns : Ident}

/-- Records that are deleted one after the other are held no more. -/
theorem deleteAll (hm : m.Sound) (hbase : m.schema.Installed base) (ns : Ident) :
    ∀ {pairs : List (Ident × String)} {n : Namespace} {held : Held},
      (∀ pair ∈ pairs, ∃ l ∈ m.schema.allTables, l.name = pair.1) →
      Replicated m.schema m.space.localeCodes base n held →
      ∃ n', n.applyAll (pairs.map fun pair => Mapping.deleteRecord ns pair.1 pair.2) = .ok n' ∧
        Replicated m.schema m.space.localeCodes base n' fun table sysId =>
          if (table, sysId) ∈ pairs then none else held table sysId := by
  intro pairs
  induction pairs with
  | nil =>
    intro n held _ h
    refine ⟨n, rfl, ?_⟩
    simpa using h
  | cons pair pairs ih =>
    intro n held hpairs h
    obtain ⟨l, hl, hname⟩ := hpairs pair (List.mem_cons_self ..)
    obtain ⟨n₁, hfirst, h₁⟩ := h.delete hm.collisionFree hbase hm.codes_apart ns hl pair.2
    rw [hname] at hfirst h₁
    obtain ⟨n', hrest, h'⟩ := ih (fun pair hp => hpairs pair (List.mem_cons_of_mem _ hp)) h₁
    refine ⟨n', Namespace.applyAll_cons.2 ⟨n₁, hfirst, hrest⟩, ?_⟩
    have hheld : (fun table sysId => if (table, sysId) ∈ pairs then none
        else held.set pair.1 pair.2 none table sysId) =
        fun table sysId => if (table, sysId) ∈ pair :: pairs then none
          else held table sysId := by
      funext table sysId
      unfold Held.set
      simp only [List.mem_cons, Prod.ext_iff]
      by_cases hmem : (table, sysId) ∈ pairs <;>
        by_cases hpair : table = pair.1 ∧ sysId = pair.2 <;> simp [hmem, hpair]
    rwa [hheld] at h'

/-- The statements of an event bring a namespace to the records after it. -/
theorem event (h : Replicated m.schema m.space.localeCodes base n held) (hm : m.Sound)
    (hbase : m.schema.Installed base) (ns : Ident) {event : FeedEvent} (hconverts : m.Converts event) :
    ∃ n', n.applyAll (m.eventStatements ns event) = .ok n' ∧
      Replicated m.schema m.space.localeCodes base n' (m.after held [event]) := by
  cases hrows : m.payloadRows? event with
  | some r =>
    obtain ⟨t, ht, hdescribes, hstatements, -⟩ := hm.describes hrows
    obtain ⟨n', hrun, h'⟩ := h.record hm.collisionFree hbase hm.codes_apart ns ht hdescribes
    refine ⟨n', (hstatements ns).symm ▸ hrun, ?_⟩
    rwa [hm.after_payload hrows, hdescribes.table_eq]
  | none =>
    cases event with
    | entry e =>
      have herror : ∃ fault, m.entryRows e = .error fault := by
        change (m.entryRows e).toOption = none at hrows
        cases he : m.entryRows e with
        | error fault => exact ⟨fault, rfl⟩
        | ok r =>
          rw [he] at hrows
          cases hrows
      obtain ⟨fault, herror⟩ := herror
      have htable : m.hasTable e = false := by
        refine Bool.eq_false_iff.2 fun hhas => ?_
        obtain ⟨r, hr⟩ := hconverts hhas
        rw [hr] at herror
        cases herror
      obtain ⟨hheld, hstatements⟩ := Mapping.after_skipped htable held ns
      rw [hheld, hstatements]
      exact ⟨n, rfl, h⟩
    | asset a => cases hrows
    | deletion t =>
      have htables : ∀ pair ∈ ((m.tombstoneTables? t).getD []).map (·, t.sysId),
          ∃ l ∈ m.schema.allTables, l.name = pair.1 := by
        intro pair hpair
        obtain ⟨table, htable, rfl⟩ := List.mem_map.1 hpair
        exact Mapping.exists_table_of_tombstone htable
      obtain ⟨n', hrun, h'⟩ := deleteAll hm hbase ns htables h
      rw [List.map_map] at hrun
      refine ⟨n', hrun, ?_⟩
      have hheld : m.after held [.deletion t] = fun table sysId =>
          if (table, sysId) ∈ ((m.tombstoneTables? t).getD []).map (·, t.sysId) then none
          else held table sysId := by
        funext table sysId
        rw [Mapping.after_tombstone]
        refine if_congr ?_ rfl rfl
        simp [and_comm, eq_comm]
      rwa [hheld]

/-- The statements of several events bring a namespace to the records after them. -/
theorem events (hm : m.Sound) (hbase : m.schema.Installed base) (ns : Ident) :
    ∀ {events : List FeedEvent} {n : Namespace} {held : Held},
      Replicated m.schema m.space.localeCodes base n held → (∀ event ∈ events, m.Converts event) →
      ∃ n', n.applyAll (events.flatMap (m.eventStatements ns)) = .ok n' ∧
        Replicated m.schema m.space.localeCodes base n' (m.after held events) := by
  intro events
  induction events with
  | nil => exact fun h _ => ⟨_, rfl, h⟩
  | cons event events ih =>
    intro n held h hconverts
    obtain ⟨n₁, hfirst, h₁⟩ := h.event hm hbase ns (hconverts event (List.mem_cons_self ..))
    obtain ⟨n', hrest, h'⟩ := ih h₁ fun e he => hconverts e (List.mem_cons_of_mem _ he)
    refine ⟨n', ?_, ?_⟩
    · rw [List.flatMap_cons]
      exact Namespace.applyAll_append.2 ⟨n₁, hfirst, hrest⟩
    · rw [← List.singleton_append, Mapping.after_append]
      exact h'

/-- The batch of a page brings a namespace to the records after the page, and stores the token. -/
theorem page (h : Replicated m.schema m.space.localeCodes base n held) (hm : m.Sound)
    (hbase : m.schema.Installed base) {p : SyncPage} {batch : List Statement}
    (hbatch : m.pageBatch ns p = .ok batch) :
    ∃ n' base', n.applyAll batch = .ok n' ∧ base.saveToken p.cursor.token = .ok base' ∧
      m.schema.Installed base' ∧
      Replicated m.schema m.space.localeCodes base' n' (m.after held p.events) := by
  obtain ⟨rfl, hconverts⟩ := Mapping.pageBatch_eq hbatch
  obtain ⟨n₁, hevents, h₁⟩ := events hm hbase ns h hconverts
  obtain ⟨n', base', htoken, hbaseToken, hbase', h'⟩ :=
    h₁.saveToken hm.collisionFree hbase p.cursor.token
  refine ⟨n', base', ?_, hbaseToken, hbase', h'⟩
  exact Namespace.applyAll_append.2 ⟨n₁, hevents, Namespace.applyAll_cons.2 ⟨n', htoken, rfl⟩⟩

/-- The batch of a page that was applied changes nothing when it is applied again. -/
theorem page_again (h : Replicated m.schema m.space.localeCodes base n held) (hm : m.Sound)
    (hbase : m.schema.Installed base) {p : SyncPage} {batch : List Statement}
    (hbatch : m.pageBatch ns p = .ok batch) {n' : Namespace} (hrun : n.applyAll batch = .ok n') :
    n'.applyAll batch = .ok n' := by
  obtain ⟨n₁, base₁, hrun₁, htoken₁, hbase₁, h₁⟩ := h.page hm hbase hbatch
  obtain rfl := Except.ok.inj (hrun.symm.trans hrun₁)
  obtain ⟨n₂, base₂, hrun₂, htoken₂, -, h₂⟩ := h₁.page hm hbase₁ hbatch
  rw [Mapping.after_after] at h₂
  have hsame : base₂ = base₁ :=
    Except.ok.inj (htoken₂.symm.trans (Namespace.saveToken_saveToken htoken₁))
  rw [hrun₂, h₂.unique (hsame ▸ h₁)]

/-- The batches of several pages bring a namespace to the records after them; the last batch applied
once more changes nothing. -/
theorem pages (hm : m.Sound) :
    ∀ {pages : List SyncPage} {batches : List (List Statement)} {base n : Namespace} {held : Held},
      pages.mapM (m.pageBatch ns) = .ok batches → m.schema.Installed base →
      Replicated m.schema m.space.localeCodes base n held →
      ∃ n' base', batches.foldlM Namespace.applyAll n = .ok n' ∧ m.schema.Installed base' ∧
        Replicated m.schema m.space.localeCodes base' n'
          (m.after held (pages.flatMap SyncPage.events)) ∧
        ∀ last, batches.getLast? = some last → n'.applyAll last = .ok n' := by
  intro pages
  induction pages with
  | nil =>
    intro batches base n held hbatches hbase h
    rw [List.mapM_nil, pure_eq_ok] at hbatches
    subst hbatches
    exact ⟨n, base, rfl, hbase, h, nofun⟩
  | cons p pages ih =>
    intro batches base n held hbatches hbase h
    rw [List.mapM_cons] at hbatches
    obtain ⟨batch, hbatch, hbatches⟩ := bind_eq_ok.1 hbatches
    obtain ⟨rest, hrest, hbatches⟩ := bind_eq_ok.1 hbatches
    obtain rfl := pure_eq_ok.1 hbatches
    obtain ⟨n₁, base₁, hfirst, -, hbase₁, h₁⟩ := h.page hm hbase hbatch
    obtain ⟨n', base', hrun, hbase', h', hagain⟩ := ih hrest hbase₁ h₁
    refine ⟨n', base', bind_eq_ok.2 ⟨n₁, hfirst, hrun⟩, hbase', ?_, fun last hlast => ?_⟩
    · rw [List.flatMap_cons, Mapping.after_append]
      exact h'
    · cases rest with
      | nil =>
        obtain rfl := pure_eq_ok.1 hrun
        cases hlast
        exact h.page_again hm hbase hbatch hfirst
      | cons b rest => exact hagain last (List.getLast?_cons_cons ▸ hlast)

end Replicated

end ContentReplica
