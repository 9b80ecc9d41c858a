import ContentReplica.Proofs.Replication.CopyFeed
import ContentReplica.Proofs.Replication.Exchange
import ContentReplica.Proofs.Store.Transaction
import ContentReplica.Replication.Engine

/-!
# Bulk loads

A bulk load copies the pages of a feed in one transaction. Until the commit it publishes nothing, so a
load that fails leaves the data as they were, and one that succeeds publishes what the batches of
all fetched pages make of them (`Engine.load_cases`). Without failures and without a stop it
succeeds on every feed whose batches can be applied (`Engine.load_of_pages`).
-/

namespace ContentReplica

/-- The batch of a page stays inside its namespace. -/
theorem CopyState.batch_local (s : CopyState) (ns : Ident) :
    ∀ statement ∈ s.batch ns, statement.InNamespace ns := by
  intro statement hs
  rw [batch_eq] at hs
  rcases List.mem_append.1 hs with hs | hs
  · obtain ⟨pair, -, rfl⟩ := List.mem_map.1 hs
    exact ⟨rfl, rfl⟩
  · obtain ⟨item, -, hitem⟩ := List.mem_filterMap.1 hs
    unfold copyStatement? at hitem
    split at hitem
    · cases hitem
    · cases hitem
      exact ⟨rfl, rfl⟩

/-- The batches of a bulk load stay inside its namespace. -/
theorem Mapping.copyBatches_local {m : Mapping} {ns : Ident} :
    ∀ {pages : List SyncPage} {copied : ByRecord Unit} {batches : List (List Statement)},
      m.copyBatches ns copied pages = .ok batches →
      ∀ statement ∈ batches.flatten, statement.InNamespace ns := by
  intro pages
  induction pages with
  | nil =>
    intro copied batches h
    cases h
    exact nofun
  | cons p pages ih =>
    intro copied batches h
    obtain ⟨s, -, h⟩ := bind_eq_ok.1 h
    obtain ⟨rest, hrest, h⟩ := bind_eq_ok.1 h
    obtain rfl := pure_eq_ok.1 h
    intro statement hs
    rw [List.flatten_cons, List.mem_append] at hs
    exact hs.elim (s.batch_local ns statement) (ih hrest statement)

namespace Engine

variable {e : Engine} {m : Mapping} {signal : Signal}

/-! ## One page -/

section
variable {p : SyncPage} {l l' : Loading}

/-- Copying a page asks the source for nothing and publishes nothing. -/
theorem copyPage_frame (e : Engine) (m : Mapping) (p : SyncPage) (l : Loading) :
    (e.copyPage m p l).2.world.source = l.world.source ∧
      (e.copyPage m p l).2.world.store.database = l.world.store.database ∧
      (e.copyPage m p l).2.world.store.failures = l.world.store.failures := by
  unfold copyPage
  dsimp only
  cases m.pageRecords p with
  | error err => exact ⟨rfl, rfl, rfl⟩
  | ok records =>
    dsimp only
    split
    · exact ⟨rfl, rfl, rfl⟩
    · obtain ⟨hdatabase, hfailures⟩ := l.world.store.executeIn_database l.transaction
        (((CopyState.ofRecords l.copied records).buryAll p.deletions).batch e.namespaceName)
      exact ⟨rfl, hdatabase, hfailures⟩

/-- A page that was copied was applied to the working copy. -/
theorem copyPage_ok (h : e.copyPage m p l = (.ok (), l')) :
    ∃ s, m.copyState l.copied p = .ok s ∧ l'.copied = s.copiedAfter ∧
      l.transaction.working.applyAll (s.batch e.namespaceName) = .ok l'.transaction.working ∧
      ∀ d, l.transaction.Inside e.namespaceName d → l'.transaction.Inside e.namespaceName d := by
  unfold copyPage at h
  dsimp only at h
  cases hrecords : m.pageRecords p with
  | error err =>
    rw [hrecords] at h
    cases h
  | ok records =>
    rw [hrecords] at h
    dsimp only at h
    let s := (CopyState.ofRecords l.copied records).buryAll p.deletions
    refine ⟨s, bind_eq_ok.2 ⟨records, hrecords, rfl⟩, ?_⟩
    split at h
    · next hempty =>
      cases h
      refine ⟨rfl, ?_, fun _ hd => hd⟩
      rw [List.isEmpty_iff.1 hempty]
      rfl
    · generalize hrun : l.world.store.executeIn l.transaction (s.batch e.namespaceName) = run at h
      obtain ⟨result, transaction, store⟩ := run
      cases h
      exact ⟨rfl, (Store.executeIn_ok hrun).1, fun _ hd =>
        Store.executeIn_inside hd (s.batch_local e.namespaceName) hrun⟩

/-- Without failures a page is copied if its batch can be applied. -/
theorem copyPage_of_applyAll (hf : l.world.store.failures = []) (ht : l.transaction.aborted = false)
    {s : CopyState} (hs : m.copyState l.copied p = .ok s) {d : Database}
    (h : l.transaction.working.applyAll (s.batch e.namespaceName) = .ok d) :
    (e.copyPage m p l).1 = .ok () := by
  obtain ⟨records, hrecords, hs⟩ := bind_eq_ok.1 hs
  obtain rfl := pure_eq_ok.1 hs
  unfold copyPage
  rw [hrecords]
  dsimp only
  split
  · rfl
  · rw [Store.executeIn_of_applyAll hf ht h]

end

/-! ## All pages -/

/-- One page was fetched and copied between two states of a load. -/
structure Copies (e : Engine) (m : Mapping) (l : Loading) (p : SyncPage) (l' : Loading) : Prop where
  later : l.world.source.Later l'.world.source
  fetched : l.world.source.fetched l'.world.source = [p]
  database : l'.world.store.database = l.world.store.database
  failures : l'.world.store.failures = l.world.store.failures
  copied : ∃ s, m.copyState l.copied p = .ok s ∧ l'.copied = s.copiedAfter ∧
    l.transaction.working.applyAll (s.batch e.namespaceName) = .ok l'.transaction.working
  inside : ∀ d, l.transaction.Inside e.namespaceName d → l'.transaction.Inside e.namespaceName d

/-- A page that was fetched and copied. -/
theorem copies_of_fetch {p : SyncPage} {l l' : Loading} {token? : Option String}
    {source : ContentSource} {moment : Moment}
    (hfetch : l.world.source.fetch e.config signal token? l.moment.afterLook
      = (.ok p, source, moment))
    (hcopy : e.copyPage m p { l with moment := moment, world := { l.world with source := source } }
      = (.ok (), l')) : e.Copies m l p l' ∧ l'.world.source = source := by
  obtain ⟨hlater, hfetched, -⟩ := ContentSource.fetch_spec _ _ _ _ _ hfetch
  obtain ⟨hsource, hdatabase, hfailures⟩ :=
    e.copyPage_frame m p { l with moment := moment, world := { l.world with source := source } }
  rw [hcopy] at hsource hdatabase hfailures
  have hsource : l'.world.source = source := hsource
  obtain ⟨s, hs, hcopied, happly, hinside⟩ := copyPage_ok hcopy
  exact ⟨⟨hsource ▸ hlater, hsource ▸ hfetched, hdatabase, hfailures, ⟨s, hs, hcopied, happly⟩,
    hinside⟩, hsource⟩

/-- One round of a load: it stops and has published nothing, or it fetches and copies a page, and goes
on unless the page is the last. -/
theorem copyPages_step (e : Engine) (signal : Signal) (m : Mapping) (fuel : Nat)
    (token? : Option String) (l : Loading) :
    (∃ err l', e.copyPages signal m (fuel + 1) token? l = (.error err, l') ∧
      l.world.source.Later l'.world.source ∧
      l'.world.store.database = l.world.store.database) ∨
    ∃ p l', e.Copies m l p l' ∧ e.copyPages signal m (fuel + 1) token? l =
      if p.cursor.isDone then (.ok p.cursor.token, l')
      else e.copyPages signal m fuel (some p.cursor.token) l' := by
  rw [copyPages]
  split
  · exact .inl ⟨_, _, rfl, .refl _, rfl⟩
  · generalize hfetch : l.world.source.fetch e.config signal token? l.moment.afterLook = fetch
    obtain ⟨outcome, source, moment⟩ := fetch
    have hlater := (ContentSource.fetch_spec _ _ _ _ _ hfetch).1
    dsimp only
    cases outcome with
    | error err => exact .inl ⟨_, _, rfl, hlater, rfl⟩
    | ok page =>
      dsimp only
      have hframe := e.copyPage_frame m page
        { l with moment := moment, world := { l.world with source := source } }
      generalize hcopy : e.copyPage m page
        { l with moment := moment, world := { l.world with source := source } } = copy at hframe
      obtain ⟨copied, l'⟩ := copy
      obtain ⟨hsource, hdatabase, -⟩ := hframe
      dsimp only at hsource hdatabase ⊢
      cases copied with
      | error err => exact .inl ⟨_, _, rfl, hsource ▸ hlater, hdatabase⟩
      | ok u => exact .inr ⟨page, l', (copies_of_fetch hfetch hcopy).1, rfl⟩

/-- Copying pages asks the source for more and publishes nothing. -/
theorem copyPages_frame (e : Engine) (signal : Signal) (m : Mapping) :
    ∀ (fuel : Nat) (token? : Option String) (l : Loading),
      l.world.source.Later (e.copyPages signal m fuel token? l).2.world.source ∧
        (e.copyPages signal m fuel token? l).2.world.store.database = l.world.store.database
  | 0, _, l => ⟨.refl _, rfl⟩
  | fuel + 1, token?, l => by
    rcases e.copyPages_step signal m fuel token? l with
      ⟨err, l', hrun, hlater, hdatabase⟩ | ⟨p, l', hcopies, hrun⟩
    · rw [hrun]
      exact ⟨hlater, hdatabase⟩
    · rw [hrun]
      split
      · exact ⟨hcopies.later, hcopies.database⟩
      · obtain ⟨hlater, hdatabase⟩ :=
          copyPages_frame e signal m fuel (some p.cursor.token) l'
        exact ⟨hcopies.later.trans hlater, hdatabase.trans hcopies.database⟩

/-- Pages that were copied are all that were fetched and end the feed, and their batches were applied
to the working copy. -/
theorem copyPages_ok :
    ∀ {fuel : Nat} {token? : Option String} {l l' : Loading} {token : String},
      e.copyPages signal m fuel token? l = (.ok token, l') →
      SyncPage.EndAt (l.world.source.fetched l'.world.source) token ∧
        (∃ batches, m.copyBatches e.namespaceName l.copied
            (l.world.source.fetched l'.world.source) = .ok batches ∧
          l.transaction.working.applyAll batches.flatten = .ok l'.transaction.working) ∧
        ∀ d, l.transaction.Inside e.namespaceName d → l'.transaction.Inside e.namespaceName d
  | 0, _, _, _, _, h => by cases h
  | fuel + 1, token?, l, l', token, h => by
    rcases e.copyPages_step signal m fuel token? l with
      ⟨err, l₁, hrun, -⟩ | ⟨p, l₁, hcopies, hrun⟩
    · rw [hrun] at h
      cases h
    · rw [hrun] at h
      obtain ⟨s, hs, hcopied, hfirst⟩ := hcopies.copied
      split at h
      · next hdone =>
        cases h
        rw [hcopies.fetched]
        refine ⟨.last hdone, ⟨[s.batch e.namespaceName], bind_eq_ok.2 ⟨s, hs, rfl⟩, ?_⟩,
          hcopies.inside⟩
        rw [List.flatten_singleton]
        exact hfirst
      · next hmore =>
        obtain ⟨hend, ⟨batches, hbatches, hrest⟩, hinside⟩ := copyPages_ok h
        have hlater : l₁.world.source.Later l'.world.source := by
          have := (e.copyPages_frame signal m fuel (some p.cursor.token) l₁).1
          rwa [h] at this
        rw [hcopies.later.fetched_append hlater, hcopies.fetched, List.singleton_append]
        refine ⟨.more (Bool.eq_false_iff.2 hmore) hend, ⟨s.batch e.namespaceName :: batches,
          bind_eq_ok.2 ⟨s, hs, bind_eq_ok.2 ⟨batches, hcopied ▸ hbatches, rfl⟩⟩, ?_⟩,
          fun d hd => hinside d (hcopies.inside d hd)⟩
        exact Database.applyAll_append.2 ⟨_, hfirst, hrest⟩

/-- Without failures and without a stop, a page that is prepared is copied if its batch can be
applied. -/
theorem copyPages_of_page {p : SyncPage} {rest : List Answer} {l : Loading} {s : CopyState}
    {d working : Database} (hanswers : l.world.source.answers = .ok p :: rest)
    (hf : l.world.store.failures = []) (hd : l.transaction.Inside e.namespaceName d)
    (hs : m.copyState l.copied p = .ok s)
    (h : l.transaction.working.applyAll (s.batch e.namespaceName) = .ok working) (fuel : Nat)
    (token? : Option String) :
    ∃ l', e.Copies m l p l' ∧ l'.world.source.answers = rest ∧
      e.copyPages .never m (fuel + 1) token? l =
        if p.cursor.isDone then (.ok p.cursor.token, l')
        else e.copyPages .never m fuel (some p.cursor.token) l' := by
  obtain ⟨source, moment, hfetch, hrest⟩ :=
    ContentSource.fetch_of_page hanswers e.config .never token? l.moment.afterLook
  have hcopied := copyPage_of_applyAll (e := e)
    (l := { l with moment := moment, world := { l.world with source := source } })
    hf hd.notAborted hs h
  generalize hcopy : e.copyPage m p
    { l with moment := moment, world := { l.world with source := source } } = copy at hcopied
  obtain ⟨result, l'⟩ := copy
  obtain rfl : result = .ok () := hcopied
  obtain ⟨hcopies, hsource⟩ := copies_of_fetch hfetch hcopy
  refine ⟨l', hcopies, hsource ▸ hrest, ?_⟩
  rw [copyPages, if_neg (show ¬ Signal.never.hasCome l.moment = true from Bool.false_ne_true),
    hfetch]
  dsimp only
  rw [hcopy]

/-- Without failures and without a stop, pages are copied if they end the feed and their batches can
be applied. -/
theorem copyPages_of_pages {rest : List Answer} {d : Database} :
    ∀ {pages : List SyncPage} {token : String} {fuel : Nat} {token? : Option String} {l : Loading}
      {batches : List (List Statement)}, SyncPage.EndAt pages token → pages.length ≤ fuel →
      l.world.source.answers = pages.map .ok ++ rest → l.world.store.failures = [] →
      l.transaction.Inside e.namespaceName d →
      m.copyBatches e.namespaceName l.copied pages = .ok batches →
      (∃ working, l.transaction.working.applyAll batches.flatten = .ok working) →
      ∃ l', e.copyPages .never m fuel token? l = (.ok token, l') ∧
        l.world.source.fetched l'.world.source = pages ∧ l'.world.store.failures = [] := by
  intro pages
  induction pages with
  | nil => intro token fuel token? l batches hend; cases hend
  | cons p pages ih =>
    intro token fuel token? l batches hend hfuel hanswers hf hd hbatches hrun
    obtain _ | fuel := fuel
    · cases hfuel
    obtain ⟨s, hs, hbatches⟩ := bind_eq_ok.1 hbatches
    obtain ⟨others, hothers, hbatches⟩ := bind_eq_ok.1 hbatches
    obtain rfl := pure_eq_ok.1 hbatches
    obtain ⟨working, hrun⟩ := hrun
    obtain ⟨first, hfirst, hrun⟩ := Database.applyAll_append.1 hrun
    obtain ⟨l', hcopies, hrest, hpages⟩ :=
      copyPages_of_page hanswers hf hd hs hfirst fuel token?
    obtain ⟨s', hs', hcopied, happly⟩ := hcopies.copied
    obtain rfl := Except.ok.inj (hs.symm.trans hs')
    obtain rfl := Except.ok.inj (hfirst.symm.trans happly)
    rw [hpages]
    cases hend with
    | last hdone =>
      rw [if_pos hdone]
      exact ⟨l', rfl, hcopies.fetched, hcopies.failures.trans hf⟩
    | more hmore hend =>
      rw [if_neg (Bool.eq_false_iff.1 hmore)]
      obtain ⟨l'', hloop, hfetched, hfailures⟩ := ih hend (Nat.le_of_succ_le_succ hfuel) hrest
        (hcopies.failures.trans hf) (hcopies.inside d hd) (hcopied ▸ hothers) ⟨working, hrun⟩
      have hlater : l'.world.source.Later l''.world.source := by
        have := (e.copyPages_frame .never m fuel (some p.cursor.token) l').1
        rwa [hloop] at this
      refine ⟨l'', hloop, ?_, hfailures⟩
      rw [hcopies.later.fetched_append hlater, hcopies.fetched, hfetched, List.singleton_append]

/-! ## The whole load -/

/-- The statements at the end of a load: the token, if it is to be stored. -/
def closing (e : Engine) (save : Bool) (token : String) : List Statement :=
  if save then [.saveSyncToken e.namespaceName token] else []

/-- The statements at the end of a load stay inside its namespace. -/
theorem closing_local (e : Engine) (save : Bool) (token : String) :
    ∀ statement ∈ e.closing save token, statement.InNamespace e.namespaceName := by
  unfold closing
  split
  · exact List.forall_mem_singleton.2 ⟨rfl, rfl⟩
  · exact nofun

/-- The statements of a load stay inside its namespace. -/
theorem load_local {copied : ByRecord Unit} {pages : List SyncPage} {batches : List (List Statement)}
    (h : m.copyBatches e.namespaceName copied pages = .ok batches) (save : Bool) (token : String) :
    ∀ statement ∈ batches.flatten ++ e.closing save token, statement.InNamespace e.namespaceName :=
  fun statement hs => (List.mem_append.1 hs).elim (Mapping.copyBatches_local h statement)
    (e.closing_local save token statement)

section
variable {save : Bool} {token : String} {l l' : Loading}

/-- Storing the token asks the source for nothing and publishes nothing. -/
theorem saveToken_frame (e : Engine) (save : Bool) (token : String) (l : Loading) :
    (e.saveToken save token l).2.world.source = l.world.source ∧
      (e.saveToken save token l).2.world.store.database = l.world.store.database := by
  unfold saveToken
  split
  · exact ⟨rfl, (l.world.store.executeIn_database l.transaction
      [.saveSyncToken e.namespaceName token]).1⟩
  · exact ⟨rfl, rfl⟩

/-- A token that was stored was stored in the working copy. -/
theorem saveToken_ok (h : e.saveToken save token l = (.ok (), l')) :
    l.transaction.working.applyAll (e.closing save token) = .ok l'.transaction.working ∧
      ∀ d, l.transaction.Inside e.namespaceName d → l'.transaction.Inside e.namespaceName d := by
  unfold saveToken at h
  unfold closing
  split at h
  · next hsave =>
    rw [if_pos hsave]
    generalize hrun : l.world.store.executeIn l.transaction
      [.saveSyncToken e.namespaceName token] = run at h
    obtain ⟨result, transaction, store⟩ := run
    cases h
    exact ⟨(Store.executeIn_ok hrun).1, fun d hd =>
      Store.executeIn_inside hd (List.forall_mem_singleton.2 ⟨rfl, rfl⟩) hrun⟩
  · next hsave =>
    cases h
    rw [if_neg hsave]
    exact ⟨rfl, fun _ hd => hd⟩

/-- Without failures a token is stored if it can be. -/
theorem saveToken_of_applyAll (hf : l.world.store.failures = []) (ht : l.transaction.aborted = false)
    {d : Database} (h : l.transaction.working.applyAll (e.closing save token) = .ok d) :
    (e.saveToken save token l).1 = .ok () := by
  unfold saveToken
  unfold closing at h
  split
  · next hsave =>
    rw [if_pos hsave] at h
    rw [Store.executeIn_of_applyAll hf ht h]
  · rfl

end

/-- A load whose pages were copied and whose token was stored commits the working copy. -/
theorem load_of_steps {save : Bool} {start : Moment} {w : World} {token : String} {l l' : Loading}
    (hm : Mapping.of e.schema e.space = .ok m)
    (hcopy : e.copyPages signal m (w.source.answers.length + 1) none
      ⟨w, w.store.begin, start, .empty, { mode := .initial }⟩ = (.ok token, l))
    (hsave : e.saveToken save token l = (.ok (), l')) :
    ∃ store, store.database = l'.transaction.working ∧ e.load signal save start w =
      ⟨.ok { l'.report with token? := some token }, { l'.world with store := store }, l'.moment⟩ := by
  obtain ⟨-, -, hcopied⟩ := copyPages_ok hcopy
  obtain ⟨-, hsaved⟩ := saveToken_ok hsave
  have hopen := hsaved _ (hcopied _ (w.store.begin_inside e.namespaceName))
  have hdatabase : l'.world.store.database = w.store.database := by
    have hcopyFrame := (e.copyPages_frame signal m (w.source.answers.length + 1) none
      ⟨w, w.store.begin, start, .empty, { mode := .initial }⟩).2
    have hsaveFrame := (e.saveToken_frame save token l).2
    rw [hcopy] at hcopyFrame
    rw [hsave] at hsaveFrame
    exact hsaveFrame.trans hcopyFrame
  rw [← hdatabase] at hopen
  obtain ⟨store, hcommit, hpublished, -⟩ := Store.commit_inside hopen
  refine ⟨store, hpublished, ?_⟩
  unfold load
  rw [hm]
  dsimp only
  rw [hcopy]
  dsimp only
  rw [hsave]
  dsimp only
  rw [hcommit]
  rfl

/-- What a load does: it fails and publishes nothing, or it publishes what the batches of all pages that
it fetched, up to the end of the feed, make of the data, with the token if it was to be stored. -/
theorem load_cases (e : Engine) (signal : Signal) (save : Bool) (start : Moment) (w : World) :
    w.source.Later (e.load signal save start w).world.source ∧
      ((∃ err, (e.load signal save start w).result = .error err ∧
        (e.load signal save start w).world.store.database = w.store.database) ∨
      ∃ report m token batches, (e.load signal save start w).result = .ok report ∧
        Mapping.of e.schema e.space = .ok m ∧
        SyncPage.EndAt (w.source.fetched (e.load signal save start w).world.source) token ∧
        m.copyBatches e.namespaceName .empty
          (w.source.fetched (e.load signal save start w).world.source) = .ok batches ∧
        w.store.database.applyAll (batches.flatten ++ e.closing save token)
          = .ok (e.load signal save start w).world.store.database) := by
  cases hm : Mapping.of e.schema e.space with
  | error err =>
    have hrun : e.load signal save start w = ⟨.error err, w, start⟩ := by
      unfold load
      rw [hm]
    rw [hrun]
    exact ⟨.refl _, .inl ⟨err, rfl, rfl⟩⟩
  | ok m =>
    let l₀ : Loading := ⟨w, w.store.begin, start, .empty, { mode := .initial }⟩
    have hframe := e.copyPages_frame signal m (w.source.answers.length + 1) none l₀
    cases hcopy : e.copyPages signal m (w.source.answers.length + 1) none l₀ with
    | mk copied l₁ =>
    rw [hcopy] at hframe
    obtain ⟨hlater, hdatabase⟩ := hframe
    cases copied with
    | error err =>
      have hrun : e.load signal save start w = ⟨.error err, l₁.world, l₁.moment⟩ := by
        unfold load
        rw [hm]
        dsimp only
        rw [hcopy]
      rw [hrun]
      exact ⟨hlater, .inl ⟨err, rfl, hdatabase⟩⟩
    | ok token =>
    have hframe := e.saveToken_frame save token l₁
    cases hsave : e.saveToken save token l₁ with
    | mk saved l₂ =>
    rw [hsave] at hframe
    obtain ⟨hsource, hsavedDatabase⟩ := hframe
    dsimp only at hlater hsource
    rw [← hsource] at hlater
    cases saved with
    | error err =>
      have hrun : e.load signal save start w = ⟨.error err, l₂.world, l₂.moment⟩ := by
        unfold load
        rw [hm]
        dsimp only
        rw [hcopy]
        dsimp only
        rw [hsave]
      rw [hrun]
      exact ⟨hlater, .inl ⟨err, rfl, hsavedDatabase.trans hdatabase⟩⟩
    | ok u =>
      obtain ⟨store, hpublished, hrun⟩ := load_of_steps hm hcopy hsave
      obtain ⟨hend, ⟨batches, hbatches, hcopied⟩, -⟩ := copyPages_ok hcopy
      obtain ⟨hsaved, -⟩ := saveToken_ok hsave
      rw [hrun]
      dsimp only
      rw [hpublished, hsource]
      exact ⟨hsource ▸ hlater, .inr ⟨_, m, token, batches, rfl, rfl, hend, hbatches,
        Database.applyAll_append.2 ⟨_, hcopied, hsaved⟩⟩⟩

/-- A load changes no namespace but its own. -/
theorem load_frame (e : Engine) (signal : Signal) (save : Bool) (start : Moment) (w : World)
    {name : Ident} (hn : name ≠ e.namespaceName) :
    (e.load signal save start w).world.store.namespace? name = w.store.namespace? name := by
  unfold Store.namespace?
  obtain ⟨-, ⟨err, -, hdatabase⟩ | ⟨report, m, token, batches, -, -, -, hbatches, happly⟩⟩ :=
    e.load_cases signal save start w
  · rw [hdatabase]
  · exact Database.applyAll_frame happly fun statement hs =>
      (load_local hbatches save token statement hs).not_writes hn

/-- Without failures and without a stop, a load succeeds on pages that end the feed and whose batches
can be applied, and publishes what these make of the data. -/
theorem load_of_pages {save : Bool} {start : Moment} {w : World} {pages : List SyncPage}
    {token : String} {rest : List Answer} {batches : List (List Statement)} {d : Database}
    (hm : Mapping.of e.schema e.space = .ok m) (hend : SyncPage.EndAt pages token)
    (hanswers : w.source.answers = pages.map .ok ++ rest) (hf : w.store.failures = [])
    (hbatches : m.copyBatches e.namespaceName .empty pages = .ok batches)
    (h : w.store.database.applyAll (batches.flatten ++ e.closing save token) = .ok d) :
    ∃ report, (e.load .never save start w).result = .ok report ∧
      (e.load .never save start w).world.store.database = d := by
  obtain ⟨working, hcopied, hclosing⟩ := Database.applyAll_append.1 h
  let l₀ : Loading := ⟨w, w.store.begin, start, .empty, { mode := .initial }⟩
  have hfuel : pages.length ≤ w.source.answers.length + 1 := by
    rw [hanswers, List.length_append, List.length_map]
    omega
  have hopen := w.store.begin_inside e.namespaceName
  obtain ⟨l₁, hcopy, hfetched, hfailures⟩ :
      ∃ l₁, e.copyPages .never m (w.source.answers.length + 1) none l₀ = (.ok token, l₁) ∧
        w.source.fetched l₁.world.source = pages ∧ l₁.world.store.failures = [] :=
    copyPages_of_pages hend hfuel hanswers hf hopen hbatches ⟨working, hcopied⟩
  obtain ⟨-, ⟨batches', hbatches', hcopied'⟩, hinside⟩ := copyPages_ok hcopy
  change m.copyBatches _ _ (w.source.fetched l₁.world.source) = _ at hbatches'
  rw [hfetched] at hbatches'
  obtain rfl := Except.ok.inj (hbatches.symm.trans hbatches')
  obtain rfl : working = l₁.transaction.working := Except.ok.inj (hcopied.symm.trans hcopied')
  have hsaved := saveToken_of_applyAll hfailures (hinside _ hopen).notAborted hclosing
  generalize hsave : e.saveToken save token l₁ = run at hsaved
  obtain ⟨result, l₂⟩ := run
  obtain rfl : result = .ok () := hsaved
  obtain ⟨happly, -⟩ := saveToken_ok hsave
  obtain ⟨store, hpublished, hrun⟩ := load_of_steps hm hcopy hsave
  rw [hrun]
  exact ⟨_, rfl, hpublished.trans (Except.ok.inj (happly.symm.trans hclosing))⟩

end Engine

end ContentReplica
