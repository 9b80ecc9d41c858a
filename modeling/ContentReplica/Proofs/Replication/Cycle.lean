import ContentReplica.Proofs.Replication.BulkAgrees
import ContentReplica.Proofs.Replication.News

/-!
# Cycles

Rows and token move together: wherever a cycle stops, the namespace is as it was, or it is that of a
page of the feed with the token of this page (`Engine.run_commits`). So a cycle of news that fails and
the next one, which succeeds, have done together what one cycle does (`Engine.Follows`).
-/

namespace ContentReplica

/-- The same data beside a source that has prepared some pages, without failures. -/
def World.undisturbed (w : World) (pages : List SyncPage) : World :=
  ⟨{ w.source with answers := pages.map .ok }, w.store.clearFailures⟩

namespace Engine

variable {e : Engine} {signal : Signal} {w : World}

/-! ## The two kinds of cycles -/

/-- Without a stored token a cycle is a load. -/
theorem run_of_none (h : w.store.syncToken? e.namespaceName = none) :
    e.run signal w = e.load signal true .start w := by
  unfold run
  rw [h]

/-- With a stored token a cycle brings the news since then. -/
theorem run_of_some {token : String} (h : w.store.syncToken? e.namespaceName = some token) :
    e.run signal w = e.delta signal token .start w := by
  unfold run
  rw [h]

/-- A cycle changes no namespace but that of its replica. -/
theorem run_frame (e : Engine) (signal : Signal) (w : World) {name : Ident}
    (hn : name ≠ e.namespaceName) :
    (e.run signal w).world.store.namespace? name = w.store.namespace? name := by
  cases htoken : w.store.syncToken? e.namespaceName with
  | none =>
    rw [run_of_none htoken]
    exact e.load_frame signal true .start w hn
  | some token =>
    rw [run_of_some htoken]
    exact e.delta_frame signal token .start w hn

/-- An engine has committed when its cycle succeeded. -/
theorem committed_iff (c : CycleEnd) : c.state = .committed ↔ ∃ report, c.result = .ok report := by
  unfold CycleEnd.state
  cases c.result with
  | error err => exact ⟨nofun, nofun⟩
  | ok report => exact ⟨fun _ => ⟨report, rfl⟩, fun _ => rfl⟩

/-- What a cycle leaves that has loaded the feed: all pages that it fetched, up to the end of the feed,
with the token there. -/
structure Loaded (e : Engine) (w : World) (c : CycleEnd) (token : String) : Prop where
  succeeded : ∃ report, c.result = .ok report
  endAt : SyncPage.EndAt (w.source.fetched c.world.source) token
  copied : ∃ m batches, Mapping.of e.schema e.space = .ok m ∧
    m.copyBatches e.namespaceName .empty (w.source.fetched c.world.source) = .ok batches ∧
    w.store.database.applyAll (batches.flatten ++ [.saveSyncToken e.namespaceName token])
      = .ok c.world.store.database
  syncToken? : c.world.store.syncToken? e.namespaceName = some token

/-- What a cycle leaves that has continued at a token: the first `k` of the pages that it fetched, with
the token of the `k`-th. It has succeeded if that page completes the cycle. -/
structure Continued (e : Engine) (w : World) (token : String) (c : CycleEnd) (k : Nat) : Prop where
  fetched : k ≤ (w.source.fetched c.world.source).length
  applied : ∃ batches,
    ((w.source.fetched c.world.source).take k).mapM e.pageBatch = .ok batches ∧
    w.store.database.applyAll batches.flatten = .ok c.world.store.database
  syncToken? : c.world.store.syncToken? e.namespaceName
    = some (SyncPage.tokenAfter token ((w.source.fetched c.world.source).take k))
  succeeded_iff : (∃ report, c.result = .ok report) ↔
    ∃ p, ((w.source.fetched c.world.source).take k).getLast? = some p ∧ p.cursor.isDone = true

/-- A cycle without a stored token fails and changes nothing, or it has loaded the feed. -/
theorem run_loads (signal : Signal) (h : w.store.syncToken? e.namespaceName = none) :
    ((∃ err, (e.run signal w).result = .error err) ∧
      (e.run signal w).world.store.database = w.store.database) ∨
    ∃ token, e.Loaded w (e.run signal w) token := by
  rw [run_of_none h]
  obtain ⟨-, ⟨err, herr, hdatabase⟩ | ⟨report, m, token, batches, hok, hm, hend, hbatches, happly⟩⟩ :=
    e.load_cases signal true .start w
  · exact .inl ⟨⟨err, herr⟩, hdatabase⟩
  · refine .inr ⟨token, ⟨report, hok⟩, hend, ⟨m, batches, hm, hbatches, happly⟩, ?_⟩
    obtain ⟨d, -, hlast⟩ := Database.applyAll_append.1 happly
    exact Database.syncToken?_saveSyncToken (Database.applyAll_singleton.1 hlast)

/-- A cycle with a stored token has continued there. -/
theorem run_continues (signal : Signal) {token : String}
    (h : w.store.syncToken? e.namespaceName = some token) :
    ∃ k, e.Continued w token (e.run signal w) k := by
  rw [run_of_some h]
  obtain ⟨applied, batches, -, hprefix, hbatches, happly, -, hresult⟩ :=
    e.delta_cases signal token .start w
  have hfirst := List.prefix_iff_eq_take.1 hprefix
  refine ⟨applied.length, hprefix.length_le, ?_, ?_, ?_⟩
  · rw [← hfirst]
    exact ⟨batches, hbatches, happly⟩
  · rw [← hfirst]
    exact Database.syncToken?_pages hbatches happly h
  · rw [← hfirst]
    rcases hresult with ⟨err, herr, hnone⟩ | ⟨report, last, hok, hend⟩
    · rw [herr]
      refine ⟨nofun, ?_⟩
      rintro ⟨p, hp, hdone⟩
      rw [hnone p (List.mem_of_getLast? hp)] at hdone
      cases hdone
    · exact ⟨fun _ => hend.getLast?, fun _ => ⟨report, hok⟩⟩

/-! ## Cycles one after the other -/

/-- The second data are the first with all pages applied that a feed has from a token on, up to the
end of the cycle. -/
def Follows (e : Engine) (feed : String → SyncPage) (token : String) (d d' : Database) : Prop :=
  ∃ pages batches last, SyncPage.ChainFrom feed token pages ∧ SyncPage.EndAt pages last ∧
    pages.mapM e.pageBatch = .ok batches ∧ d.applyAll batches.flatten = .ok d'

section
variable {feed : String → SyncPage} {token : String} {d d' d'' : Database}

/-- The pages of a feed leave the same data each time. -/
theorem Follows.unique (h : e.Follows feed token d d') (h' : e.Follows feed token d d'') :
    d' = d'' := by
  obtain ⟨pages, batches, last, hchain, hend, hbatches, happly⟩ := h
  obtain ⟨pages', batches', last', hchain', hend', hbatches', happly'⟩ := h'
  obtain rfl := SyncPage.ChainFrom.unique hend hchain hchain' hend'
  obtain rfl := Except.ok.inj (hbatches.symm.trans hbatches')
  exact Except.ok.inj (happly.symm.trans happly')

/-- A cycle of news that succeeds applies the pages of the feed. -/
theorem follows_of_run (h : w.store.syncToken? e.namespaceName = some token)
    (hfeed : ContentSource.Answers feed w.source (e.run signal w).world.source)
    (hok : ∃ report, (e.run signal w).result = .ok report) :
    e.Follows feed token w.store.database (e.run signal w).world.store.database := by
  rw [run_of_some h] at hfeed hok ⊢
  obtain ⟨report, hok⟩ := hok
  obtain ⟨applied, batches, -, -, hbatches, happly, hchain, hresult⟩ :=
    e.delta_cases signal token .start w
  rcases hresult with ⟨err, herr, -⟩ | ⟨report', last, -, hend⟩
  · rw [hok] at herr
    cases herr
  · exact ⟨applied, batches, last, hchain feed hfeed, hend, hbatches, happly⟩

/-- A cycle of news that fails stores the token at which the rest of the feed follows. -/
theorem follows_of_failed_run (h : w.store.syncToken? e.namespaceName = some token)
    (hfeed : ContentSource.Answers feed w.source (e.run signal w).world.source)
    (herr : ∃ err, (e.run signal w).result = .error err) :
    ∃ next, (e.run signal w).world.store.syncToken? e.namespaceName = some next ∧
      (e.Follows feed next (e.run signal w).world.store.database d →
        e.Follows feed token w.store.database d) := by
  rw [run_of_some h] at hfeed herr ⊢
  obtain ⟨err, herr⟩ := herr
  obtain ⟨applied, batches, -, -, hbatches, happly, hchain, hresult⟩ :=
    e.delta_cases signal token .start w
  rcases hresult with ⟨err', -, hnone⟩ | ⟨report', last, hok, -⟩
  · refine ⟨_, Database.syncToken?_pages hbatches happly h, ?_⟩
    rintro ⟨pages, batches', last, hchain', hend, hbatches', happly'⟩
    refine ⟨applied ++ pages, batches ++ batches', last, (hchain feed hfeed).append hchain',
      hend.append hnone, mapM_append_ok hbatches hbatches', ?_⟩
    rw [List.flatten_append]
    exact Database.applyAll_append.2 ⟨_, happly, happly'⟩
  · rw [hok] at herr
    cases herr

/-- Pages of a feed that can be applied are applied by a cycle of news that nothing disturbs. -/
theorem exists_run_of_follows (h : w.store.syncToken? e.namespaceName = some token)
    (hfollows : e.Follows feed token w.store.database d) :
    ∃ pages report, SyncPage.ChainFrom feed token pages ∧
      (e.run .never (w.undisturbed pages)).result = .ok report ∧
      (e.run .never (w.undisturbed pages)).world.store.database = d := by
  obtain ⟨pages, batches, last, hchain, hend, hbatches, happly⟩ := hfollows
  have hrun : e.run .never (w.undisturbed pages) = e.delta .never token .start (w.undisturbed pages) :=
    run_of_some h
  have hundisturbed : ∃ report, (e.delta .never token .start (w.undisturbed pages)).result
        = .ok report ∧
      (e.delta .never token .start (w.undisturbed pages)).world.store.database = d :=
    delta_of_pages hend (List.append_nil _).symm rfl hbatches happly
  rw [← hrun] at hundisturbed
  obtain ⟨report, hok, hdatabase⟩ := hundisturbed
  exact ⟨pages, report, hchain, hok, hdatabase⟩

end

/-! ## The guarantee -/

/-- Rows and token move together. No other namespace changes, and the engine has committed when the
cycle succeeded. Without a stored token a cycle fails and changes nothing, or it has loaded the feed;
with one it has continued there. Against a feed with one page for every token, a cycle of news that
fails and a next one that succeeds leave the data that each undisturbed cycle leaves, and there is
such a cycle. -/
theorem run_commits (e : Engine) (signal : Signal) (w : World) :
    (∀ name, name ≠ e.namespaceName →
      (e.run signal w).world.store.namespace? name = w.store.namespace? name) ∧
    ((e.run signal w).state = .committed ↔ ∃ report, (e.run signal w).result = .ok report) ∧
    (w.store.syncToken? e.namespaceName = none →
      ((∃ err, (e.run signal w).result = .error err) ∧
        (e.run signal w).world.store.database = w.store.database) ∨
      ∃ token, e.Loaded w (e.run signal w) token) ∧
    ∀ token, w.store.syncToken? e.namespaceName = some token →
      (∃ k, e.Continued w token (e.run signal w) k) ∧
      ∀ (feed : String → SyncPage) (next : Signal) (again : World),
        (∃ err, (e.run signal w).result = .error err) →
        again.store.database = (e.run signal w).world.store.database →
        (∃ report, (e.run next again).result = .ok report) →
        ContentSource.Answers feed w.source (e.run signal w).world.source →
        ContentSource.Answers feed again.source (e.run next again).world.source →
        (∀ (other : Signal) (whole : World), whole.store.database = w.store.database →
          (∃ report, (e.run other whole).result = .ok report) →
          ContentSource.Answers feed whole.source (e.run other whole).world.source →
          (e.run other whole).world.store.database = (e.run next again).world.store.database) ∧
        ∃ pages report, SyncPage.ChainFrom feed token pages ∧
          (e.run .never (w.undisturbed pages)).result = .ok report ∧
          (e.run .never (w.undisturbed pages)).world.store.database
            = (e.run next again).world.store.database := by
  refine ⟨fun name hn => e.run_frame signal w hn, committed_iff _, run_loads signal,
    fun token h => ⟨run_continues signal h, ?_⟩⟩
  intro feed next again hfail hagain hok hfeed hfeed'
  have hfollows : e.Follows feed token w.store.database (e.run next again).world.store.database := by
    -- the failed cycle stored the token at which the next one continues
    obtain ⟨rest, hrest, hbefore⟩ := follows_of_failed_run h hfeed hfail
    have hstored : again.store.syncToken? e.namespaceName = some rest := by
      unfold Store.syncToken?
      rw [hagain]
      exact hrest
    have hsecond := follows_of_run hstored hfeed' hok
    rw [hagain] at hsecond
    exact hbefore hsecond
  refine ⟨fun other whole hwhole hwholeOk hwholeFeed => ?_, exists_run_of_follows h hfollows⟩
  have hstored : whole.store.syncToken? e.namespaceName = some token := by
    unfold Store.syncToken?
    rw [hwhole]
    exact h
  have hwholeFollows := follows_of_run hstored hwholeFeed hwholeOk
  rw [hwhole] at hwholeFollows
  exact hwholeFollows.unique hfollows

end Engine

namespace Catalog

/-- The feed of the catalog since a token. -/
def feed (token : String) : SyncPage :=
  if token = "start" then pages.head (List.cons_ne_nil _ _)
  else pages.getLast (List.cons_ne_nil _ _)

/-- A store with a token, beside a source that fails after one page. -/
def interrupted : World :=
  ⟨{ source with answers := [.ok (feed "start"), .error (.internal "unreachable")] },
    (setUp.execute [.saveSyncToken namespaceName "start"]).2⟩

/-- What the interrupted cycle leaves, beside the source with its second page. -/
def resumed : World :=
  ⟨{ source with answers := [.ok (feed "first")] }, (engine.run .never interrupted).world.store⟩

/-- What a store holds of the catalog: the ids, names and prices of its products, the ids of its tags
and the token. -/
def holdings (s : Store) : List (List (Option String)) × List (Option String) × Option String :=
  ((s.rows namespaceName productTable.name).map fun row =>
      [Column.sysId, ⟨"name"⟩, ⟨"price"⟩].map fun c => (row.cell c).toText?,
    (s.rows namespaceName tagTable.name).map fun row => (row.cell Column.sysId).toText?,
    s.syncToken? namespaceName)

end Catalog

/-- The feed of the catalog is loaded at once: the product as the last page delivers it, and not the tag
that this page deletes. Its news are applied by a cycle that fails after the first page, with the tag
and the product as it was, and one that continues there. -/
theorem Engine.run_commits_catalog :
    (∃ token, Catalog.engine.Loaded ⟨Catalog.source, Catalog.setUp⟩
      (Catalog.engine.run .never ⟨Catalog.source, Catalog.setUp⟩) token) ∧
    (∃ k, Catalog.engine.Continued Catalog.interrupted "start"
      (Catalog.engine.run .never Catalog.interrupted) k) ∧
    (∃ pages report, SyncPage.ChainFrom Catalog.feed "start" pages ∧
      (Catalog.engine.run .never (Catalog.interrupted.undisturbed pages)).result = .ok report ∧
      (Catalog.engine.run .never (Catalog.interrupted.undisturbed pages)).world.store.database
        = (Catalog.engine.run .never Catalog.resumed).world.store.database) ∧
    Catalog.holdings (Catalog.engine.run .never ⟨Catalog.source, Catalog.setUp⟩).world.store
      = ([[some "p1", some "Pencil", some "4"]], [], some "second") ∧
    Catalog.holdings (Catalog.engine.run .never Catalog.interrupted).world.store
      = ([[some "p1", some "Pen", some "3"]], [some "t1"], some "first") ∧
    Catalog.holdings (Catalog.engine.run .never Catalog.resumed).world.store
      = ([[some "p1", some "Pencil", some "4"]], [], some "second") := by
  obtain ⟨-, -, hload, -⟩ := run_commits Catalog.engine .never ⟨Catalog.source, Catalog.setUp⟩
  obtain ⟨-, -, -, hnews⟩ := run_commits Catalog.engine .never Catalog.interrupted
  have hloaded : Catalog.setUp.syncToken? Catalog.namespaceName = none ∧
      (Catalog.engine.run .never ⟨Catalog.source, Catalog.setUp⟩).result.isOk = true := by
    decide +kernel
  have hinterrupted :
      Catalog.interrupted.store.syncToken? Catalog.namespaceName = some "start" ∧
      (Catalog.engine.run .never Catalog.interrupted).result.isOk = false ∧
      (Catalog.engine.run .never Catalog.interrupted).world.source.requests
        = Catalog.interrupted.source.requests ++ [some "start", some "first"] := by
    decide +kernel
  have hresumed : (Catalog.engine.run .never Catalog.resumed).result.isOk = true ∧
      (Catalog.engine.run .never Catalog.resumed).world.source.requests
        = Catalog.resumed.source.requests ++ [some "first"] := by
    decide +kernel
  obtain ⟨hstored, hfailed, hrequests⟩ := hinterrupted
  obtain ⟨hcontinued, hresume⟩ := hnews "start" hstored
  refine ⟨?_, hcontinued, ?_, by decide +kernel⟩
  · refine (hload hloaded.1).resolve_left ?_
    rintro ⟨⟨err, herr⟩, -⟩
    obtain ⟨report, hok⟩ := exists_of_isOk hloaded.2
    rw [herr] at hok
    cases hok
  · have hfirst : ContentSource.Answers Catalog.feed Catalog.interrupted.source
        (Catalog.engine.run .never Catalog.interrupted).world.source := by
      intro token p hp
      rw [ContentSource.exchanges_eq hrequests] at hp
      rcases List.mem_cons.1 hp with hp | hp
      · cases hp
        rfl
      · cases List.mem_singleton.1 hp
    have hsecond : ContentSource.Answers Catalog.feed Catalog.resumed.source
        (Catalog.engine.run .never Catalog.resumed).world.source := by
      intro token p hp
      rw [ContentSource.exchanges_eq hresumed.2] at hp
      cases List.mem_singleton.1 hp
      rfl
    exact (hresume Catalog.feed .never Catalog.resumed (exists_of_not_isOk hfailed) rfl
      (exists_of_isOk hresumed.1) hfirst hsecond).2

end ContentReplica
