import ContentReplica.Proofs.Replication.Exchange
import ContentReplica.Proofs.Replication.Feed
import ContentReplica.Proofs.Store.Batch
import ContentReplica.Replication.Engine

/-!
# News, page by page

A cycle of news applies each page with its token as one batch. Wherever it stops, the data are what
the batches of the first pages that it fetched make of them (`Engine.applyPages_cases`), and the
stored token is that of the last of these pages (`Database.syncToken?_pages`). Without failures and
without a stop it applies the pages to their end (`Engine.delta_of_pages`).

Against a feed that has one page for every token the applied pages are those that the feed has one
after the other from the first token on (`SyncPage.ChainFrom`), so where they end is settled
(`SyncPage.ChainFrom.unique`).
-/

namespace ContentReplica

/-! ## Pages of a feed -/

namespace SyncPage

/-- The pages that a feed has one after the other from a token on. -/
def ChainFrom (feed : String → SyncPage) : String → List SyncPage → Prop
  | _, [] => True
  | token, p :: pages => p = feed token ∧ ChainFrom feed p.cursor.token pages

/-- The token at which a feed continues after some pages. -/
def tokenAfter (token : String) (pages : List SyncPage) : String :=
  (pages.getLast?.map fun p => p.cursor.token).getD token

/-- A first page moves the token to its own. -/
theorem tokenAfter_cons (token : String) (p : SyncPage) (pages : List SyncPage) :
    tokenAfter token (p :: pages) = tokenAfter p.cursor.token pages := by
  unfold tokenAfter
  cases pages with
  | nil => rfl
  | cons q pages =>
    rw [List.getLast?_cons_cons]
    rfl

/-- The last of the pages that end a cycle completes it. -/
theorem EndAt.getLast? {pages : List SyncPage} {token : String} (h : EndAt pages token) :
    ∃ p, pages.getLast? = some p ∧ p.cursor.isDone = true := by
  induction h with
  | last hdone => exact ⟨_, rfl, hdone⟩
  | @more p pages _ _ hend ih =>
    obtain ⟨last, hlast, hdone⟩ := ih
    cases hend with
    | last => exact ⟨last, hlast, hdone⟩
    | more => exact ⟨last, List.getLast?_cons_cons.trans hlast, hdone⟩

/-- Pages that do not complete a cycle may stand before pages that end it. -/
theorem EndAt.append {first pages : List SyncPage} {token : String} (h : EndAt pages token)
    (hfirst : ∀ p ∈ first, p.cursor.isDone = false) : EndAt (first ++ pages) token := by
  induction first with
  | nil => exact h
  | cons p first ih =>
    exact .more (hfirst p (List.mem_cons_self ..))
      (ih fun q hq => hfirst q (List.mem_cons_of_mem _ hq))

namespace ChainFrom

variable {feed : String → SyncPage}

/-- A chain goes on where its first part ends. -/
theorem append : ∀ {token : String} {first second : List SyncPage}, ChainFrom feed token first →
    ChainFrom feed (tokenAfter token first) second → ChainFrom feed token (first ++ second)
  | _, [], _, _, h => h
  | token, p :: first, second, h, h' => by
    rw [tokenAfter_cons] at h'
    exact ⟨h.1, append h.2 h'⟩

/-- There is one chain from a token to the end of a cycle. -/
theorem unique {pages : List SyncPage} {last : String} (hend : EndAt pages last) :
    ∀ {token : String} {pages' : List SyncPage} {last' : String}, ChainFrom feed token pages →
      ChainFrom feed token pages' → EndAt pages' last' → pages = pages' := by
  induction hend with
  | last hdone =>
    intro token pages' last' h h' hend'
    cases hend' with
    | last => rw [h.1, h'.1]
    | more hmore => rw [h'.1, ← h.1, hdone] at hmore; cases hmore
  | more hmore _ ih =>
    intro token pages' last' h h' hend'
    cases hend' with
    | last hdone => rw [h'.1, ← h.1, hmore] at hdone; cases hdone
    | more _ hend' =>
      have hsame := h.1.trans h'.1.symm
      rw [hsame] at h ⊢
      rw [ih h.2 h'.2 hend']

end ChainFrom

end SyncPage

/-- Every page that a source answered to a token is the page that a feed has there. -/
def ContentSource.Answers (feed : String → SyncPage) (before after : ContentSource) : Prop :=
  ∀ token p, (some token, .ok p) ∈ before.exchanges after → p = feed token

/-! ## The stored token -/

/-- The row of a token has it as its text. -/
theorem Namespace.text?_tokenRow (token : String) :
    (tokenRow token).text? Column.token = some token := by
  have hcell : (tokenRow token).cell Column.token = .text token := by
    have hcolumn : Column.token ≠ Column.updatedAt := by decide
    unfold tokenRow Row.cell
    simp only [SortedMap.ofList, List.foldl, SortedMap.get?_insert_eq, if_neg hcolumn]
    rfl
  exact Row.text?_eq_some.2 hcell

/-- A token that was stored is the one that is read. -/
theorem Database.syncToken?_saveSyncToken {d d' : Database} {ns : Ident} {token : String}
    (h : d.apply (.saveSyncToken ns token) = .ok d') : d'.syncToken? ns = some token := by
  obtain ⟨n, n', -, hn', rfl⟩ := update_eq_ok.1 h
  obtain ⟨t, -, hn'⟩ := bind_eq_ok.1 hn'
  obtain rfl := pure_eq_ok.1 hn'
  unfold syncToken? table?
  rw [get?_withNamespace_self, Option.bind_some]
  unfold Namespace.withTable
  dsimp only
  rw [SortedMap.get?_insert_self, Option.bind_some, SortedMap.get?_insert_self]
  exact Namespace.text?_tokenRow token

/-- The batch that a replica makes of a page. -/
def Replica.pageBatch (r : Replica) (p : SyncPage) : Except Error (List Statement) := do
  (← Mapping.of r.schema r.space).pageBatch r.namespaceName p

section
variable {r : Replica} {d d' : Database}

/-- The batch of a page stays inside the namespace of the replica. -/
theorem Replica.pageBatch_local {p : SyncPage} {batch : List Statement}
    (h : r.pageBatch p = .ok batch) :
    ∀ statement ∈ batch, statement.InNamespace r.namespaceName := by
  obtain ⟨m, -, h⟩ := bind_eq_ok.1 h
  exact Mapping.pageBatch_local h

/-- The batch of a page stores its token. -/
theorem Database.syncToken?_page {p : SyncPage} {batch : List Statement}
    (h : r.pageBatch p = .ok batch) (happly : d.applyAll batch = .ok d') :
    d'.syncToken? r.namespaceName = some p.cursor.token := by
  obtain ⟨m, -, h⟩ := bind_eq_ok.1 h
  obtain ⟨rfl, -⟩ := Mapping.pageBatch_eq h
  obtain ⟨d₁, -, hlast⟩ := applyAll_append.1 happly
  exact syncToken?_saveSyncToken (applyAll_singleton.1 hlast)

/-- After the batches of some pages the token is that of the last page. -/
theorem Database.syncToken?_pages :
    ∀ {pages : List SyncPage} {batches : List (List Statement)} {d : Database} {token : String},
      pages.mapM r.pageBatch = .ok batches → d.applyAll batches.flatten = .ok d' →
      d.syncToken? r.namespaceName = some token →
      d'.syncToken? r.namespaceName = some (SyncPage.tokenAfter token pages) := by
  intro pages
  induction pages with
  | nil =>
    intro batches d token h happly htoken
    rw [List.mapM_nil, pure_eq_ok] at h
    subst h
    obtain rfl := pure_eq_ok.1 happly
    exact htoken
  | cons p pages ih =>
    intro batches d token h happly htoken
    rw [List.mapM_cons] at h
    obtain ⟨batch, hbatch, h⟩ := bind_eq_ok.1 h
    obtain ⟨rest, hrest, h⟩ := bind_eq_ok.1 h
    obtain rfl := pure_eq_ok.1 h
    obtain ⟨d₁, hfirst, happly⟩ := applyAll_append.1 happly
    rw [SyncPage.tokenAfter_cons]
    exact ih hrest happly (syncToken?_page hbatch hfirst)

end

/-! ## One page -/

namespace Engine

variable {e : Engine} {signal : Signal}

/-- What becomes of one page: nothing changes, or its batch is applied. -/
theorem applyPage_cases (e : Engine) (p : SyncPage) (a : Applying) :
    (e.applyPage p a).2.world.source = a.world.source ∧
      (e.applyPage p a).2.world.store.failures = a.world.store.failures ∧
      ((∃ err, (e.applyPage p a).1 = .error err ∧
        (e.applyPage p a).2.world.store.database = a.world.store.database) ∨
      ∃ batch, (e.applyPage p a).1 = .ok () ∧ e.pageBatch p = .ok batch ∧
        a.world.store.database.applyAll batch
          = .ok (e.applyPage p a).2.world.store.database) := by
  unfold applyPage
  dsimp only
  split
  · next err _ => exact ⟨rfl, rfl, .inl ⟨err, rfl, rfl⟩⟩
  · next batch report hmade =>
    have hbatch : e.pageBatch p = .ok batch := by
      obtain ⟨m, hm, hmade⟩ := bind_eq_ok.1 hmade
      obtain ⟨batch', hbatch, hmade⟩ := bind_eq_ok.1 hmade
      obtain ⟨report', -, hmade⟩ := bind_eq_ok.1 hmade
      cases pure_eq_ok.1 hmade
      exact bind_eq_ok.2 ⟨m, hm, hbatch⟩
    refine ⟨rfl, ?_⟩
    generalize hrun : a.world.store.execute batch = run
    obtain ⟨result, store⟩ := run
    cases result with
    | error err =>
      obtain ⟨hdatabase, hfailures⟩ := Store.execute_error hrun
      exact ⟨hfailures, .inl ⟨err, rfl, hdatabase⟩⟩
    | ok u =>
      obtain ⟨-, happly, hfailures⟩ := Store.execute_ok hrun
      exact ⟨hfailures, .inr ⟨batch, rfl, hbatch, happly⟩⟩

/-- Without failures a page is applied if its batch can be. -/
theorem applyPage_of_applyAll {p : SyncPage} {a : Applying} {batch : List Statement} {d : Database}
    (hf : a.world.store.failures = []) (hbatch : e.pageBatch p = .ok batch)
    (h : a.world.store.database.applyAll batch = .ok d) : (e.applyPage p a).1 = .ok () := by
  obtain ⟨m, hm, hbatch⟩ := bind_eq_ok.1 hbatch
  obtain ⟨records, hrecords, -⟩ := bind_eq_ok.1 hbatch
  have hmade : ∀ r : SyncReport,
      (do let m ← Mapping.of e.schema e.space
          let batch ← m.pageBatch e.namespaceName p
          return (batch, ← m.reportPage p r) : Except Error (List Statement × SyncReport))
        = .ok (batch, m.countPage p records r) :=
    fun r => bind_eq_ok.2 ⟨m, hm, bind_eq_ok.2 ⟨batch, hbatch, bind_eq_ok.2
      ⟨_, bind_eq_ok.2 ⟨records, hrecords, rfl⟩, rfl⟩⟩⟩
  obtain ⟨store, hexecute, -⟩ := Store.execute_of_applyAll hf h
  unfold applyPage
  dsimp only
  rw [hmade]
  dsimp only
  rw [hexecute]

/-- One page was fetched at a token and applied between two states of a cycle. -/
structure Applies (e : Engine) (token : String) (a : Applying) (p : SyncPage) (a' : Applying) :
    Prop where
  later : a.world.source.Later a'.world.source
  fetched : a.world.source.fetched a'.world.source = [p]
  answered : (some token, .ok p) ∈ a.world.source.exchanges a'.world.source
  failures : a'.world.store.failures = a.world.store.failures
  batch : ∃ batch, e.pageBatch p = .ok batch ∧
    a.world.store.database.applyAll batch = .ok a'.world.store.database

/-- A page that was fetched and applied. -/
theorem applies_of_fetch {p : SyncPage} {token : String} {a a' : Applying} {source : ContentSource}
    {moment : Moment}
    (hfetch : a.world.source.fetch e.config signal (some token) a.moment.afterLook
      = (.ok p, source, moment))
    (happly : e.applyPage p
      { a with moment := moment.afterLook, world := { a.world with source := source } }
        = (.ok (), a')) : e.Applies token a p a' ∧ a'.world.source = source := by
  obtain ⟨hlater, hfetched, htokens⟩ := ContentSource.fetch_spec _ _ _ _ _ hfetch
  have hanswered : (some token, .ok p) ∈ a.world.source.exchanges source := by
    have hpage : p ∈ a.world.source.fetched source := by
      rw [hfetched]
      exact List.mem_singleton.2 rfl
    obtain ⟨⟨token?, answer⟩, hexchange, hanswer⟩ := List.mem_filterMap.1 hpage
    obtain rfl : token? = some token := htokens _ hexchange
    cases answer with
    | error err => cases hanswer
    | ok q =>
      cases hanswer
      exact hexchange
  have hcases := e.applyPage_cases p
    { a with moment := moment.afterLook, world := { a.world with source := source } }
  rw [happly] at hcases
  obtain ⟨hsource, hfailures, ⟨err, herr, -⟩ | ⟨batch, -, hbatch, hrun⟩⟩ := hcases
  · cases herr
  · have hsource : a'.world.source = source := hsource
    exact ⟨⟨hsource ▸ hlater, hsource ▸ hfetched, hsource ▸ hanswered, hfailures, batch, hbatch,
      hrun⟩, hsource⟩

/-- One round of a cycle: it stops and leaves the data as they are, or it fetches and applies a page,
and goes on unless the page completes the cycle. -/
theorem applyPages_step (e : Engine) (signal : Signal) (fuel : Nat) (token : String)
    (a : Applying) :
    (∃ err a', e.applyPages signal (fuel + 1) token a = (.error err, a') ∧
      a.world.source.Later a'.world.source ∧
      a'.world.store.database = a.world.store.database) ∨
    ∃ p a', e.Applies token a p a' ∧ e.applyPages signal (fuel + 1) token a =
      if p.cursor.isDone then (.ok p.cursor.token, a')
      else e.applyPages signal fuel p.cursor.token a' := by
  rw [applyPages]
  split
  · exact .inl ⟨_, _, rfl, .refl _, rfl⟩
  · generalize hfetch : a.world.source.fetch e.config signal (some token) a.moment.afterLook = fetch
    obtain ⟨outcome, source, moment⟩ := fetch
    have hlater := (ContentSource.fetch_spec _ _ _ _ _ hfetch).1
    dsimp only
    cases outcome with
    | error err => exact .inl ⟨_, _, rfl, hlater, rfl⟩
    | ok page =>
      dsimp only
      split
      · exact .inl ⟨_, _, rfl, hlater, rfl⟩
      · have hcases := e.applyPage_cases page
          { a with moment := moment.afterLook, world := { a.world with source := source } }
        generalize hrun : e.applyPage page
          { a with moment := moment.afterLook, world := { a.world with source := source } } = run
          at hcases
        obtain ⟨applied, a'⟩ := run
        obtain ⟨hsource, -, hcases⟩ := hcases
        dsimp only at hsource hcases ⊢
        rcases hcases with ⟨err, rfl, hdatabase⟩ | ⟨batch, rfl, -⟩
        · exact .inl ⟨_, _, rfl, hsource ▸ hlater, hdatabase⟩
        · exact .inr ⟨page, a', (applies_of_fetch hfetch hrun).1, rfl⟩

/-! ## All pages -/

/-- The first pages that were fetched from a token on were applied between two states of a cycle, each
at the token of the page before. -/
structure Advances (e : Engine) (token : String) (a : Applying) (applied : List SyncPage)
    (a' : Applying) : Prop where
  later : a.world.source.Later a'.world.source
  isPrefix : applied <+: a.world.source.fetched a'.world.source
  batches : ∃ batches, applied.mapM e.pageBatch = .ok batches ∧
    a.world.store.database.applyAll batches.flatten = .ok a'.world.store.database
  chain : ∀ feed, ContentSource.Answers feed a.world.source a'.world.source →
    SyncPage.ChainFrom feed token applied

/-- Without a page nothing changed. -/
theorem Advances.nil {token : String} {a a' : Applying}
    (hlater : a.world.source.Later a'.world.source)
    (hdatabase : a'.world.store.database = a.world.store.database) : e.Advances token a [] a' :=
  ⟨hlater, List.nil_prefix, ⟨[], rfl, congrArg Except.ok hdatabase.symm⟩, fun _ _ => trivial⟩

/-- A page that was applied before others. -/
theorem Applies.cons {token : String} {p : SyncPage} {applied : List SyncPage} {a a₁ a' : Applying}
    (h : e.Applies token a p a₁) (hrest : e.Advances p.cursor.token a₁ applied a') :
    e.Advances token a (p :: applied) a' where
  later := h.later.trans hrest.later
  isPrefix := by
    rw [h.later.fetched_append hrest.later, h.fetched]
    exact List.cons_prefix_cons.2 ⟨rfl, hrest.isPrefix⟩
  batches := by
    obtain ⟨batch, hbatch, hfirst⟩ := h.batch
    obtain ⟨batches, hbatches, happly⟩ := hrest.batches
    refine ⟨batch :: batches, ?_, Database.applyAll_append.2 ⟨_, hfirst, happly⟩⟩
    rw [List.mapM_cons]
    exact bind_eq_ok.2 ⟨batch, hbatch, bind_eq_ok.2 ⟨batches, hbatches, rfl⟩⟩
  chain := by
    intro feed hfeed
    have hexchanges := h.later.exchanges_append hrest.later
    refine ⟨hfeed token p ?_, hrest.chain feed fun token' q hq => hfeed token' q ?_⟩
    · rw [hexchanges]
      exact List.mem_append_left _ h.answered
    · rw [hexchanges]
      exact List.mem_append_right _ hq

/-- What a cycle of news does: it applies the first pages that it fetched, and succeeds when the last of
them completes the cycle. -/
theorem applyPages_cases (e : Engine) (signal : Signal) :
    ∀ (fuel : Nat) (token : String) (a : Applying),
      ∃ applied, e.Advances token a applied (e.applyPages signal fuel token a).2 ∧
        ((∃ err, (e.applyPages signal fuel token a).1 = .error err ∧
          ∀ p ∈ applied, p.cursor.isDone = false) ∨
        ∃ last, (e.applyPages signal fuel token a).1 = .ok last ∧ SyncPage.EndAt applied last)
  | 0, _, _ => ⟨[], .nil (.refl _) rfl, .inl ⟨_, rfl, nofun⟩⟩
  | fuel + 1, token, a => by
    rcases e.applyPages_step signal fuel token a with
      ⟨err, a', hrun, hlater, hdatabase⟩ | ⟨p, a', happlies, hrun⟩
    · rw [hrun]
      exact ⟨[], .nil hlater hdatabase, .inl ⟨err, rfl, nofun⟩⟩
    · rw [hrun]
      split
      · next hdone =>
        exact ⟨[p], happlies.cons (.nil (.refl _) rfl), .inr ⟨_, rfl, .last hdone⟩⟩
      · next hmore =>
        have hmore : p.cursor.isDone = false := Bool.eq_false_iff.2 hmore
        obtain ⟨applied, hadvances, hresult⟩ := applyPages_cases e signal fuel p.cursor.token a'
        refine ⟨p :: applied, happlies.cons hadvances, hresult.imp ?_ ?_⟩
        · rintro ⟨err, herr, hnone⟩
          exact ⟨err, herr, List.forall_mem_cons.2 ⟨hmore, hnone⟩⟩
        · rintro ⟨last, hok, hend⟩
          exact ⟨last, hok, .more hmore hend⟩

/-- Without failures and without a stop, a page that is prepared is applied if its batch can be. -/
theorem applyPages_of_page {p : SyncPage} {rest : List Answer} {a : Applying}
    {batch : List Statement} {d : Database} (hanswers : a.world.source.answers = .ok p :: rest)
    (hf : a.world.store.failures = []) (hbatch : e.pageBatch p = .ok batch)
    (h : a.world.store.database.applyAll batch = .ok d) (fuel : Nat) (token : String) :
    ∃ a', e.Applies token a p a' ∧ a'.world.source.answers = rest ∧ a'.world.store.database = d ∧
      e.applyPages .never (fuel + 1) token a =
        if p.cursor.isDone then (.ok p.cursor.token, a')
        else e.applyPages .never fuel p.cursor.token a' := by
  obtain ⟨source, moment, hfetch, hrest⟩ :=
    ContentSource.fetch_of_page hanswers e.config .never (some token) a.moment.afterLook
  have happlied := applyPage_of_applyAll (e := e)
    (a := { a with moment := moment.afterLook, world := { a.world with source := source } })
    hf hbatch h
  generalize hrun : e.applyPage p
    { a with moment := moment.afterLook, world := { a.world with source := source } } = run
    at happlied
  obtain ⟨result, a'⟩ := run
  obtain rfl : result = .ok () := happlied
  obtain ⟨happlies, hsource⟩ := applies_of_fetch hfetch hrun
  obtain ⟨batch', hbatch', h'⟩ := happlies.batch
  obtain rfl := Except.ok.inj (hbatch.symm.trans hbatch')
  refine ⟨a', happlies, hsource ▸ hrest, Except.ok.inj (h'.symm.trans h), ?_⟩
  have hgoes : ∀ m : Moment, ¬ Signal.never.hasCome m = true := fun _ => Bool.false_ne_true
  rw [applyPages, if_neg (hgoes _), hfetch]
  dsimp only
  rw [if_neg (hgoes _), hrun]

/-- Without failures and without a stop, pages that end the cycle are applied if their batches can
be. -/
theorem applyPages_of_pages {rest : List Answer} {d : Database} {last : String} :
    ∀ {pages : List SyncPage} {batches : List (List Statement)} {fuel : Nat} {token : String}
      {a : Applying}, SyncPage.EndAt pages last → pages.length ≤ fuel →
      a.world.source.answers = pages.map .ok ++ rest → a.world.store.failures = [] →
      pages.mapM e.pageBatch = .ok batches →
      a.world.store.database.applyAll batches.flatten = .ok d →
      ∃ a', e.applyPages .never fuel token a = (.ok last, a') ∧ a'.world.store.database = d := by
  intro pages
  induction pages with
  | nil => intro batches fuel token a hend; cases hend
  | cons p pages ih =>
    intro batches fuel token a hend hfuel hanswers hf hbatches hrun
    obtain _ | fuel := fuel
    · cases hfuel
    rw [List.mapM_cons] at hbatches
    obtain ⟨batch, hbatch, hbatches⟩ := bind_eq_ok.1 hbatches
    obtain ⟨others, hothers, hbatches⟩ := bind_eq_ok.1 hbatches
    obtain rfl := pure_eq_ok.1 hbatches
    obtain ⟨first, hfirst, hrun⟩ := Database.applyAll_append.1 hrun
    obtain ⟨a', happlies, hrest, rfl, hpages⟩ :=
      applyPages_of_page hanswers hf hbatch hfirst fuel token
    rw [hpages]
    cases hend with
    | last hdone =>
      rw [if_pos hdone]
      rw [List.mapM_nil, pure_eq_ok] at hothers
      subst hothers
      exact ⟨a', rfl, pure_eq_ok.1 hrun⟩
    | more hmore hend =>
      rw [if_neg (Bool.eq_false_iff.1 hmore)]
      exact ih hend (Nat.le_of_succ_le_succ hfuel) hrest (happlies.failures.trans hf) hothers hrun

/-- What a whole cycle of news leaves: the data after the first pages that it fetched, and a success
when the last of them completes the cycle. -/
theorem delta_cases (e : Engine) (signal : Signal) (token : String) (start : Moment) (w : World) :
    ∃ applied batches, w.source.Later (e.delta signal token start w).world.source ∧
      applied <+: w.source.fetched (e.delta signal token start w).world.source ∧
      applied.mapM e.pageBatch = .ok batches ∧
      w.store.database.applyAll batches.flatten
        = .ok (e.delta signal token start w).world.store.database ∧
      (∀ feed, ContentSource.Answers feed w.source (e.delta signal token start w).world.source →
        SyncPage.ChainFrom feed token applied) ∧
      ((∃ err, (e.delta signal token start w).result = .error err ∧
          ∀ p ∈ applied, p.cursor.isDone = false) ∨
        ∃ report last, (e.delta signal token start w).result = .ok report ∧
          SyncPage.EndAt applied last) := by
  let a₀ : Applying := ⟨w, start, { mode := .delta }⟩
  obtain ⟨applied, hadvances, hresult⟩ :=
    e.applyPages_cases signal (w.source.answers.length + 1) token a₀
  obtain ⟨batches, hbatches, happly⟩ := hadvances.batches
  have hworld : (e.delta signal token start w).world
      = (e.applyPages signal (w.source.answers.length + 1) token a₀).2.world := rfl
  refine ⟨applied, batches, hworld ▸ hadvances.later, hworld ▸ hadvances.isPrefix, hbatches,
    hworld ▸ happly, hworld ▸ hadvances.chain, hresult.imp ?_ ?_⟩
  · rintro ⟨err, herr, hnone⟩
    refine ⟨err, ?_, hnone⟩
    unfold delta
    dsimp only
    rw [herr]
    rfl
  · rintro ⟨last, hok, hend⟩
    have hsome : ∃ report, (e.delta signal token start w).result = .ok report := by
      unfold delta
      dsimp only
      rw [hok]
      exact ⟨_, rfl⟩
    obtain ⟨report, hreport⟩ := hsome
    exact ⟨report, last, hreport, hend⟩

/-- A cycle of news changes no namespace but that of the replica. -/
theorem delta_frame (e : Engine) (signal : Signal) (token : String) (start : Moment) (w : World)
    {name : Ident} (hn : name ≠ e.namespaceName) :
    (e.delta signal token start w).world.store.namespace? name = w.store.namespace? name := by
  obtain ⟨applied, batches, -, -, hbatches, happly, -⟩ := e.delta_cases signal token start w
  refine Database.applyAll_frame happly fun statement hs => ?_
  obtain ⟨batch, hbatch, hs⟩ := List.mem_flatten.1 hs
  obtain ⟨p, -, hp⟩ := exists_of_mapM hbatches hbatch
  exact (Replica.pageBatch_local hp statement hs).not_writes hn

/-- Without failures and without a stop, a cycle succeeds on pages that end it and whose batches can
be applied, and leaves what these make of the data. -/
theorem delta_of_pages {token last : String} {start : Moment} {w : World} {pages : List SyncPage}
    {rest : List Answer} {batches : List (List Statement)} {d : Database}
    (hend : SyncPage.EndAt pages last) (hanswers : w.source.answers = pages.map .ok ++ rest)
    (hf : w.store.failures = []) (hbatches : pages.mapM e.pageBatch = .ok batches)
    (h : w.store.database.applyAll batches.flatten = .ok d) :
    ∃ report, (e.delta .never token start w).result = .ok report ∧
      (e.delta .never token start w).world.store.database = d := by
  have hfuel : pages.length ≤ w.source.answers.length + 1 := by
    rw [hanswers, List.length_append, List.length_map]
    omega
  obtain ⟨a', hrun, hdatabase⟩ :
      ∃ a', e.applyPages .never (w.source.answers.length + 1) token ⟨w, start, { mode := .delta }⟩
        = (.ok last, a') ∧ a'.world.store.database = d :=
    applyPages_of_pages hend hfuel hanswers hf hbatches h
  unfold delta
  rw [hrun]
  exact ⟨_, rfl, hdatabase⟩

end Engine

end ContentReplica
