import ContentReplica.Proofs.Replication.Cycle

/-!
# Stopping a cycle

A cycle looks at the signal to stop before it asks for a page, and a cycle of news also when the page has
arrived. So what it commits are pages that had arrived before the signal came (`Engine.run_heeds`).

There is one exception. A load does not look at the signal behind the page that ends the feed. If the
signal comes while this page is on its way, the load commits nevertheless
(`Engine.run_heeds_needs_time`).
-/

namespace ContentReplica

/-- Pages end a cycle at the token of the last of them. -/
theorem SyncPage.EndAt.token_getLast? {pages : List SyncPage} {token : String}
    (h : EndAt pages token) : (pages.getLast?.map fun p => p.cursor.token) = some token := by
  induction h with
  | last => rfl
  | more _ hend ih =>
    cases hend with
    | last => exact ih
    | more => exact ih

/-- A signal that comes while an answer is on its way lasts. -/
theorem Signal.duringAnswer_lasting (n : Nat) : (duringAnswer n).Lasting := fun _ _ hanswers _ h =>
  decide_eq_true (Nat.le_trans (of_decide_eq_true h) hanswers)

/-! ## Arrivals -/

/-- A page that has arrived, with the moment of the last look at the signal before it was asked for and
the moment of its arrival. -/
structure Arrival where
  page : SyncPage
  asked : Moment
  arrived : Moment

namespace ContentSource

/-- Pages that arrive from a source one after the other. Each is asked for at the token of the page
before; `pause` leads from the arrival of a page to the next look at the signal. -/
def Arrives (config : SyncConfig) (signal : Signal) (pause : Moment → Moment) :
    Option String → ContentSource → Moment → List Arrival → Prop
  | _, _, _, [] => True
  | token?, s, m, a :: rest =>
    a.asked = m ∧ ∃ s', s.fetch config signal token? m.afterLook = (.ok a.page, s', a.arrived) ∧
      Arrives config signal pause (some a.page.cursor.token) s' (pause a.arrived) rest

section
variable {config : SyncConfig} {signal : Signal} {token? : Option String}
  {s s' s'' : ContentSource} {m m' : Moment}

/-- Where the arrival of a page is followed by the look before the next one, only the last page can have
arrived behind the signal. -/
theorem Arrives.last_of_late : ∀ {arrivals : List Arrival} {token? : Option String}
    {s : ContentSource} {m : Moment}, Arrives config signal id token? s m arrivals →
      (∀ a ∈ arrivals, signal.hasCome a.asked = false) →
      ∀ a ∈ arrivals, signal.hasCome a.arrived = true → arrivals.getLast? = some a
  | [b], _, _, _, _, _, a, ha, _ => by
    obtain rfl := List.mem_singleton.1 ha
    rfl
  | b :: c :: rest, _, _, _, ⟨_, _, _, hrest⟩, hasked, a, ha, hlate => by
    obtain ⟨-, hasked⟩ := List.forall_mem_cons.1 hasked
    have hnext : signal.hasCome b.arrived = false := by
      rw [← show c.asked = b.arrived from hrest.1]
      exact hasked c (List.mem_cons_self ..)
    rw [List.getLast?_cons_cons]
    refine hrest.last_of_late hasked a ((List.mem_cons.1 ha).resolve_left ?_) hlate
    rintro rfl
    rw [hnext] at hlate
    cases hlate

/-- Nothing was fetched in no time. -/
theorem fetched_self (s : ContentSource) : s.fetched s = [] := by
  unfold fetched
  rw [exchanges_eq (List.append_nil s.requests).symm]
  rfl

/-! ## One fetch -/

/-- A fetch that fails was stopped by the signal, or the source has answered with the failure. -/
theorem fetchFrom_error (hlasting : signal.Lasting) (config : SyncConfig) (token? : Option String)
    {err : Error} : ∀ (answers : List Answer) (attempts : Nat) (m : Moment),
      (fetchFrom config signal token? attempts m answers).outcome = .error err →
      (err = .cancelled ∧
        signal.hasCome (fetchFrom config signal token? attempts m answers).moment = true) ∨
      ∃ k, (fetchFrom config signal token? attempts m answers).moment.answers = m.answers + k ∧
        (token?, .error err) ∈ answered (List.replicate k token?) answers
  | [], _, _, h => by cases h
  | answer :: rest, attempts, m, h => by
    unfold fetchFrom at h ⊢
    dsimp only at h ⊢
    split at h
    · next hint =>
      split at h
      · next htry =>
        rw [if_pos htry]
        split at h
        · next hstop =>
          rw [if_pos hstop]
          cases h
          refine .inl ⟨rfl, hlasting m.afterAnswer _ (Nat.le_refl _) (Nat.le_succ _) ?_⟩
          exact (Bool.and_eq_true_iff.1 hstop).2
        · next hwait =>
          rw [if_neg hwait]
          refine (fetchFrom_error hlasting config token? rest (attempts + 1) _ h).imp_right ?_
          rintro ⟨k, hanswers, hmem⟩
          refine ⟨k + 1, ?_, List.mem_cons_of_mem _ hmem⟩
          rw [hanswers]
          change m.answers + 1 + k = m.answers + (k + 1)
          omega
      · next htry =>
        rw [if_neg htry]
        cases h
        exact .inr ⟨1, rfl, List.mem_cons_self ..⟩
    · obtain rfl : answer = .error err := h
      exact .inr ⟨1, rfl, List.mem_cons_self ..⟩

/-- A page that does not complete a cycle was prepared. -/
theorem fetchFrom_length (config : SyncConfig) (signal : Signal) (token? : Option String)
    {p : SyncPage} (hmore : p.cursor.isDone = false) : ∀ (answers : List Answer) (attempts : Nat)
      (m : Moment), (fetchFrom config signal token? attempts m answers).outcome = .ok p →
      (fetchFrom config signal token? attempts m answers).rest.length < answers.length
  | [], _, _, h => by
    cases h
    cases hmore
  | answer :: rest, attempts, m, h => by
    unfold fetchFrom at h ⊢
    dsimp only at h ⊢
    split at h
    · split at h
      · next htry =>
        rw [if_pos htry]
        split at h
        · cases h
        · next hwait =>
          rw [if_neg hwait]
          exact Nat.lt_succ_of_lt (fetchFrom_length config signal token? hmore rest _ _ h)
      · cases h
    · exact Nat.lt_succ_self _

/-- A fetch that fails was stopped by the signal, or the source has answered with the failure. -/
theorem fetch_error (hlasting : signal.Lasting) {err : Error}
    (h : s.fetch config signal token? m = (.error err, s', m')) :
    (err = .cancelled ∧ signal.hasCome m' = true) ∨ (token?, .error err) ∈ s.exchanges s' := by
  unfold fetch at h
  dsimp only at h
  obtain ⟨houtcome, hs', rfl⟩ : _ ∧ _ ∧ _ := by simpa only [Prod.mk.injEq] using h
  refine (fetchFrom_error hlasting config token? s.answers 0 m houtcome).imp_right ?_
  rintro ⟨k, hanswers, hmem⟩
  rw [hanswers, Nat.add_sub_cancel_left] at hs'
  rw [exchanges_eq (congrArg ContentSource.requests hs'.symm)]
  exact hmem

/-- A fetched page that does not complete a cycle leaves fewer answers. -/
theorem length_of_fetch {p : SyncPage} (h : s.fetch config signal token? m = (.ok p, s', m'))
    (hmore : p.cursor.isDone = false) : s'.answers.length < s.answers.length := by
  unfold fetch at h
  dsimp only at h
  obtain ⟨houtcome, rfl, -⟩ : _ ∧ _ ∧ _ := by simpa only [Prod.mk.injEq] using h
  exact fetchFrom_length config signal token? hmore s.answers 0 m houtcome

/-! ## Several fetches -/

/-- The pages that arrived between two states of a source, each asked for when the signal had not come
yet. -/
structure Asked (config : SyncConfig) (signal : Signal) (pause : Moment → Moment)
    (token? : Option String) (before : ContentSource) (m : Moment) (after : ContentSource)
    (arrivals : List Arrival) : Prop where
  arrives : Arrives config signal pause token? before m arrivals
  pages : arrivals.map Arrival.page = before.fetched after
  asked : ∀ a ∈ arrivals, signal.hasCome a.asked = false

variable {pause : Moment → Moment} {p : SyncPage} {arrivals : List Arrival}

/-- No page arrives where none is fetched. -/
theorem Asked.nil (h : s.fetched s' = []) : Asked config signal pause token? s m s' [] :=
  ⟨trivial, h.symm, nofun⟩

/-- A page that was fetched is one arrival. -/
theorem Asked.singleton (hcome : signal.hasCome m = false)
    (h : s.fetch config signal token? m.afterLook = (.ok p, s', m')) :
    Asked config signal pause token? s m s' [⟨p, m, m'⟩] where
  arrives := ⟨rfl, _, h, trivial⟩
  pages := (fetch_spec _ _ _ _ _ h).2.1.symm
  asked := List.forall_mem_singleton.2 hcome

/-- A page that was fetched before others arrive. -/
theorem Asked.cons (hcome : signal.hasCome m = false)
    (h : s.fetch config signal token? m.afterLook = (.ok p, s', m')) (hlater : s'.Later s'')
    (hrest : Asked config signal pause (some p.cursor.token) s' (pause m') s'' arrivals) :
    Asked config signal pause token? s m s'' (⟨p, m, m'⟩ :: arrivals) where
  arrives := ⟨rfl, _, h, hrest.arrives⟩
  pages := by
    obtain ⟨hfirst, hfetched, -⟩ := fetch_spec _ _ _ _ _ h
    rw [hfirst.fetched_append hlater, hfetched, List.map_cons, hrest.pages]
    rfl
  asked := List.forall_mem_cons.2 ⟨hcome, hrest.asked⟩

end

end ContentSource

namespace Engine

variable {e : Engine} {signal : Signal}

/-! ## Failures -/

/-- What else than the signal makes a run fail between two states of the source: the space, the source
itself, a page that it answered, or the token that was to be stored. -/
inductive Refuses (e : Engine) (before after : ContentSource) (err : Error) : Prop
  | space (h : Mapping.of e.schema e.space = .error err)
  | source {token? : Option String} (h : (token?, .error err) ∈ before.exchanges after)
  | copy {m : Mapping} {p : SyncPage} {l : Loading} (hm : Mapping.of e.schema e.space = .ok m)
      (hp : p ∈ before.fetched after) (h : (e.copyPage m p l).1 = .error err)
  | page {p : SyncPage} {a : Applying} (hp : p ∈ before.fetched after)
      (h : (e.applyPage p a).1 = .error err)
  | token {token : String} {l : Loading} (h : (e.saveToken true token l).1 = .error err)

/-- A failure later on is one of the whole time. -/
theorem Refuses.after {s s' s'' : ContentSource} {err : Error} (h : s.Later s')
    (h' : s'.Later s'') (hr : e.Refuses s' s'' err) : e.Refuses s s'' err := by
  cases hr with
  | space hm => exact .space hm
  | source hmem => exact .source (h.exchanges_append h' ▸ List.mem_append_right _ hmem)
  | copy hm hp hcopy => exact .copy hm (h.fetched_append h' ▸ List.mem_append_right _ hp) hcopy
  | page hp happly => exact .page (h.fetched_append h' ▸ List.mem_append_right _ hp) happly
  | token hsave => exact .token hsave

/-- How a run fails: the signal has stopped it, or something else. -/
def Fails (e : Engine) (signal : Signal) (before after : ContentSource) (moment : Moment)
    (err : Error) : Prop :=
  (err = .cancelled ∧ signal.hasCome moment = true) ∨ e.Refuses before after err

/-- A failed fetch makes the run fail. -/
theorem fails_of_fetch (hlasting : signal.Lasting) {s s' : ContentSource} {token? : Option String}
    {m m' : Moment} {err : Error}
    (h : s.fetch e.config signal token? m = (.error err, s', m')) : e.Fails signal s s' m' err :=
  (ContentSource.fetch_error hlasting h).imp_right .source

/-! ## Loads -/

/-- Copying a page takes no look at the signal. -/
theorem copyPage_moment (e : Engine) (m : Mapping) (p : SyncPage) (l : Loading) :
    (e.copyPage m p l).2.moment = l.moment := by
  unfold copyPage
  dsimp only
  cases m.pageRecords p with
  | error err => rfl
  | ok records =>
    dsimp only
    split <;> rfl

/-- One round of a load: it fails, with one page that has arrived or none, or it has fetched and copied
a page, and goes on unless the page is the last. -/
theorem copyPages_round (hlasting : signal.Lasting) {m : Mapping}
    (hm : Mapping.of e.schema e.space = .ok m) (fuel : Nat) (token? : Option String) (l : Loading) :
    (∃ err l' arrivals, e.copyPages signal m (fuel + 1) token? l = (.error err, l') ∧
      ContentSource.Asked e.config signal id token? l.world.source l.moment l'.world.source
        arrivals ∧
      e.Fails signal l.world.source l'.world.source l'.moment err) ∨
    ∃ p l', signal.hasCome l.moment = false ∧
      l.world.source.fetch e.config signal token? l.moment.afterLook
        = (.ok p, l'.world.source, l'.moment) ∧
      e.copyPages signal m (fuel + 1) token? l =
        if p.cursor.isDone then (.ok p.cursor.token, l')
        else e.copyPages signal m fuel (some p.cursor.token) l' := by
  rw [copyPages]
  split
  · next hcome =>
    exact .inl ⟨_, _, [], rfl, .nil (ContentSource.fetched_self _), .inl ⟨rfl, hcome⟩⟩
  · next hcome =>
    have hcome : signal.hasCome l.moment = false := Bool.eq_false_iff.2 hcome
    generalize hfetch : l.world.source.fetch e.config signal token? l.moment.afterLook = fetch
    obtain ⟨outcome, source, moment⟩ := fetch
    obtain ⟨-, hfetched, -⟩ := ContentSource.fetch_spec _ _ _ _ _ hfetch
    dsimp only
    cases outcome with
    | error err => exact .inl ⟨_, _, [], rfl, .nil hfetched, fails_of_fetch hlasting hfetch⟩
    | ok page =>
      dsimp only
      have hframe := e.copyPage_frame m page
        { l with moment := moment, world := { l.world with source := source } }
      have hmoment := e.copyPage_moment m page
        { l with moment := moment, world := { l.world with source := source } }
      generalize hcopy : e.copyPage m page
        { l with moment := moment, world := { l.world with source := source } } = copy
        at hframe hmoment
      obtain ⟨copied, l'⟩ := copy
      obtain ⟨hsource, -, -⟩ := hframe
      dsimp only at hsource hmoment ⊢
      subst hsource hmoment
      cases copied with
      | error err =>
        refine .inl ⟨_, _, _, rfl, .singleton hcome hfetch, .inr (.copy hm ?_
          (congrArg Prod.fst hcopy))⟩
        rw [hfetched]
        exact List.mem_singleton_self page
      | ok u => exact .inr ⟨page, l', hcome, rfl, rfl⟩

/-- A load asks for each page while the signal has not come. -/
theorem copyPages_asked (hlasting : signal.Lasting) {m : Mapping}
    (hm : Mapping.of e.schema e.space = .ok m) :
    ∀ (fuel : Nat) (token? : Option String) (l : Loading),
      l.world.source.answers.length < fuel → ∃ arrivals,
      ContentSource.Asked e.config signal id token? l.world.source l.moment
        (e.copyPages signal m fuel token? l).2.world.source arrivals ∧
      ∀ err, (e.copyPages signal m fuel token? l).1 = .error err →
        e.Fails signal l.world.source (e.copyPages signal m fuel token? l).2.world.source
          (e.copyPages signal m fuel token? l).2.moment err
  | 0, _, _, hfuel => absurd hfuel (Nat.not_lt_zero _)
  | fuel + 1, token?, l, hfuel => by
    rcases copyPages_round hlasting hm fuel token? l with
      ⟨err, l', arrivals, hrun, hasked, hfails⟩ | ⟨p, l', hcome, hfetch, hrun⟩
    · rw [hrun]
      refine ⟨arrivals, hasked, fun err' herr => ?_⟩
      cases herr
      exact hfails
    · rw [hrun]
      split
      · exact ⟨_, .singleton hcome hfetch, nofun⟩
      · next hmore =>
        have hshorter := ContentSource.length_of_fetch hfetch (Bool.eq_false_iff.2 hmore)
        obtain ⟨arrivals, hasked, hfails⟩ := copyPages_asked hlasting hm fuel
          (some p.cursor.token) l' (by omega)
        have hlater := (ContentSource.fetch_spec _ _ _ _ _ hfetch).1
        have hgoes := (e.copyPages_frame signal m fuel (some p.cursor.token) l').1
        exact ⟨_, .cons hcome hfetch hgoes hasked,
          fun err herr => (hfails err herr).imp_right (.after hlater hgoes)⟩

/-! ## News -/

/-- Applying a page takes no look at the signal. -/
theorem applyPage_moment (e : Engine) (p : SyncPage) (a : Applying) :
    (e.applyPage p a).2.moment = a.moment := by
  unfold applyPage
  dsimp only
  split <;> rfl

/-- One round of a cycle of news: it fails and leaves the data as they are, with one page that has
arrived or none, or it has fetched a page before the signal came and applied it, and goes on unless the
page completes the cycle. -/
theorem applyPages_round (hlasting : signal.Lasting) (fuel : Nat) (token : String) (a : Applying) :
    (∃ err a' arrivals, e.applyPages signal (fuel + 1) token a = (.error err, a') ∧
      a'.world.store.database = a.world.store.database ∧
      ContentSource.Asked e.config signal Moment.afterLook (some token) a.world.source a.moment
        a'.world.source arrivals ∧
      e.Fails signal a.world.source a'.world.source a'.moment err) ∨
    ∃ p a' moment, signal.hasCome a.moment = false ∧ signal.hasCome moment = false ∧
      a.world.source.fetch e.config signal (some token) a.moment.afterLook
        = (.ok p, a'.world.source, moment) ∧ a'.moment = moment.afterLook ∧
      (∃ batch, e.pageBatch p = .ok batch ∧
        a.world.store.database.applyAll batch = .ok a'.world.store.database) ∧
      e.applyPages signal (fuel + 1) token a =
        if p.cursor.isDone then (.ok p.cursor.token, a')
        else e.applyPages signal fuel p.cursor.token a' := by
  rw [applyPages]
  split
  · next hcome =>
    exact .inl ⟨_, _, [], rfl, rfl, .nil (ContentSource.fetched_self _), .inl ⟨rfl, hcome⟩⟩
  · next hcome =>
    have hcome : signal.hasCome a.moment = false := Bool.eq_false_iff.2 hcome
    generalize hfetch : a.world.source.fetch e.config signal (some token) a.moment.afterLook = fetch
    obtain ⟨outcome, source, moment⟩ := fetch
    obtain ⟨-, hfetched, -⟩ := ContentSource.fetch_spec _ _ _ _ _ hfetch
    dsimp only
    cases outcome with
    | error err => exact .inl ⟨_, _, [], rfl, rfl, .nil hfetched, fails_of_fetch hlasting hfetch⟩
    | ok page =>
      dsimp only
      split
      · next hlate =>
        exact .inl ⟨_, _, _, rfl, rfl, .singleton hcome hfetch, .inl ⟨rfl, hlate⟩⟩
      · next hintime =>
        have hcases := e.applyPage_cases page
          { a with moment := moment.afterLook, world := { a.world with source := source } }
        have hmoment := e.applyPage_moment page
          { a with moment := moment.afterLook, world := { a.world with source := source } }
        generalize happly : e.applyPage page
          { a with moment := moment.afterLook, world := { a.world with source := source } } = apply
          at hcases hmoment
        obtain ⟨applied, a'⟩ := apply
        obtain ⟨hsource, -, hcases⟩ := hcases
        dsimp only at hsource hcases hmoment ⊢
        subst hsource
        rcases hcases with ⟨err, rfl, hdatabase⟩ | ⟨batch, rfl, hbatch⟩
        · refine .inl ⟨_, _, _, rfl, hdatabase, .singleton hcome hfetch,
            .inr (.page ?_ (congrArg Prod.fst happly))⟩
          rw [hfetched]
          exact List.mem_singleton_self page
        · exact .inr ⟨page, a', moment, hcome, Bool.eq_false_iff.2 hintime, rfl, hmoment,
            ⟨batch, hbatch⟩, rfl⟩

/-- A cycle of news asks for each page while the signal has not come, and applies the first of the pages
that arrive, each of which has arrived before the signal. -/
theorem applyPages_asked (hlasting : signal.Lasting) :
    ∀ (fuel : Nat) (token : String) (a : Applying),
      a.world.source.answers.length < fuel → ∃ arrivals applied,
      ContentSource.Asked e.config signal Moment.afterLook (some token) a.world.source a.moment
        (e.applyPages signal fuel token a).2.world.source arrivals ∧
      applied <+: arrivals ∧
      (∀ arrival ∈ applied, signal.hasCome arrival.arrived = false) ∧
      (∃ batches, (applied.map Arrival.page).mapM e.pageBatch = .ok batches ∧
        a.world.store.database.applyAll batches.flatten
          = .ok (e.applyPages signal fuel token a).2.world.store.database) ∧
      (∀ last, (e.applyPages signal fuel token a).1 = .ok last →
        applied = arrivals ∧ SyncPage.EndAt (arrivals.map Arrival.page) last) ∧
      ∀ err, (e.applyPages signal fuel token a).1 = .error err →
        e.Fails signal a.world.source (e.applyPages signal fuel token a).2.world.source
          (e.applyPages signal fuel token a).2.moment err
  | 0, _, _, hfuel => absurd hfuel (Nat.not_lt_zero _)
  | fuel + 1, token, a, hfuel => by
    rcases applyPages_round hlasting fuel token a with
      ⟨err, a', arrivals, hrun, hdatabase, hasked, hfails⟩ |
      ⟨p, a', moment, hcome, hintime, hfetch, hmoment, ⟨batch, hbatch, happly⟩, hrun⟩
    · rw [hrun]
      refine ⟨arrivals, [], hasked, List.nil_prefix, nofun, ⟨[], rfl, ?_⟩, nofun,
        fun err' herr => ?_⟩
      · exact congrArg Except.ok hdatabase.symm
      · cases herr
        exact hfails
    · rw [hrun]
      split
      · next hdone =>
        refine ⟨_, _, .singleton hcome hfetch, List.prefix_rfl,
          List.forall_mem_singleton.2 hintime, ⟨[batch], ?_, ?_⟩, fun last hlast => ?_, nofun⟩
        · exact mapM_eq_ok.2 (.cons hbatch .nil)
        · rw [List.flatten_singleton]
          exact happly
        · cases hlast
          exact ⟨rfl, .last hdone⟩
      · next hmore =>
        have hmore : p.cursor.isDone = false := Bool.eq_false_iff.2 hmore
        have hshorter := ContentSource.length_of_fetch hfetch hmore
        obtain ⟨arrivals, applied, hasked, hprefix, happlied, ⟨batches, hbatches, hrest⟩, hok,
          hfails⟩ := applyPages_asked hlasting fuel p.cursor.token a' (by omega)
        have hlater := (ContentSource.fetch_spec _ _ _ _ _ hfetch).1
        obtain ⟨-, ⟨hgoes, -, -, -⟩, -⟩ := e.applyPages_cases signal fuel p.cursor.token a'
        rw [hmoment] at hasked
        refine ⟨_, ⟨p, a.moment, moment⟩ :: applied, .cons hcome hfetch hgoes hasked,
          List.cons_prefix_cons.2 ⟨rfl, hprefix⟩, List.forall_mem_cons.2 ⟨hintime, happlied⟩,
          ⟨batch :: batches, ?_, Database.applyAll_append.2 ⟨_, happly, hrest⟩⟩,
          fun last hlast => ?_, fun err herr => (hfails err herr).imp_right (.after hlater hgoes)⟩
        · exact mapM_eq_ok.2 (.cons hbatch (mapM_eq_ok.1 hbatches))
        · obtain ⟨rfl, hend⟩ := hok last hlast
          exact ⟨rfl, .more hmore hend⟩

/-! ## Whole cycles -/

/-- A load asks for each page while the signal has not come. -/
theorem load_asked (hlasting : signal.Lasting) (e : Engine) (save : Bool) (start : Moment)
    (w : World) : ∃ arrivals,
      ContentSource.Asked e.config signal id none w.source start
        (e.load signal save start w).world.source arrivals ∧
      ∀ err, (e.load signal save start w).result = .error err →
        e.Fails signal w.source (e.load signal save start w).world.source
          (e.load signal save start w).moment err := by
  cases hm : Mapping.of e.schema e.space with
  | error err =>
    have hrun : e.load signal save start w = ⟨.error err, w, start⟩ := by
      unfold load
      rw [hm]
    rw [hrun]
    refine ⟨[], .nil (ContentSource.fetched_self _), fun err' herr => ?_⟩
    cases herr
    exact .inr (.space hm)
  | ok m =>
    obtain ⟨arrivals, hasked, hfails⟩ := copyPages_asked hlasting hm (w.source.answers.length + 1)
      none ⟨w, w.store.begin, start, .empty, { mode := .initial }⟩ (Nat.lt_succ_self _)
    cases hcopy : e.copyPages signal m (w.source.answers.length + 1) none
      ⟨w, w.store.begin, start, .empty, { mode := .initial }⟩ with
    | mk copied l₁ =>
    rw [hcopy] at hasked hfails
    cases copied with
    | error err =>
      have hrun : e.load signal save start w = ⟨.error err, l₁.world, l₁.moment⟩ := by
        unfold load
        rw [hm]
        dsimp only
        rw [hcopy]
      rw [hrun]
      exact ⟨arrivals, hasked, fun err' herr => hfails err' (by cases herr; rfl)⟩
    | ok token =>
    have hsource := (e.saveToken_frame save token l₁).1
    cases hsave : e.saveToken save token l₁ with
    | mk saved l₂ =>
    rw [hsave] at hsource
    dsimp only at hasked hsource
    rw [← hsource] at hasked
    cases saved with
    | error err =>
      have hrun : e.load signal save start w = ⟨.error err, l₂.world, l₂.moment⟩ := by
        unfold load
        rw [hm]
        dsimp only
        rw [hcopy]
        dsimp only
        rw [hsave]
      rw [hrun]
      refine ⟨arrivals, hasked, fun err' herr => ?_⟩
      cases herr
      cases save with
      | true => exact .inr (.token (congrArg Prod.fst hsave))
      | false => cases hsave
    | ok u =>
      obtain ⟨store, -, hrun⟩ := load_of_steps hm hcopy hsave
      rw [hrun]
      exact ⟨arrivals, hasked, nofun⟩

/-- What passes between the arrival of a page and the next look at the signal that precedes a request:
nothing in a load, another look in a cycle that continues at a token. -/
def pause : Option String → Moment → Moment
  | none => id
  | some _ => Moment.afterLook

/-- The second data are the first with some pages committed. A load commits all pages of the feed at
once, with the token at its end if that is to be stored, or none at all. A cycle that continues at a
token commits every page with its token. -/
def Commits (e : Engine) (save : Bool) (pages : List SyncPage) (d d' : Database) :
    Option String → Prop
  | none => (pages = [] ∧ d' = d) ∨ ∃ m batches token, Mapping.of e.schema e.space = .ok m ∧
      SyncPage.EndAt pages token ∧ m.copyBatches e.namespaceName .empty pages = .ok batches ∧
      d.applyAll (batches.flatten ++ e.closing save token) = .ok d'
  | some _ => ∃ batches, pages.mapM e.pageBatch = .ok batches ∧ d.applyAll batches.flatten = .ok d'

/-- How a cycle heeds the signal. It asks for each page while the signal has not come. It commits the
first of the pages that arrive, and only the page that ends the feed of a load can be among them when it
has arrived behind the signal. It succeeds when all pages up to the end of the feed are committed. -/
structure Heeds (e : Engine) (signal : Signal) (save : Bool) (token? : Option String)
    (start : Moment) (w : World) (c : CycleEnd) (arrivals committed : List Arrival) : Prop where
  asked : ContentSource.Asked e.config signal (pause token?) token? w.source start c.world.source
    arrivals
  isPrefix : committed <+: arrivals
  commits : e.Commits save (committed.map Arrival.page) w.store.database c.world.store.database
    token?
  late : ∀ a ∈ committed, signal.hasCome a.arrived = true →
    token? = none ∧ committed.getLast? = some a ∧ a.page.cursor.isDone = true
  succeeded : ∀ report, c.result = .ok report →
    committed = arrivals ∧ ∃ last, SyncPage.EndAt (arrivals.map Arrival.page) last
  failed : ∀ err, c.result = .error err → e.Fails signal w.source c.world.source c.moment err

/-- A load heeds the signal. -/
theorem load_heeds (hlasting : signal.Lasting) (e : Engine) (save : Bool) (start : Moment)
    (w : World) : ∃ arrivals committed,
      e.Heeds signal save none start w (e.load signal save start w) arrivals committed := by
  obtain ⟨arrivals, hasked, hfails⟩ := load_asked hlasting e save start w
  obtain ⟨-, ⟨err, herr, hdatabase⟩ | ⟨report, m, token, batches, hok, hm, hend, hbatches,
    happly⟩⟩ := e.load_cases signal save start w
  · refine ⟨arrivals, [], hasked, List.nil_prefix, .inl ⟨rfl, hdatabase⟩, nofun, ?_, hfails⟩
    intro report hok
    rw [herr] at hok
    cases hok
  · rw [← hasked.pages] at hend hbatches
    refine ⟨arrivals, arrivals, hasked, List.prefix_rfl,
      .inr ⟨m, batches, token, hm, hend, hbatches, happly⟩, fun a ha hlate => ?_,
      fun _ _ => ⟨rfl, token, hend⟩, hfails⟩
    have hlast := hasked.arrives.last_of_late hasked.asked a ha hlate
    refine ⟨rfl, hlast, ?_⟩
    obtain ⟨p, hp, hdone⟩ := hend.getLast?
    rw [List.getLast?_map, hlast] at hp
    exact Option.some.inj hp ▸ hdone

/-- A cycle of news heeds the signal. -/
theorem delta_heeds (hlasting : signal.Lasting) (e : Engine) (token : String) (start : Moment)
    (w : World) : ∃ arrivals committed,
      e.Heeds signal true (some token) start w (e.delta signal token start w) arrivals
        committed := by
  obtain ⟨arrivals, applied, hasked, hprefix, happlied, hbatches, hok, hfails⟩ :=
    applyPages_asked (e := e) hlasting (w.source.answers.length + 1) token
      ⟨w, start, { mode := .delta }⟩ (Nat.lt_succ_self _)
  let run := e.applyPages signal (w.source.answers.length + 1) token ⟨w, start, { mode := .delta }⟩
  have hresult : (e.delta signal token start w).result
      = run.1.map fun token => { run.2.report with token? := some token } := rfl
  refine ⟨arrivals, applied, hasked, hprefix, hbatches, fun a ha hlate => ?_, ?_, ?_⟩
  · rw [happlied a ha] at hlate
    cases hlate
  · intro report hreport
    rw [hresult] at hreport
    obtain ⟨last, hlast, -⟩ := map_eq_ok.1 hreport
    exact ⟨(hok last hlast).1, last, (hok last hlast).2⟩
  · intro err herr
    refine hfails err ?_
    rw [hresult] at herr
    change run.1 = _
    cases hrun : run.1 with
    | error err' =>
      rw [hrun] at herr
      cases herr
      rfl
    | ok last =>
      rw [hrun] at herr
      cases herr

/-- The token that a cycle leaves is that of the last page that it has committed, or the former one. -/
theorem Heeds.syncToken? {w : World} {c : CycleEnd} {arrivals committed : List Arrival}
    (h : e.Heeds signal true (w.store.syncToken? e.namespaceName) start w c arrivals committed) :
    c.world.store.syncToken? e.namespaceName
      = (committed.getLast?.map fun a => a.page.cursor.token).or
          (w.store.syncToken? e.namespaceName) := by
  have hcommits := h.commits
  cases htoken : w.store.syncToken? e.namespaceName with
  | none =>
    rw [htoken] at hcommits
    rcases hcommits with ⟨hnone, hdatabase⟩ | ⟨m, batches, token, -, hend, -, happly⟩
    · rw [List.map_eq_nil_iff.1 hnone]
      unfold Store.syncToken?
      rw [hdatabase]
      exact htoken
    · obtain ⟨d, -, hlast⟩ := Database.applyAll_append.1 happly
      have hstored := Database.syncToken?_saveSyncToken (Database.applyAll_singleton.1 hlast)
      have htokens := hend.token_getLast?
      rw [List.getLast?_map, Option.map_map] at htokens
      exact hstored.trans ((congrArg (Option.or · none) htokens).symm)
  | some token =>
    rw [htoken] at hcommits
    obtain ⟨batches, hbatches, happly⟩ := hcommits
    refine (Database.syncToken?_pages hbatches happly htoken).trans ?_
    unfold SyncPage.tokenAfter
    rw [List.getLast?_map, Option.map_map]
    cases committed.getLast? <;> rfl

/-- The signal does not come while the page that ends the feed is on its way. -/
def InTime (signal : Signal) (arrivals : List Arrival) : Prop :=
  ∀ a ∈ arrivals, a.page.cursor.isDone = true → signal.hasCome a.asked = false →
    signal.hasCome a.arrived = false

/-- The signal stops a cycle: no page is committed that has arrived behind it, and the cycle is
cancelled unless it has fetched the whole feed before the signal or failed for another reason. -/
structure Stops (e : Engine) (signal : Signal) (w : World) (c : CycleEnd)
    (arrivals committed : List Arrival) : Prop where
  inTime : ∀ a ∈ committed, signal.hasCome a.arrived = false
  cancelled : c.result = .error .cancelled ∨
    (∃ last, SyncPage.EndAt (arrivals.map Arrival.page) last ∧
      ∀ a ∈ arrivals, signal.hasCome a.arrived = false) ∨
    ∃ err, c.result = .error err ∧ e.Refuses w.source c.world.source err

/-- A cycle that heeds the signal is stopped by it, unless it is a load and the signal comes while the
page that ends the feed is on its way. -/
theorem Heeds.stops {save : Bool} {token? : Option String} {start : Moment} {w : World}
    {c : CycleEnd} {arrivals committed : List Arrival}
    (h : e.Heeds signal save token? start w c arrivals committed)
    (hintime : token? = none → InTime signal arrivals) : e.Stops signal w c arrivals committed := by
  have hcommitted : ∀ a ∈ committed, signal.hasCome a.arrived = false := by
    intro a ha
    refine Bool.eq_false_iff.2 fun hlate => ?_
    obtain ⟨hnone, -, hdone⟩ := h.late a ha hlate
    have harrival := h.isPrefix.subset ha
    rw [hintime hnone a harrival hdone (h.asked.asked a harrival)] at hlate
    cases hlate
  refine ⟨hcommitted, ?_⟩
  cases hresult : c.result with
  | ok report =>
    obtain ⟨rfl, last, hend⟩ := h.succeeded report hresult
    exact .inr (.inl ⟨last, hend, hcommitted⟩)
  | error err =>
    rcases h.failed err hresult with ⟨rfl, -⟩ | hrefuses
    · exact .inl rfl
    · exact .inr (.inr ⟨err, rfl, hrefuses⟩)

/-- Cycles and bulk loads heed the signal. The token that a cycle leaves is that of the last page that it
has committed, or the former one. So the signal stops every cycle that continues at a token, and it
stops the others unless it comes while the page that ends the feed is on its way. -/
theorem run_heeds {signal : Signal} (hlasting : signal.Lasting) (e : Engine) (w : World) :
    (∃ arrivals committed,
      e.Heeds signal true (w.store.syncToken? e.namespaceName) .start w (e.run signal w) arrivals
        committed ∧
      (e.run signal w).world.store.syncToken? e.namespaceName
        = (committed.getLast?.map fun a => a.page.cursor.token).or
            (w.store.syncToken? e.namespaceName) ∧
      ((w.store.syncToken? e.namespaceName = none → InTime signal arrivals) →
        e.Stops signal w (e.run signal w) arrivals committed)) ∧
    ∀ start, ∃ arrivals committed,
      e.Heeds signal false none start w (e.bulkLoad signal start w) arrivals committed ∧
      (InTime signal arrivals → e.Stops signal w (e.bulkLoad signal start w) arrivals committed) := by
  refine ⟨?_, fun start => ?_⟩
  · have hheeds : ∃ arrivals committed, e.Heeds signal true (w.store.syncToken? e.namespaceName)
        .start w (e.run signal w) arrivals committed := by
      cases htoken : w.store.syncToken? e.namespaceName with
      | none =>
        rw [run_of_none htoken]
        exact load_heeds hlasting e true .start w
      | some token =>
        rw [run_of_some htoken]
        exact delta_heeds hlasting e token .start w
    obtain ⟨arrivals, committed, hheeds⟩ := hheeds
    exact ⟨arrivals, committed, hheeds, hheeds.syncToken?, hheeds.stops⟩
  · obtain ⟨arrivals, committed, hheeds⟩ := load_heeds hlasting e false start w
    exact ⟨arrivals, committed, hheeds, fun hintime => hheeds.stops fun _ => hintime⟩

end Engine

namespace Catalog

/-- The feed of the catalog since its start, in two pages, beside the store that has the token there. -/
def news : World :=
  ⟨{ source with answers := [.ok (feed "start"), .ok (feed "first")] }, interrupted.store⟩

/-- The feed of the catalog in one page, beside the store without a token. -/
def onePage : World := ⟨{ source with answers := [.ok (feed "first")] }, setUp⟩

end Catalog

namespace Engine

/-- The signal comes while the second page of the news is on its way: the first page stays, the second is
not committed. -/
theorem run_heeds_catalog :
    (Signal.duringAnswer 2).Lasting ∧
    ((Catalog.engine.run (.duringAnswer 2) Catalog.news).result.isOk = false ∧
      (Catalog.engine.run (.duringAnswer 2) Catalog.news).world.source.answers.length = 0) ∧
    ∃ arrivals committed,
      Catalog.engine.Stops (.duringAnswer 2) Catalog.news
        (Catalog.engine.run (.duringAnswer 2) Catalog.news) arrivals committed ∧
      (committed.getLast?.map fun a => a.page.cursor.token) = some "first" := by
  have hlasting := Signal.duringAnswer_lasting 2
  obtain ⟨⟨arrivals, committed, -, htoken, hstops⟩, -⟩ :=
    run_heeds hlasting Catalog.engine Catalog.news
  have hrun : Catalog.news.store.syncToken? Catalog.namespaceName = some "start" ∧
      (Catalog.engine.run (.duringAnswer 2) Catalog.news).world.store.syncToken?
        Catalog.namespaceName = some "first" ∧
      (Catalog.engine.run (.duringAnswer 2) Catalog.news).result.isOk = false ∧
      (Catalog.engine.run (.duringAnswer 2) Catalog.news).world.source.answers.length = 0 := by
    decide +kernel
  obtain ⟨hstart, hend, hresult⟩ := hrun
  refine ⟨hlasting, hresult, arrivals, committed, hstops fun hnone => ?_, ?_⟩
  · cases hstart.symm.trans hnone
  · have hlast := hend.symm.trans htoken
    cases hcommitted : committed.getLast? with
    | none =>
      rw [hcommitted] at hlast
      have hlast := hlast.trans hstart
      exact absurd hlast (by decide)
    | some a =>
      rw [hcommitted] at hlast
      exact hlast.symm

/-- The signal comes while the only page of the feed is on its way. It has come when the page arrives, and
the load commits the page with its token. -/
theorem run_heeds_needs_time :
    (Signal.duringAnswer 1).hasCome (Catalog.onePage.source.fetch Catalog.engine.config
      (.duringAnswer 1) none Moment.start.afterLook).2.2 = true ∧
    (Catalog.engine.run (.duringAnswer 1) Catalog.onePage).result.isOk = true ∧
    (Catalog.engine.run (.duringAnswer 1) Catalog.onePage).world.store.syncToken?
      Catalog.namespaceName = some "second" := by
  decide +kernel

end Engine

end ContentReplica
