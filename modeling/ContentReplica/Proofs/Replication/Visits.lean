import ContentReplica.Proofs.Replication.Cancellation

/-!
# Following the cursors

A fetch that nothing stops visits the source once: it asks at one token, again after each rate limit,
and takes the first other answer, or the last rate limit when the retries are used up
(`ContentSource.fetch_visit`).

A cycle makes its visits one after the other, the first at the token where it starts, each other one at
the cursor of the page before. It makes no further one behind the page that ends the feed, an answer
that is a failure, and a page that could not be brought into the store (`Course`). The loops of news and
of loads do so alike (`PageLoop.course`), so every cycle does (`Engine.run_visits`).
-/

namespace ContentReplica

/-- The signal that never comes has come at no moment. -/
theorem Signal.hasCome_never (m : Moment) : never.hasCome m = false := rfl

/-! ## Visits -/

/-- The requests for one page: the token at which they are made, the hints of the rate limits that were
sat out, and the answer taken in the end. -/
structure Visit where
  token? : Option String
  limits : List (Option Nat)
  answer : Answer

namespace Visit

/-- The tokens of the requests: one request, and one more after each rate limit. -/
def tokens (v : Visit) : List (Option String) := List.replicate (v.limits.length + 1) v.token?

/-- The requests with their answers. -/
def exchanges (v : Visit) : List (Option String × Answer) :=
  v.limits.map (fun hint => (v.token?, .error (.rateLimited hint))) ++ [(v.token?, v.answer)]

/-- A visit with so many retries left: it sits out no more rate limits, and takes one for its answer only
when no retry is left. -/
structure Bounded (retries : Nat) (v : Visit) : Prop where
  limits : v.limits.length ≤ retries
  exhausted : ∀ hint, v.answer = .error (.rateLimited hint) → v.limits.length = retries

/-- A visit that takes the first answer. -/
theorem Bounded.first {retries : Nat} {v : Visit} (hlimits : v.limits = [])
    (hanswer : ∀ hint, v.answer = .error (.rateLimited hint) → retries = 0) : v.Bounded retries where
  limits := hlimits ▸ Nat.zero_le retries
  exhausted hint h := by
    rw [hanswer hint h, hlimits]
    rfl

/-- The same visit with a rate limit before it. -/
def after (hint : Option Nat) (v : Visit) : Visit := { v with limits := hint :: v.limits }

/-- A rate limit makes one more request. -/
theorem tokens_after (v : Visit) (hint : Option Nat) :
    (v.after hint).tokens = v.token? :: v.tokens := rfl

/-- A rate limit is one more exchange. -/
theorem exchanges_after (v : Visit) (hint : Option Nat) :
    (v.after hint).exchanges = (v.token?, .error (.rateLimited hint)) :: v.exchanges := rfl

/-- One more rate limit takes one more retry. -/
theorem Bounded.after {retries : Nat} {v : Visit} (h : v.Bounded retries) (hint : Option Nat) :
    (v.after hint).Bounded (retries + 1) where
  limits := Nat.succ_le_succ h.limits
  exhausted hint' hanswer := congrArg Nat.succ (h.exhausted hint' hanswer)

end Visit

namespace ContentSource

/-- Between two states a source was visited so and asked for nothing else. -/
structure Served (before after : ContentSource) (visits : List Visit) : Prop where
  later : before.Later after
  requests : after.requests = before.requests ++ visits.flatMap Visit.tokens
  exchanges : before.exchanges after = visits.flatMap Visit.exchanges

section
variable {s s' s'' : ContentSource} {visits visits' : List Visit}

/-- A source that was asked for one page has answered its requests in order. -/
theorem Served.singleton {v : Visit} (hrequests : s'.requests = s.requests ++ v.tokens)
    (hanswers : s'.answers = s.answers.drop v.tokens.length)
    (hexchanges : answered v.tokens s.answers = v.exchanges) : s.Served s' [v] where
  later := ⟨v.tokens, hrequests, hanswers⟩
  requests := by rw [List.flatMap_singleton, hrequests]
  exchanges := by rw [List.flatMap_singleton, exchanges_eq hrequests, hexchanges]

/-- The visits of two times in a row. -/
theorem Served.append (h : s.Served s' visits) (h' : s'.Served s'' visits') :
    s.Served s'' (visits ++ visits') where
  later := h.later.trans h'.later
  requests := by rw [h'.requests, h.requests, List.append_assoc, List.flatMap_append]
  exchanges := by
    rw [h.later.exchanges_append h'.later, h.exchanges, h'.exchanges, List.flatMap_append]

end

/-! ## One fetch -/

/-- A fetch that nothing stops is one visit, within the retries that are left. -/
theorem fetchFrom_visit (config : SyncConfig) (token? : Option String) :
    ∀ (answers : List Answer) (attempts : Nat) (m : Moment),
      attempts ≤ config.maxRateLimitRetries → ∃ v : Visit, v.token? = token? ∧
        v.Bounded (config.maxRateLimitRetries - attempts) ∧
        answered v.tokens answers = v.exchanges ∧
        fetchFrom config .never token? attempts m answers
          = ⟨v.answer, answers.drop v.tokens.length,
              (fetchFrom config .never token? attempts m answers).moment⟩ ∧
        (fetchFrom config .never token? attempts m answers).moment.answers
          = m.answers + v.tokens.length
  | [], attempts, m, _ => ⟨⟨token?, [], .ok (noNews token?)⟩, rfl, .first rfl nofun, rfl, rfl, rfl⟩
  | answer :: rest, attempts, m, hattempts => by
    unfold fetchFrom
    dsimp only
    split
    · next hint =>
      split
      · next htry =>
        -- nothing stops the wait, so the same page is asked for again
        rw [Signal.hasCome_never, Bool.and_false, if_neg Bool.false_ne_true]
        obtain ⟨v, htoken, hbounded, hexchanges, hfetch, hmoment⟩ :=
          fetchFrom_visit config token? rest (attempts + 1) m.afterAnswer.afterLook htry
        have hretries : config.maxRateLimitRetries - attempts
            = config.maxRateLimitRetries - (attempts + 1) + 1 := by omega
        refine ⟨v.after hint, htoken, hretries ▸ hbounded.after hint, ?_, ?_, ?_⟩
        · rw [Visit.tokens_after, Visit.exchanges_after, answered, hexchanges, htoken]
        · rw [Visit.tokens_after, List.length_cons, List.drop_succ_cons]
          exact hfetch
        · rw [Visit.tokens_after, List.length_cons, hmoment]
          change m.answers + 1 + v.tokens.length = m.answers + (v.tokens.length + 1)
          omega
      · next htry =>
        refine ⟨⟨token?, [], _⟩, rfl, .first rfl fun _ _ => ?_, rfl, rfl, rfl⟩
        omega
    · next hother =>
      exact ⟨⟨token?, [], answer⟩, rfl, .first rfl fun hint h => (hother hint h).elim, rfl, rfl, rfl⟩

/-- A fetch that nothing stops is one visit. -/
theorem fetch_visit {s s' : ContentSource} {config : SyncConfig} {token? : Option String}
    {m m' : Moment} {outcome : Answer}
    (h : s.fetch config .never token? m = (outcome, s', m')) :
    ∃ v : Visit, v.token? = token? ∧ v.answer = outcome ∧ v.Bounded config.maxRateLimitRetries ∧
      s.Served s' [v] := by
  obtain ⟨v, rfl, hbounded, hexchanges, hfetch, hmoment⟩ :=
    fetchFrom_visit config token? s.answers 0 m (Nat.zero_le _)
  have htokens : v.tokens = List.replicate v.tokens.length v.token? := by
    rw [Visit.tokens, List.length_replicate]
  unfold fetch at h
  dsimp only at h
  rw [hmoment, Nat.add_sub_cancel_left, hfetch, ← htokens] at h
  cases h
  exact ⟨v, rfl, rfl, hbounded, .singleton rfl rfl hexchanges⟩

end ContentSource

/-! ## The course of a cycle -/

/-- The visits of a cycle that starts at a token, what becomes of its pages, and how it ends. A page is
brought into `σ`, and the next visit is at its cursor. The last visit is one that takes a failure, or one
whose page could not be brought in or ends the feed. -/
inductive Course {σ : Type} (retries : Nat) (bring : SyncPage → σ → Except Error Unit × σ) :
    Option String → σ → List Visit → Except Error String → σ → Prop
  | surfaced {v : Visit} {s : σ} {err : Error} (hbounded : v.Bounded retries)
      (hanswer : v.answer = .error err) : Course retries bring v.token? s [v] (.error err) s
  | refused {v : Visit} {s s' : σ} {p : SyncPage} {err : Error} (hbounded : v.Bounded retries)
      (hanswer : v.answer = .ok p) (hbring : bring p s = (.error err, s')) :
      Course retries bring v.token? s [v] (.error err) s'
  | ended {v : Visit} {s s' : σ} {p : SyncPage} (hbounded : v.Bounded retries)
      (hanswer : v.answer = .ok p) (hbring : bring p s = (.ok (), s'))
      (hdone : p.cursor.isDone = true) :
      Course retries bring v.token? s [v] (.ok p.cursor.token) s'
  | more {v : Visit} {s s' s'' : σ} {p : SyncPage} {visits : List Visit}
      {result : Except Error String} (hbounded : v.Bounded retries) (hanswer : v.answer = .ok p)
      (hbring : bring p s = (.ok (), s')) (hmore : p.cursor.isDone = false)
      (hrest : Course retries bring (some p.cursor.token) s' visits result s'') :
      Course retries bring v.token? s (v :: visits) result s''

/-- A loop over the pages of a feed: how it runs on its fuel, its token and its state, what it does with a
page, which token it asks for and goes on with, and the source and the other data in its state. -/
structure PageLoop (τ α σ : Type) where
  run : Nat → τ → α → Except Error String × α
  bring : SyncPage → σ → Except Error Unit × σ
  ask : τ → Option String
  next : String → τ
  source : α → ContentSource
  data : α → σ

namespace PageLoop

variable {τ α σ : Type} {config : SyncConfig}

/-- How a loop goes on with a page that was brought in or not: it stops at a failure and at the page that
ends the feed. -/
def goOn (loop : PageLoop τ α σ) (fuel : Nat) (p : SyncPage) :
    Except Error Unit → α → Except Error String × α
  | .error err, a => (.error err, a)
  | .ok (), a =>
    if p.cursor.isDone then (.ok p.cursor.token, a) else loop.run fuel (loop.next p.cursor.token) a

/-- One round of a loop that nothing stops. It fetches a page and brings it in. -/
inductive Round (loop : PageLoop τ α σ) (config : SyncConfig) (fuel : Nat) (t : τ) (a : α) : Prop
  | surfaced {err : Error} {m m' : Moment} {b : α}
      (hfetch : (loop.source a).fetch config .never (loop.ask t) m
        = (.error err, loop.source b, m'))
      (hdata : loop.data b = loop.data a) (hrun : loop.run (fuel + 1) t a = (.error err, b))
  | page {p : SyncPage} {result : Except Error Unit} {m m' : Moment} {b : α}
      (hfetch : (loop.source a).fetch config .never (loop.ask t) m = (.ok p, loop.source b, m'))
      (hbring : loop.bring p (loop.data a) = (result, loop.data b))
      (hrun : loop.run (fuel + 1) t a = loop.goOn fuel p result b)

/-- A loop follows the cursors when its rounds do, on fuel for the answers that are prepared. -/
theorem course {loop : PageLoop τ α σ} (hround : ∀ fuel t a, loop.Round config fuel t a)
    (hnext : ∀ token, loop.ask (loop.next token) = some token) :
    ∀ (fuel : Nat) (t : τ) (a : α), (loop.source a).answers.length < fuel → ∃ visits,
      Course config.maxRateLimitRetries loop.bring (loop.ask t) (loop.data a) visits
        (loop.run fuel t a).1 (loop.data (loop.run fuel t a).2) ∧
      (loop.source a).Served (loop.source (loop.run fuel t a).2) visits
  | 0, _, _, hfuel => absurd hfuel (Nat.not_lt_zero _)
  | fuel + 1, t, a, hfuel => by
    cases hround fuel t a with
    | surfaced hfetch hdata hrun =>
      obtain ⟨v, htoken, hanswer, hbounded, hserved⟩ := ContentSource.fetch_visit hfetch
      rw [hrun, hdata, ← htoken]
      exact ⟨[v], .surfaced hbounded hanswer, hserved⟩
    | @page p result m m' b hfetch hbring hrun =>
      obtain ⟨v, htoken, hanswer, hbounded, hserved⟩ := ContentSource.fetch_visit hfetch
      rw [hrun, ← htoken]
      cases result with
      | error err => exact ⟨[v], .refused hbounded hanswer hbring, hserved⟩
      | ok u =>
        rw [goOn]
        split
        · next hdone => exact ⟨[v], .ended hbounded hanswer hbring hdone, hserved⟩
        · next hmore =>
          -- such a page was prepared, so the fuel lasts for the answers behind it
          have hmore := Bool.eq_false_iff.2 hmore
          have hshorter := ContentSource.length_of_fetch hfetch hmore
          obtain ⟨visits, hcourse, hrest⟩ :=
            course hround hnext fuel (loop.next p.cursor.token) b (by omega)
          rw [hnext] at hcourse
          exact ⟨v :: visits, .more hbounded hanswer hbring hmore hcourse, hserved.append hrest⟩

end PageLoop

namespace Engine

/-! ## News -/

/-- Bring one page of news into a store: its batch is made and executed. -/
def bringNews (e : Engine) (p : SyncPage) (s : Store) : Except Error Unit × Store :=
  match e.pageBatch p with
  | .error err => (.error err, s)
  | .ok batch => s.execute batch

/-- What applying a page does with the store. -/
theorem bringNews_eq (e : Engine) (p : SyncPage) (a : Applying) :
    e.bringNews p a.world.store = ((e.applyPage p a).1, (e.applyPage p a).2.world.store) := by
  unfold applyPage bringNews Replica.pageBatch
  cases Mapping.of e.schema e.space with
  | error err => rfl
  | ok m =>
    -- the report converts the records once more, so it fails where the batch does
    dsimp only [bind, Except.bind]
    unfold Mapping.pageBatch Mapping.reportPage
    cases m.pageRecords p <;> rfl

/-- The loop of a cycle of news. -/
def newsLoop (e : Engine) : PageLoop String Applying Store where
  run := e.applyPages .never
  bring := e.bringNews
  ask := some
  next := id
  source a := a.world.source
  data a := a.world.store

/-- A round of a cycle of news. -/
theorem newsLoop_round (e : Engine) (fuel : Nat) (token : String) (a : Applying) :
    e.newsLoop.Round e.config fuel token a := by
  generalize hfetch : a.world.source.fetch e.config .never (some token) a.moment.afterLook = fetch
  obtain ⟨outcome, source, moment⟩ := fetch
  cases outcome with
  | error err =>
    refine .surfaced (b := ⟨⟨source, a.world.store⟩, moment, a.report⟩) hfetch rfl ?_
    change e.applyPages .never (fuel + 1) token a = _
    rw [applyPages, Signal.hasCome_never, if_neg Bool.false_ne_true, hfetch]
  | ok p =>
    have hbring := e.bringNews_eq p
      { a with moment := moment.afterLook, world := { a.world with source := source } }
    obtain ⟨hsource, -⟩ := e.applyPage_cases p
      { a with moment := moment.afterLook, world := { a.world with source := source } }
    generalize happly : e.applyPage p
      { a with moment := moment.afterLook, world := { a.world with source := source } } = applied
      at hbring hsource
    obtain ⟨result, a'⟩ := applied
    obtain rfl : a'.world.source = source := hsource
    refine .page hfetch hbring ?_
    change e.applyPages .never (fuel + 1) token a = _
    rw [applyPages, Signal.hasCome_never, if_neg Bool.false_ne_true, hfetch]
    dsimp only
    rw [Signal.hasCome_never, if_neg Bool.false_ne_true, happly]
    cases result <;> rfl

/-- A cycle of news that nothing stops follows the cursors. -/
theorem applyPages_course (e : Engine) (token : String) (a : Applying) {fuel : Nat}
    (hfuel : a.world.source.answers.length < fuel) : ∃ visits,
    Course e.config.maxRateLimitRetries e.bringNews (some token) a.world.store visits
      (e.applyPages .never fuel token a).1 (e.applyPages .never fuel token a).2.world.store ∧
    a.world.source.Served (e.applyPages .never fuel token a).2.world.source visits :=
  PageLoop.course e.newsLoop_round (fun _ => rfl) fuel token a hfuel

/-! ## Loads -/

/-- What a load brings the pages into. -/
structure Copying where
  store : Store
  transaction : Transaction
  copied : ByRecord Unit

/-- Bring one page into a load: its batch is made and, if there is anything to do, executed in the
transaction. -/
def bringCopy (e : Engine) (m : Mapping) (p : SyncPage) (c : Copying) :
    Except Error Unit × Copying :=
  match m.copyState c.copied p with
  | .error err => (.error err, c)
  | .ok s =>
    let batch := s.batch e.namespaceName
    if batch.isEmpty then (.ok (), { c with copied := s.copiedAfter })
    else
      let (result, transaction, store) := c.store.executeIn c.transaction batch
      (result, ⟨store, transaction, s.copiedAfter⟩)

/-- What a load under way has brought the pages into. -/
def Loading.copying (l : Loading) : Copying := ⟨l.world.store, l.transaction, l.copied⟩

/-- What copying a page does with the store and the transaction. -/
theorem bringCopy_eq (e : Engine) (m : Mapping) (p : SyncPage) (l : Loading) :
    e.bringCopy m p l.copying = ((e.copyPage m p l).1, (e.copyPage m p l).2.copying) := by
  unfold copyPage bringCopy Mapping.copyState
  cases hrecords : m.pageRecords p with
  | error err => rfl
  | ok records =>
    dsimp only [bind, Except.bind, pure, Except.pure, Loading.copying]
    split <;> rfl

/-- The loop of a load. -/
def copyLoop (e : Engine) (m : Mapping) : PageLoop (Option String) Loading Copying where
  run := e.copyPages .never m
  bring := e.bringCopy m
  ask := id
  next := some
  source l := l.world.source
  data := Loading.copying

/-- A round of a load. -/
theorem copyLoop_round (e : Engine) (m : Mapping) (fuel : Nat) (token? : Option String)
    (l : Loading) : (e.copyLoop m).Round e.config fuel token? l := by
  generalize hfetch : l.world.source.fetch e.config .never token? l.moment.afterLook = fetch
  obtain ⟨outcome, source, moment⟩ := fetch
  cases outcome with
  | error err =>
    refine .surfaced (b := { l with moment := moment, world := { l.world with source := source } })
      hfetch rfl ?_
    change e.copyPages .never m (fuel + 1) token? l = _
    rw [copyPages, Signal.hasCome_never, if_neg Bool.false_ne_true, hfetch]
  | ok p =>
    have hbring := e.bringCopy_eq m p
      { l with moment := moment, world := { l.world with source := source } }
    obtain ⟨hsource, -⟩ := e.copyPage_frame m p
      { l with moment := moment, world := { l.world with source := source } }
    generalize hcopy : e.copyPage m p
      { l with moment := moment, world := { l.world with source := source } } = copied
      at hbring hsource
    obtain ⟨result, l'⟩ := copied
    obtain rfl : l'.world.source = source := hsource
    refine .page hfetch hbring ?_
    change e.copyPages .never m (fuel + 1) token? l = _
    rw [copyPages, Signal.hasCome_never, if_neg Bool.false_ne_true, hfetch]
    dsimp only
    rw [hcopy]
    cases result <;> rfl

/-- A load that nothing stops follows the cursors while it copies pages. -/
theorem copyPages_course (e : Engine) (m : Mapping) (token? : Option String) (l : Loading)
    {fuel : Nat} (hfuel : l.world.source.answers.length < fuel) : ∃ visits,
    Course e.config.maxRateLimitRetries (e.bringCopy m) token? l.copying visits
      (e.copyPages .never m fuel token? l).1 (e.copyPages .never m fuel token? l).2.copying ∧
    l.world.source.Served (e.copyPages .never m fuel token? l).2.world.source visits :=
  PageLoop.course (e.copyLoop_round m) (fun _ => rfl) fuel token? l hfuel

/-! ## Cycles -/

/-- What a load asks the source. It follows the cursors from the start of the feed, fails with their
failure, and succeeds only at their end. In a space without a default locale it fails before the first
request. -/
inductive LoadCourse (e : Engine) (start : Moment) (w : World) (c : CycleEnd) : Prop
  | unasked {err : Error} (hm : Mapping.of e.schema e.space = .error err)
      (hend : c = ⟨.error err, w, start⟩)
  | asked {m : Mapping} {visits : List Visit} {result : Except Error String} {data : Copying}
      (hm : Mapping.of e.schema e.space = .ok m)
      (hcourse : Course e.config.maxRateLimitRetries (e.bringCopy m) none
        ⟨w.store, w.store.begin, .empty⟩ visits result data)
      (hserved : w.source.Served c.world.source visits)
      (hfailed : ∀ err, result = .error err → c.result = .error err)
      (hended : ∀ report, c.result = .ok report →
        ∃ token, result = .ok token ∧ report.token? = some token)

/-- A load that nothing stops follows the cursors. -/
theorem load_course (e : Engine) (save : Bool) (start : Moment) (w : World) :
    e.LoadCourse start w (e.load .never save start w) := by
  unfold load
  cases hm : Mapping.of e.schema e.space with
  | error err => exact .unasked hm rfl
  | ok m =>
    dsimp only
    obtain ⟨visits, hcourse, hserved⟩ := e.copyPages_course m none
      ⟨w, w.store.begin, start, .empty, { mode := .initial }⟩ (Nat.lt_succ_self _)
    generalize e.copyPages .never m (w.source.answers.length + 1) none
      ⟨w, w.store.begin, start, .empty, { mode := .initial }⟩ = run at hcourse hserved
    obtain ⟨copied, l⟩ := run
    cases copied with
    | error err => exact .asked hm hcourse hserved (fun _ herr => by cases herr; rfl) nofun
    | ok token =>
      dsimp only at hserved ⊢
      obtain ⟨hsource, -⟩ := e.saveToken_frame save token l
      generalize e.saveToken save token l = saving at hsource
      obtain ⟨saved, l'⟩ := saving
      rw [← show l'.world.source = l.world.source from hsource] at hserved
      cases saved with
      | error err => exact .asked hm hcourse hserved nofun nofun
      | ok u =>
        refine .asked hm hcourse hserved nofun fun report hreport => ⟨token, rfl, ?_⟩
        obtain ⟨_, -, rfl⟩ := map_eq_ok.1 hreport
        rfl

/-- What a cycle of news asks the source. It follows the cursors from its token on, and ends as they
do. -/
structure NewsCourse (e : Engine) (token : String) (w : World) (c : CycleEnd) (visits : List Visit)
    (result : Except Error String) : Prop where
  course : Course e.config.maxRateLimitRetries e.bringNews (some token) w.store visits result
    c.world.store
  served : w.source.Served c.world.source visits
  ends : c.result.map SyncReport.token? = result.map some

/-- A cycle of news that nothing stops follows the cursors. -/
theorem delta_course (e : Engine) (token : String) (start : Moment) (w : World) :
    ∃ visits result, e.NewsCourse token w (e.delta .never token start w) visits result := by
  obtain ⟨visits, hcourse, hserved⟩ := e.applyPages_course token ⟨w, start, { mode := .delta }⟩
    (Nat.lt_succ_self _)
  unfold delta
  generalize e.applyPages .never (w.source.answers.length + 1) token ⟨w, start, { mode := .delta }⟩
    = run at hcourse hserved
  obtain ⟨applied, a⟩ := run
  refine ⟨visits, applied, hcourse, hserved, ?_⟩
  cases applied <;> rfl

/-- Cycles and bulk loads that nothing stops follow the cursors. A cycle with a stored token does so from
there; any other cycle, and every bulk load, from the start of the feed. -/
theorem run_visits (e : Engine) (w : World) :
    (∀ token, w.store.syncToken? e.namespaceName = some token →
      ∃ visits result, e.NewsCourse token w (e.run .never w) visits result) ∧
    (w.store.syncToken? e.namespaceName = none → e.LoadCourse .start w (e.run .never w)) ∧
    ∀ start, e.LoadCourse start w (e.bulkLoad .never start w) := by
  refine ⟨fun token htoken => ?_, fun htoken => ?_, fun start => e.load_course false start w⟩
  · rw [run_of_some htoken]
    exact e.delta_course token .start w
  · rw [run_of_none htoken]
    exact e.load_course true .start w

end Engine

namespace Catalog

/-- The news of the catalog from a source that limits the rate before each page. -/
def limitedNews : World :=
  ⟨{ source with
      answers := [.error (.rateLimited none), .ok (feed "start"), .error (.rateLimited (some 5)),
        .error (.rateLimited none), .ok (feed "first")] }, interrupted.store⟩

/-- The feed of the catalog in one page behind more rate limits than a load sits out. -/
def limitedPage : World :=
  ⟨{ source with answers := List.replicate 6 (.error (.rateLimited none)) ++ [.ok (feed "first")] },
    setUp⟩

end Catalog

namespace Engine

/-- The limited news are followed to their end, each page at the cursor of the one before. The load sits
out five rate limits and fails with the sixth, and so does the bulk load. -/
theorem run_visits_catalog :
    Catalog.limitedNews.store.syncToken? Catalog.namespaceName = some "start" ∧
    (∃ visits result, Catalog.engine.NewsCourse "start" Catalog.limitedNews
        (Catalog.engine.run .never Catalog.limitedNews) visits result ∧
      visits.flatMap Visit.tokens
        = [some "start", some "start", some "first", some "first", some "first"] ∧
      result.isOk = true) ∧
    Catalog.limitedPage.store.syncToken? Catalog.namespaceName = none ∧
    Catalog.engine.LoadCourse .start Catalog.limitedPage
      (Catalog.engine.run .never Catalog.limitedPage) ∧
    Catalog.engine.LoadCourse .start Catalog.limitedPage
      (Catalog.engine.bulkLoad .never .start Catalog.limitedPage) ∧
    (Catalog.engine.run .never Catalog.limitedPage).world.source.requests
      = Catalog.limitedPage.source.requests ++ List.replicate 6 none ∧
    (Catalog.engine.run .never Catalog.limitedPage).result.isOk = false := by
  have hnews : Catalog.limitedNews.store.syncToken? Catalog.namespaceName = some "start" ∧
      (Catalog.engine.run .never Catalog.limitedNews).world.source.requests
        = Catalog.limitedNews.source.requests
          ++ [some "start", some "start", some "first", some "first", some "first"] ∧
      (Catalog.engine.run .never Catalog.limitedNews).result.isOk = true := by
    decide +kernel
  have hpage : Catalog.limitedPage.store.syncToken? Catalog.namespaceName = none ∧
      (Catalog.engine.run .never Catalog.limitedPage).world.source.requests
        = Catalog.limitedPage.source.requests ++ List.replicate 6 none ∧
      (Catalog.engine.run .never Catalog.limitedPage).result.isOk = false := by
    decide +kernel
  obtain ⟨hstored, hrequests, hok⟩ := hnews
  obtain ⟨hnone, hrequests', hfailed⟩ := hpage
  obtain ⟨visits, result, hcourse⟩ :=
    (run_visits Catalog.engine Catalog.limitedNews).1 "start" hstored
  obtain ⟨-, hload, hbulk⟩ := run_visits Catalog.engine Catalog.limitedPage
  refine ⟨hstored, ⟨visits, result, hcourse, ?_, ?_⟩, hnone, hload hnone, hbulk .start, hrequests',
    hfailed⟩
  · exact List.append_cancel_left (hcourse.served.requests.symm.trans hrequests)
  · obtain ⟨report, hreport⟩ := exists_of_isOk hok
    have hends := hcourse.ends
    rw [hreport] at hends
    cases result with
    | error err => cases hends
    | ok token => rfl

end Engine

end ContentReplica
