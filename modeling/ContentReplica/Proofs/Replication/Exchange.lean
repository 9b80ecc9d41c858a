import ContentReplica.Proofs.Outcome
import ContentReplica.Replication.Source

/-!
# What a source was asked

A source records the requests that it gets. Between two of its states, `ContentSource.exchanges` pairs
each request with its answer, and `ContentSource.fetched` are the pages among the answers. A fetch
makes requests at one token and ends with one page at most (`ContentSource.fetch_spec`).
-/

namespace ContentReplica

namespace ContentSource

/-- Requests with their answers: those prepared, in order, and no news when none is left. -/
def answered : List (Option String) → List Answer → List (Option String × Answer)
  | [], _ => []
  | token? :: tokens, [] => (token?, .ok (noNews token?)) :: answered tokens []
  | token? :: tokens, answer :: rest => (token?, answer) :: answered tokens rest

/-- The requests that were made between two states of a source, each with its answer. -/
def exchanges (before after : ContentSource) : List (Option String × Answer) :=
  answered (after.requests.drop before.requests.length) before.answers

/-- The pages that were fetched between two states of a source. -/
def fetched (before after : ContentSource) : List SyncPage :=
  (exchanges before after).filterMap fun exchange => exchange.2.toOption

/-- One state of a source comes after another: it got more requests, and each took an answer. -/
def Later (before after : ContentSource) : Prop :=
  ∃ tokens, after.requests = before.requests ++ tokens ∧
    after.answers = before.answers.drop tokens.length

/-- Requests are answered one after the other. -/
theorem answered_append (second : List (Option String)) :
    ∀ (first : List (Option String)) (answers : List Answer),
      answered (first ++ second) answers =
        answered first answers ++ answered second (answers.drop first.length)
  | [], _ => rfl
  | token? :: first, [] => by
    have hrest := answered_append second first []
    rw [List.drop_nil] at hrest
    rw [List.cons_append, answered, answered, hrest, List.cons_append, List.drop_nil]
  | token? :: first, answer :: rest => by
    rw [List.cons_append, answered, answered, answered_append second first rest, List.cons_append]
    rfl

section
variable {s s' s'' : ContentSource}

/-- A state comes after itself. -/
theorem Later.refl (s : ContentSource) : s.Later s := ⟨[], (List.append_nil _).symm, rfl⟩

/-- Coming after is transitive. -/
theorem Later.trans (h : s.Later s') (h' : s'.Later s'') : s.Later s'' := by
  obtain ⟨tokens, hrequests, hanswers⟩ := h
  obtain ⟨tokens', hrequests', hanswers'⟩ := h'
  refine ⟨tokens ++ tokens', ?_, ?_⟩
  · rw [hrequests', hrequests, List.append_assoc]
  · rw [hanswers', hanswers, List.drop_drop, List.length_append]

/-- The requests of a time in between. -/
theorem exchanges_eq {tokens : List (Option String)} (h : s'.requests = s.requests ++ tokens) :
    s.exchanges s' = answered tokens s.answers := by
  unfold exchanges
  rw [h, List.drop_left]

/-- The exchanges of two times in a row. -/
theorem Later.exchanges_append (h : s.Later s') (h' : s'.Later s'') :
    s.exchanges s'' = s.exchanges s' ++ s'.exchanges s'' := by
  obtain ⟨tokens, hrequests, hanswers⟩ := h
  obtain ⟨tokens', hrequests', -⟩ := h'
  have hall : s''.requests = s.requests ++ (tokens ++ tokens') := by
    rw [hrequests', hrequests, List.append_assoc]
  rw [exchanges_eq hall, exchanges_eq hrequests, exchanges_eq hrequests', answered_append, hanswers]

/-- The pages of two times in a row. -/
theorem Later.fetched_append (h : s.Later s') (h' : s'.Later s'') :
    s.fetched s'' = s.fetched s' ++ s'.fetched s'' := by
  unfold fetched
  rw [h.exchanges_append h', List.filterMap_append]

end

/-! ## One fetch -/

/-- Every answer that a fetch takes is a rate limit but the last one. -/
theorem fetchFrom_spec (config : SyncConfig) (signal : Signal) (token? : Option String) :
    ∀ (answers : List Answer) (attempts : Nat) (m : Moment), ∃ k,
      (fetchFrom config signal token? attempts m answers).moment.answers = m.answers + k ∧
      (fetchFrom config signal token? attempts m answers).rest = answers.drop k ∧
      (answered (List.replicate k token?) answers).filterMap (fun exchange => exchange.2.toOption)
        = (fetchFrom config signal token? attempts m answers).outcome.toOption.toList
  | [], _, _ => ⟨1, rfl, rfl, rfl⟩
  | answer :: rest, attempts, m => by
    unfold fetchFrom
    dsimp only
    split
    · next hint =>
      split
      · split
        · exact ⟨1, rfl, rfl, rfl⟩
        · obtain ⟨k, hanswers, hrest, hpages⟩ :=
            fetchFrom_spec config signal token? rest (attempts + 1) m.afterAnswer.afterLook
          refine ⟨k + 1, ?_, hrest, hpages⟩
          rw [hanswers]
          change m.answers + 1 + k = m.answers + (k + 1)
          omega
      · exact ⟨1, rfl, rfl, rfl⟩
    · refine ⟨1, rfl, rfl, ?_⟩
      cases answer <;> rfl

/-- A fetch requests at one token, and it ends with one page or with none. -/
theorem fetch_spec (s : ContentSource) (config : SyncConfig) (signal : Signal)
    (token? : Option String) (m : Moment) {outcome : Except Error SyncPage} {s' : ContentSource}
    {m' : Moment} (h : s.fetch config signal token? m = (outcome, s', m')) :
    s.Later s' ∧ s.fetched s' = outcome.toOption.toList ∧
      ∀ exchange ∈ s.exchanges s', exchange.1 = token? := by
  obtain ⟨k, hanswers, hrest, hpages⟩ := fetchFrom_spec config signal token? s.answers 0 m
  unfold fetch at h
  dsimp only at h
  rw [hanswers, Nat.add_sub_cancel_left, hrest] at h
  cases h
  have htoken : ∀ (k : Nat) (answers : List Answer),
      ∀ exchange ∈ answered (List.replicate k token?) answers, exchange.1 = token? := by
    intro k
    induction k with
    | zero => exact fun _ => nofun
    | succ k ih =>
      intro answers exchange hexchange
      cases answers with
      | nil => exact (List.mem_cons.1 hexchange).elim (fun he => he ▸ rfl) (ih [] exchange)
      | cons answer rest =>
        exact (List.mem_cons.1 hexchange).elim (fun he => he ▸ rfl) (ih rest exchange)
  refine ⟨⟨List.replicate k token?, rfl, by rw [List.length_replicate]⟩, ?_, ?_⟩
  · unfold fetched
    rw [exchanges_eq rfl]
    exact hpages
  · rw [exchanges_eq rfl]
    exact htoken k s.answers

/-- A fetch takes the page that is prepared. -/
theorem fetch_of_page {s : ContentSource} {p : SyncPage} {rest : List Answer}
    (h : s.answers = .ok p :: rest) (config : SyncConfig) (signal : Signal)
    (token? : Option String) (m : Moment) :
    ∃ s' m', s.fetch config signal token? m = (.ok p, s', m') ∧ s'.answers = rest := by
  unfold fetch
  rw [h]
  exact ⟨_, _, rfl, rfl⟩

end ContentSource

end ContentReplica
