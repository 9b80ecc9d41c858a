import ContentReplica.Config
import ContentReplica.Record
import ContentReplica.Space

/-!
# The content source

`ContentSource` is the other side of the replication: it reports its locales and content types, and
answers requests for pages of its feed one after the other. When it has no further answer prepared it
has no news, and answers with an empty page that ends the cycle where it began.

`Signal` is a request to stop that may come at any time and then lasts. A run looks at it at certain
moments, counted in answers received and looks taken (`Moment`).

`fetch` asks for one page and sits out rate limits, a bounded number of times.
-/

namespace ContentReplica

/-! ## Sources -/

/-- What the source answers to a request for a page. -/
abbrev Answer := Except Error SyncPage

/-- A content source. -/
structure ContentSource where
  space : Except Error Space
  contentTypes : Except Error (List ContentType)
  /-- The answers to come. -/
  answers : List Answer
  /-- The tokens of the requests so far. -/
  requests : List (Option String)

namespace ContentSource

/-- A source with the given locales and content types and no news. -/
def new (space : Space) (contentTypes : List ContentType) : ContentSource :=
  ⟨.ok space, .ok contentTypes, [], []⟩

/-- The answer of a source without news. -/
def noNews (token? : Option String) : SyncPage := .empty (.done (token?.getD "initial"))

end ContentSource

/-! ## The signal to stop -/

/-- A moment of a run: how many answers have come and how many looks at the signal were taken. -/
structure Moment where
  answers : Nat
  looks : Nat
  deriving DecidableEq

namespace Moment

/-- The beginning of a run. -/
def start : Moment := ⟨0, 0⟩

/-- The moment after one more answer. -/
def afterAnswer (m : Moment) : Moment := { m with answers := m.answers + 1 }

/-- The moment after one more look. -/
def afterLook (m : Moment) : Moment := { m with looks := m.looks + 1 }

end Moment

/-- A request to stop: whether it has come by a moment. -/
structure Signal where
  hasCome : Moment → Bool

namespace Signal

/-- The signal that never comes. -/
def never : Signal := ⟨fun _ => false⟩

/-- The signal that comes while the `n`-th answer is on its way, before the run if `n` is zero. -/
def duringAnswer (n : Nat) : Signal := ⟨fun m => decide (n ≤ m.answers)⟩

/-- Once the signal has come it stays. -/
def Lasting (s : Signal) : Prop :=
  ∀ m n : Moment, m.answers ≤ n.answers → m.looks ≤ n.looks → s.hasCome m = true →
    s.hasCome n = true

end Signal

/-! ## Fetching a page -/

/-- What a fetch ends with: its outcome, the answers still to come, and the moment. -/
structure Fetched where
  outcome : Except Error SyncPage
  rest : List Answer
  moment : Moment

/-- Ask for a page. A rate limit is sat out as long as the number of attempts allows; a wait that
begins after the signal has come stops the run. -/
def fetchFrom (config : SyncConfig) (signal : Signal) (token? : Option String) :
    Nat → Moment → List Answer → Fetched
  | _, m, [] => ⟨.ok (ContentSource.noNews token?), [], m.afterAnswer⟩
  | attempts, m, answer :: rest =>
    let m := m.afterAnswer
    match answer with
    | .error (.rateLimited hint) =>
      if attempts < config.maxRateLimitRetries then
        if 0 < hint.getD config.defaultBackoffMs && signal.hasCome m then
          ⟨.error .cancelled, rest, m.afterLook⟩
        else fetchFrom config signal token? (attempts + 1) m.afterLook rest
      else ⟨.error (.rateLimited hint), rest, m⟩
    | other => ⟨other, rest, m⟩

/-- Ask a source for the page at a token. -/
def ContentSource.fetch (s : ContentSource) (config : SyncConfig) (signal : Signal)
    (token? : Option String) (m : Moment) : Except Error SyncPage × ContentSource × Moment :=
  let f := fetchFrom config signal token? 0 m s.answers
  (f.outcome,
    { s with
      answers := f.rest
      requests := s.requests ++ List.replicate (f.moment.answers - m.answers) token? },
    f.moment)

end ContentReplica
