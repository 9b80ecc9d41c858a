import ContentReplica.Replica
import ContentReplica.Replication.Copy
import ContentReplica.Replication.Source
import ContentReplica.Store

/-!
# Running a replication

`Engine.run` is one cycle of the replication of a space into a namespace. Without a stored token it
loads the whole feed in one transaction (`Engine.load`); with one it applies the news page by page,
each page with its token in one batch (`Engine.delta`). So a cycle that fails leaves the namespace at
a page of the feed, and the next one continues there.

The loops are bounded by the prepared answers of the source: every page takes one at least, and a
source without answers ends the cycle.
-/

namespace ContentReplica

/-- The lifecycle of a cycle. -/
inductive EngineState where
  | idle
  | fetching
  | applying
  | committed
  | failed
  deriving DecidableEq

/-- What brings the records of a space into a replica. -/
structure Engine extends Replica where
  config : SyncConfig

/-- The two sides of a replication. -/
structure World where
  source : ContentSource
  store : Store

/-- How a cycle ended, and at which moment of the run. -/
structure CycleEnd where
  result : Except Error SyncReport
  world : World
  moment : Moment

/-- The state of an engine after a cycle. -/
def CycleEnd.state (c : CycleEnd) : EngineState :=
  match c.result with
  | .ok _ => .committed
  | .error _ => .failed

namespace Engine

/-- Whether delivered definitions differ from the compiled ones. -/
def drifted (e : Engine) (delivered : List ContentType) : Bool :=
  delivered.any fun c =>
    (e.schema.entryTable? c.id).map TableLayout.fingerprint != some c.fingerprint

/-- The report after a page has arrived. -/
def reportArrival (e : Engine) (p : SyncPage) (r : SyncReport) : SyncReport :=
  { r with pages := r.pages + 1, schemaChanged := r.schemaChanged || e.drifted p.contentTypes }

/-! ## Bulk load -/

/-- A bulk load under way. -/
structure Loading where
  world : World
  transaction : Transaction
  moment : Moment
  copied : ByRecord Unit
  report : SyncReport

/-- Copy one page inside the transaction. -/
def copyPage (e : Engine) (m : Mapping) (p : SyncPage) (l : Loading) :
    Except Error Unit × Loading :=
  let report := e.reportArrival p l.report
  match m.pageRecords p with
  | .error err => (.error err, l)
  | .ok records =>
    let s := (CopyState.ofRecords l.copied records).buryAll p.deletions
    let batch := s.batch e.namespaceName
    let report := { report with
      rowsCopied := report.rowsCopied + s.rowCount
      deletions := report.deletions + s.deletions
      skipped := report.skipped + m.skippedEntries p }
    let l := { l with copied := s.copiedAfter, report := report }
    if batch.isEmpty then (.ok (), l)
    else
      let (result, transaction, store) := l.world.store.executeIn l.transaction batch
      (result, { l with transaction := transaction, world := { l.world with store := store } })

/-- Copy the pages of the feed from a token on, and give the token at its end. -/
def copyPages (e : Engine) (signal : Signal) (m : Mapping) :
    Nat → Option String → Loading → Except Error String × Loading
  | 0, _, l => (.error (.internal "no further answer"), l)
  | fuel + 1, token?, l =>
    if signal.hasCome l.moment then (.error .cancelled, l)
    else
      let (fetched, source, moment) :=
        l.world.source.fetch e.config signal token? l.moment.afterLook
      let l := { l with moment := moment, world := { l.world with source := source } }
      match fetched with
      | .error err => (.error err, l)
      | .ok page =>
        let (copied, l) := e.copyPage m page l
        match copied with
        | .error err => (.error err, l)
        | .ok () =>
          if page.cursor.isDone then (.ok page.cursor.token, l)
          else copyPages e signal m fuel (some page.cursor.token) l

/-- Store the token inside the transaction, if it is to be stored. -/
def saveToken (e : Engine) (save : Bool) (token : String) (l : Loading) :
    Except Error Unit × Loading :=
  if save then
    let (result, transaction, store) :=
      l.world.store.executeIn l.transaction [.saveSyncToken e.namespaceName token]
    (result, { l with transaction := transaction, world := { l.world with store := store } })
  else (.ok (), l)

/-- Load the whole feed in one transaction, with its token if that is to be stored. -/
def load (e : Engine) (signal : Signal) (save : Bool) (start : Moment) (w : World) : CycleEnd :=
  match Mapping.of e.schema e.space with
  | .error err => ⟨.error err, w, start⟩
  | .ok m =>
    let l : Loading := ⟨w, w.store.begin, start, .empty, { mode := .initial }⟩
    let (copied, l) := e.copyPages signal m (w.source.answers.length + 1) none l
    match copied with
    | .error err => ⟨.error err, l.world, l.moment⟩
    | .ok token =>
      let (saved, l) := e.saveToken save token l
      match saved with
      | .error err => ⟨.error err, l.world, l.moment⟩
      | .ok () =>
        let (committed, store) := l.world.store.commit l.transaction
        let report := { l.report with token? := some token }
        ⟨committed.map fun _ => report, { l.world with store := store }, l.moment⟩

/-! ## News -/

/-- A cycle of news under way. -/
structure Applying where
  world : World
  moment : Moment
  report : SyncReport

/-- Apply one page with its token as one batch. -/
def applyPage (e : Engine) (p : SyncPage) (a : Applying) : Except Error Unit × Applying :=
  let made : Except Error (List Statement × SyncReport) := do
    let m ← Mapping.of e.schema e.space
    let batch ← m.pageBatch e.namespaceName p
    return (batch, ← m.reportPage p (e.reportArrival p a.report))
  match made with
  | .error err => (.error err, a)
  | .ok (batch, report) =>
    let (result, store) := a.world.store.execute batch
    (result, { a with report := report, world := { a.world with store := store } })

/-- Apply the pages of the feed from a token on, and give the token at its end. -/
def applyPages (e : Engine) (signal : Signal) :
    Nat → String → Applying → Except Error String × Applying
  | 0, _, a => (.error (.internal "no further answer"), a)
  | fuel + 1, token, a =>
    if signal.hasCome a.moment then (.error .cancelled, a)
    else
      let (fetched, source, moment) :=
        a.world.source.fetch e.config signal (some token) a.moment.afterLook
      let a := { a with moment := moment, world := { a.world with source := source } }
      match fetched with
      | .error err => (.error err, a)
      | .ok page =>
        if signal.hasCome a.moment then (.error .cancelled, a)
        else
          let (applied, a) := e.applyPage page { a with moment := a.moment.afterLook }
          match applied with
          | .error err => (.error err, a)
          | .ok () =>
            if page.cursor.isDone then (.ok page.cursor.token, a)
            else applyPages e signal fuel page.cursor.token a

/-- Apply the news since a token. -/
def delta (e : Engine) (signal : Signal) (token : String) (start : Moment) (w : World) : CycleEnd :=
  let (applied, a) := e.applyPages signal (w.source.answers.length + 1) token
    ⟨w, start, { mode := .delta }⟩
  ⟨applied.map fun token => { a.report with token? := some token }, a.world, a.moment⟩

/-! ## Cycles -/

/-- One cycle: load the feed if no token is stored, else apply the news since the token. -/
def run (e : Engine) (signal : Signal) (w : World) : CycleEnd :=
  match w.store.syncToken? e.namespaceName with
  | none => e.load signal true .start w
  | some token => e.delta signal token .start w

/-- Load the feed from its start and leave the token to the caller. -/
def bulkLoad (e : Engine) (signal : Signal) (start : Moment) (w : World) : CycleEnd :=
  e.load signal false start w

end Engine

end ContentReplica
