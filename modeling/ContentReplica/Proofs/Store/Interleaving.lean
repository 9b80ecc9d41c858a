import ContentReplica.Catalog
import ContentReplica.Plan.Generator
import ContentReplica.Proofs.Store.Locality
import ContentReplica.Proofs.Store.Transaction
import ContentReplica.Schema.Ddl
import ContentReplica.Views.Definitions

/-!
# Transactions among other clients

A `Session` is a store with an open transaction. It goes on by events: a batch of the transaction, or
a batch that another client executes on the store meanwhile. Since a statement reads only what it
writes, a transaction and clients of other namespaces do not notice each other: a transaction that
commits comes to what its batches come to after all the others (`Store.serializable`), and one that
ends otherwise leaves nothing.

The steps of the transaction keep the published data, so these are at every moment what the other
clients alone make of them (`Session.run_published`). Its working copy is compared with a store that
executes only its batches (`Session.run_working`).
-/

namespace ContentReplica

/-! ## Batches one after the other -/

/-- What comes of a batch: its result, and what its statements come to. -/
structure Report where
  result : Except Error Unit
  statements : List (Except StoreFault Unit)

/-- Whether one of some batches writes a namespace. -/
def WrittenBy (batches : List (List Statement)) (name : Ident) : Prop :=
  ∃ batch ∈ batches, ∃ statement ∈ batch, name ∈ statement.writes

/-- The first batch or a later one writes what a list of batches writes. -/
theorem writtenBy_cons {batch : List Statement} {batches : List (List Statement)} {name : Ident} :
    WrittenBy (batch :: batches) name ↔
      (∃ statement ∈ batch, name ∈ statement.writes) ∨ WrittenBy batches name := by
  simp [WrittenBy]

/-- One of two lists of batches writes what both together write. -/
theorem writtenBy_append {batches batches' : List (List Statement)} {name : Ident} :
    WrittenBy (batches ++ batches') name ↔ WrittenBy batches name ∨ WrittenBy batches' name := by
  simp [WrittenBy, or_and_right, exists_or]

namespace Store

/-- What the statements of a batch come to on some data. A batch for which a failure is asked runs none
of them. -/
def outcomes (s : Store) (d : Database) (batch : List Statement) : List (Except StoreFault Unit) :=
  match s.checkFailures batch with
  | .ok () => d.outcomes batch
  | .error _ => []

/-- What comes of a batch. -/
def report (s : Store) (batch : List Statement) : Report :=
  ⟨(s.execute batch).1, s.outcomes s.database batch⟩

/-- Execute batches one after the other, whatever comes of each. -/
def executeEvery (s : Store) : List (List Statement) → Store
  | [] => s
  | batch :: batches => (s.execute batch).2.executeEvery batches

/-- What comes of batches that are executed one after the other. -/
def reports (s : Store) : List (List Statement) → List Report
  | [] => []
  | batch :: batches => s.report batch :: (s.execute batch).2.reports batches

variable {s s' : Store} {p : Ident → Prop} {batch : List Statement}
  {batches batches' : List (List Statement)}

/-- Batches of two lists are executed one list after the other. -/
theorem executeEvery_append (s : Store) (batches batches' : List (List Statement)) :
    s.executeEvery (batches ++ batches') = (s.executeEvery batches).executeEvery batches' := by
  induction batches generalizing s with
  | nil => rfl
  | cons batch batches ih => exact ih _

/-- The second of two lists of batches reports on what the first has left. -/
theorem reports_append (s : Store) (batches batches' : List (List Statement)) :
    s.reports (batches ++ batches')
      = s.reports batches ++ (s.executeEvery batches).reports batches' := by
  induction batches generalizing s with
  | nil => rfl
  | cons batch batches ih => exact congrArg _ (ih _)

/-- Batches leave the failures that are asked for. -/
theorem failures_executeEvery (s : Store) (batches : List (List Statement)) :
    (s.executeEvery batches).failures = s.failures := by
  induction batches generalizing s with
  | nil => rfl
  | cons batch batches ih =>
    rcases s.execute_cases batch with ⟨d, s₁, -, -, hrun, -, hf⟩ | ⟨fault, s₁, hrun, -, hf⟩ <;>
      exact (ih _).trans (hrun ▸ hf)

/-- Batches leave the namespaces that none of them writes. -/
theorem executeEvery_frame {name : Ident} (h : ¬ WrittenBy batches name) :
    (s.executeEvery batches).namespace? name = s.namespace? name := by
  induction batches generalizing s with
  | nil => rfl
  | cons batch batches ih =>
    rw [writtenBy_cons, not_or] at h
    refine (ih h.2).trans (execute_frame rfl fun statement hs hname => h.1 ⟨statement, hs, hname⟩)

/-! ## Stores that agree -/

/-- Two stores ask for the same failures, and have the same namespaces under some names but for the
numbers of refreshes. -/
structure AgreeOn (s s' : Store) (p : Ident → Prop) : Prop where
  failures : s.failures = s'.failures
  database : s.database.AgreeOn s'.database p

/-- A batch meets the same failures. -/
theorem checkFailures_congr (h : s.failures = s'.failures) (batch : List Statement) :
    s.checkFailures batch = s'.checkFailures batch := by
  unfold checkFailures
  rw [h]

/-- A batch comes to the same on two stores that agree on what it writes. -/
theorem AgreeOn.execute (h : s.AgreeOn s' p) (hp : ∀ st ∈ batch, ∀ name ∈ st.writes, p name) :
    s.report batch = s'.report batch ∧ (s.execute batch).2.AgreeOn (s'.execute batch).2 p := by
  have hcheck := checkFailures_congr h.failures batch
  have happly := Database.applyAll_agrees h.database hp
  have houtcomes : s.outcomes s.database batch = s'.outcomes s'.database batch := by
    unfold outcomes
    rw [hcheck, Database.outcomes_agree h.database hp]
  simp only [report, execute_eq, houtcomes, hcheck]
  cases hrun : s'.checkFailures batch with
  | error fault => exact ⟨rfl, h.failures, h.database⟩
  | ok u =>
    generalize s.database.applyAll batch = run at happly ⊢
    generalize s'.database.applyAll batch = run' at happly ⊢
    cases happly with
    | refused fault => exact ⟨rfl, h.failures, h.database⟩
    | done hd => exact ⟨rfl, h.failures, hd⟩

/-- Batches come to the same on two stores that agree on what they write. -/
theorem AgreeOn.executeEvery (h : s.AgreeOn s' p) (batches : List (List Statement))
    (hp : ∀ name, WrittenBy batches name → p name) : s.reports batches = s'.reports batches ∧
      (s.executeEvery batches).AgreeOn (s'.executeEvery batches) p := by
  induction batches generalizing s s' with
  | nil => exact ⟨rfl, h⟩
  | cons batch batches ih =>
    obtain ⟨hreport, hnext⟩ := h.execute fun st hst name hname =>
      hp name (writtenBy_cons.2 (.inl ⟨st, hst, hname⟩))
    obtain ⟨hreports, hlast⟩ := ih hnext fun name hname => hp name (writtenBy_cons.2 (.inr hname))
    exact ⟨by rw [reports, reports, hreport, hreports], hlast⟩

/-- Two stores have the same data, and ask for the same failures. -/
structure SameData (s s' : Store) : Prop where
  failures : s.failures = s'.failures
  database : s.database = s'.database

/-- Batches come to the same on the same data. -/
theorem SameData.executeEvery (h : s.SameData s') (batches : List (List Statement)) :
    s.reports batches = s'.reports batches ∧
      (s.executeEvery batches).SameData (s'.executeEvery batches) := by
  induction batches generalizing s s' with
  | nil => exact ⟨rfl, h⟩
  | cons batch batches ih =>
    have hcheck := checkFailures_congr h.failures batch
    have hnext : s.report batch = s'.report batch ∧
        (s.execute batch).2.SameData (s'.execute batch).2 := by
      simp only [report, execute_eq, outcomes, hcheck, h.database]
      cases (do s'.checkFailures batch; s'.database.applyAll batch :
          Except StoreFault Database) with
      | error fault => exact ⟨rfl, h.failures, h.database⟩
      | ok d => exact ⟨rfl, h.failures, rfl⟩
    obtain ⟨hreports, hlast⟩ := ih hnext.2
    exact ⟨by rw [reports, reports, hnext.1, hreports], hlast⟩

end Store

/-! ## Sessions -/

/-- What happens while a transaction is open: a batch inside it, or a batch of another client. -/
inductive Event where
  | own (batch : List Statement)
  | other (batch : List Statement)

/-- The batches of the transaction. -/
def Event.ownBatches (events : List Event) : List (List Statement) :=
  events.filterMap fun
    | own batch => some batch
    | other _ => none

/-- The batches of the other clients. -/
def Event.otherBatches (events : List Event) : List (List Statement) :=
  events.filterMap fun
    | own _ => none
    | other batch => some batch

/-- A store with an open transaction. -/
structure Session where
  store : Store
  transaction : Transaction

/-- Begin a transaction. -/
def Store.session (s : Store) : Session := ⟨s, s.begin⟩

namespace Session

/-- Go on by one event. -/
def step (σ : Session) : Event → Session
  | .own batch =>
    let run := σ.store.executeIn σ.transaction batch
    ⟨run.2.2, run.2.1⟩
  | .other batch => ⟨(σ.store.execute batch).2, σ.transaction⟩

/-- Go on by events. -/
def run (σ : Session) : List Event → Session
  | [] => σ
  | event :: events => (σ.step event).run events

/-- What comes of a batch inside the transaction. -/
def report (σ : Session) (batch : List Statement) : Report :=
  ⟨(σ.store.executeIn σ.transaction batch).1,
    if σ.transaction.aborted then [] else σ.store.outcomes σ.transaction.working batch⟩

/-- What comes of the batches of the transaction. -/
def ownReports (σ : Session) : List Event → List Report
  | [] => []
  | .own batch :: events => σ.report batch :: (σ.step (.own batch)).ownReports events
  | .other batch :: events => (σ.step (.other batch)).ownReports events

/-- What comes of the batches of the other clients. -/
def otherReports (σ : Session) : List Event → List Report
  | [] => []
  | .own batch :: events => (σ.step (.own batch)).otherReports events
  | .other batch :: events => σ.store.report batch :: (σ.step (.other batch)).otherReports events

/-- End the transaction by publishing what it wrote. -/
def commit (σ : Session) : Except Error Unit × Store := σ.store.commit σ.transaction

variable {σ : Session}

/-! ### The published data -/

/-- The published data are those that the other clients alone make, and their batches come to what
they come to alone. -/
theorem run_published {s : Store} (h : σ.store.SameData s) (events : List Event) :
    (σ.run events).store.SameData (s.executeEvery (Event.otherBatches events)) ∧
      σ.otherReports events = s.reports (Event.otherBatches events) := by
  induction events generalizing σ s with
  | nil => exact ⟨h, rfl⟩
  | cons event events ih =>
    cases event with
    | own batch =>
      -- a batch inside the transaction publishes nothing
      obtain ⟨hd, hf⟩ := σ.store.executeIn_database σ.transaction batch
      have hnext : (σ.step (.own batch)).store.SameData s := ⟨hf.trans h.failures, hd.trans h.database⟩
      exact ih hnext
    | other batch =>
      obtain ⟨hreports, hnext⟩ := h.executeEvery [batch]
      have hreport : σ.store.report batch = s.report batch := (List.cons.inj hreports).1
      replace hnext : (σ.step (.other batch)).store.SameData (s.execute batch).2 := hnext
      obtain ⟨hlast, hrest⟩ := ih hnext
      exact ⟨hlast, congrArg₂ _ hreport hrest⟩

/-! ### The working copy -/

/-- A transaction that is at its end stays there. -/
theorem aborted_of_run (h : σ.transaction.aborted = true) (events : List Event) :
    (σ.run events).transaction.aborted = true := by
  induction events generalizing σ with
  | nil => exact h
  | cons event events ih =>
    refine ih ?_
    cases event with
    | own batch =>
      rcases σ.store.executeIn_cases σ.transaction batch with ⟨d, hopen, -⟩ | ⟨fault, hrun⟩
      · rw [h] at hopen
        cases hopen
      · simp only [step, hrun]
    | other batch => exact h

/-- A batch inside the transaction, beside a store that agrees with the working copy on what the batch
writes and executes it alone: it is refused and ends the transaction, or it comes to the same, and the
two keep agreeing. -/
theorem step_own {q : Store} {p : Ident → Prop} {batch : List Statement}
    (hf : σ.store.failures = q.failures) (hagree : σ.transaction.working.AgreeOn q.database p)
    (hp : ∀ st ∈ batch, ∀ name ∈ st.writes, p name) :
    (σ.step (.own batch)).transaction.aborted = true ∨
      (σ.step (.own batch)).store.failures = (q.execute batch).2.failures ∧
        (σ.step (.own batch)).transaction.working.AgreeOn (q.execute batch).2.database p ∧
        (σ.step (.own batch)).transaction.written
          = σ.transaction.written ++ batch.flatMap Statement.writes ∧
        σ.report batch = q.report batch ∧ (σ.report batch).result = .ok () := by
  rcases σ.store.executeIn_cases σ.transaction batch with
    ⟨d, hstart, hcheck, happly, hrun⟩ | ⟨fault, hrun⟩
  · refine .inr ?_
    have hsame := Database.applyAll_agrees hagree hp
    rw [happly] at hsame
    obtain ⟨d', hq, hd⟩ : ∃ d', q.database.applyAll batch = .ok d' ∧ d.AgreeOn d' p := by
      cases hq : q.database.applyAll batch with
      | error fault =>
        rw [hq] at hsame
        cases hsame
      | ok d' =>
        rw [hq] at hsame
        cases hsame with
        | done hd => exact ⟨d', rfl, hd⟩
    have hcheck' : q.checkFailures batch = .ok () := by
      rw [← Store.checkFailures_congr hf, hcheck]
    have hexecute := q.execute_eq batch
    rw [bind_eq_ok.2 ⟨(), hcheck', hq⟩] at hexecute
    have hstep : σ.step (.own batch) = ⟨{ σ.store with applied := σ.store.applied + 1 },
        ⟨d, σ.transaction.written ++ batch.flatMap Statement.writes, false⟩⟩ := by
      simp only [step, hrun]
    rw [hstep, hexecute]
    refine ⟨hf, hd, rfl, ?_, by simp only [report, hrun]⟩
    simp only [report, Store.report, hrun, hexecute, hstart, Store.outcomes, hcheck, hcheck',
      Database.outcomes_agree hagree hp]
    rfl
  · exact .inl (by simp only [step, hrun])

/-- Beside a store that agrees with the working copy of a transaction on what it writes, and executes
its batches alone: as long as none is refused, all come to the same, and the two keep agreeing. -/
theorem run_working {q : Store} {p : Ident → Prop} {events : List Event}
    (hf : σ.store.failures = q.failures)
    (hagree : σ.transaction.working.AgreeOn q.database p)
    (hp : ∀ name, WrittenBy (Event.ownBatches events) name → p name)
    (hopen : (σ.run events).transaction.aborted = false) :
    (σ.run events).transaction.working.AgreeOn
        (q.executeEvery (Event.ownBatches events)).database p ∧
      (∀ name, name ∈ (σ.run events).transaction.written ↔
        name ∈ σ.transaction.written ∨ WrittenBy (Event.ownBatches events) name) ∧
      σ.ownReports events = q.reports (Event.ownBatches events) ∧
      ∀ report ∈ σ.ownReports events, report.result = .ok () := by
  induction events generalizing σ q with
  | nil => exact ⟨hagree, fun name => by simp [run, Event.ownBatches, WrittenBy], rfl, nofun⟩
  | cons event events ih =>
    cases event with
    | own batch =>
      have hwritten : ∀ st ∈ batch, ∀ name ∈ st.writes, p name := fun st hst name hname =>
        hp name (writtenBy_cons.2 (.inl ⟨st, hst, hname⟩))
      have hrest : ∀ name, WrittenBy (Event.ownBatches events) name → p name := fun name hname =>
        hp name (writtenBy_cons.2 (.inr hname))
      rcases step_own hf hagree hwritten with hend | ⟨hf', hagree', hnext, hreport, hresult⟩
      · -- a refused batch ends the transaction
        have hended : (σ.run (.own batch :: events)).transaction.aborted = true :=
          aborted_of_run hend events
        rw [hopen] at hended
        cases hended
      · obtain ⟨hlast, hnames, hreports, hok⟩ := ih hf' hagree' hrest hopen
        refine ⟨hlast, fun name => (hnames name).trans ?_, congrArg₂ _ hreport hreports,
          List.forall_mem_cons.2 ⟨hresult, hok⟩⟩
        rw [hnext, List.mem_append, List.mem_flatMap, or_assoc]
        exact or_congr_right writtenBy_cons.symm
    | other batch =>
      have hfailures : (σ.step (.other batch)).store.failures = q.failures :=
        (Store.failures_executeEvery σ.store [batch]).trans hf
      exact ih hfailures hagree hp hopen

end Session

/-! ## Publishing -/

/-- A commit publishes the namespaces that were written, and no others. -/
theorem Store.get?_publish (working : Database) (names : List Ident) (d : Database) (name : Ident) :
    (names.foldl (publish working) d).namespaces.get? name
      = if name ∈ names then working.namespaces.get? name else d.namespaces.get? name := by
  induction names generalizing d with
  | nil => simp
  | cons written names ih =>
    rw [List.foldl_cons, ih]
    by_cases hmem : name ∈ names
    · simp [hmem]
    · by_cases hname : name = written
      · subst hname
        unfold publish
        cases hn : working.namespaces.get? name <;> simp [hmem]
      · rw [if_neg hmem, if_neg (by simp [hname, hmem])]
        unfold publish
        cases working.namespaces.get? written with
        | none => exact Database.get?_dropNamespace_of_ne d hname
        | some n => exact Database.get?_withNamespace_of_ne d n hname

/-- A transaction commits exactly when none of its batches was refused. -/
theorem Store.commit_cases (s : Store) (t : Transaction) :
    (t.aborted = true ∧ s.commit t = (.error (.database .commitAfterAbort), s)) ∨
      ∃ s', t.aborted = false ∧ s.commit t = (.ok (), s') ∧ s'.failures = s.failures ∧
        ∀ name, s'.namespace? name
          = if name ∈ t.written then t.working.namespaces.get? name else s.namespace? name := by
  unfold commit
  cases ht : t.aborted with
  | true => exact .inl ⟨rfl, rfl⟩
  | false => exact .inr ⟨_, rfl, rfl, rfl, fun name => get?_publish t.working t.written s.database name⟩

/-! ## The guarantee -/

/-- Transactions are serializable against clients of other namespaces. If a transaction commits, then
its batches and those of the others, during the transaction and after it, come to what they come to
when the others go first and the batches of the transaction follow on the live data, and so do all
namespaces, but for the numbers of refreshes. If one of its batches fails, it cannot commit; and
without a commit the data are those of the other clients alone. In particular a statement reads and
writes only the namespaces that it lists. -/
theorem Store.serializable (s : Store) (events : List Event) (after : List (List Statement))
    (hdisjoint : ∀ name, WrittenBy (Event.ownBatches events) name →
      ¬ WrittenBy (Event.otherBatches events ++ after) name) :
    (∀ s', (s.session.run events).commit = (.ok (), s') →
      (∀ name, ((s'.executeEvery after).namespace? name).map Namespace.unstamped
        = (((s.executeEvery (Event.otherBatches events ++ after)).executeEvery
            (Event.ownBatches events)).namespace? name).map Namespace.unstamped) ∧
      s.session.otherReports events ++ s'.reports after
        = s.reports (Event.otherBatches events ++ after) ∧
      s.session.ownReports events
        = (s.executeEvery (Event.otherBatches events ++ after)).reports (Event.ownBatches events) ∧
      ∀ report ∈ s.session.ownReports events, report.result = .ok ()) ∧
    ((∃ report ∈ s.session.ownReports events, report.result ≠ .ok ()) →
      ∃ e s', (s.session.run events).commit = (.error e, s') ∧
        (s'.executeEvery after).database
          = (s.executeEvery (Event.otherBatches events ++ after)).database) ∧
    ((s.session.run events).store.executeEvery after).database
      = (s.executeEvery (Event.otherBatches events ++ after)).database ∧
    ∀ (statement : Statement) (d d' : Database), d.AgreeOn d' (· ∈ statement.writes) →
      Database.EndAlike (· ∈ statement.writes) (d.apply statement) (d'.apply statement) ∧
      ∀ e, d.apply statement = .ok e → ∀ name ∉ statement.writes,
        e.namespaces.get? name = d.namespaces.get? name := by
  have hsame : s.session.store.SameData s := ⟨rfl, rfl⟩
  obtain ⟨hpublished, hothers⟩ := Session.run_published hsame events
  have hdata := (hpublished.executeEvery after).2
  rw [← executeEvery_append] at hdata
  -- beside the serial run, which starts where the other clients end
  have hframe : ∀ name, WrittenBy (Event.ownBatches events) name →
      s.namespace? name = (s.executeEvery (Event.otherBatches events ++ after)).namespace? name :=
    fun name hname => (executeEvery_frame (hdisjoint name hname)).symm
  have hworking (hopen : (s.session.run events).transaction.aborted = false) :=
    Session.run_working (q := s.executeEvery (Event.otherBatches events ++ after))
      (failures_executeEvery s _).symm (Database.AgreeOn.of_eq hframe) (fun _ => id) hopen
  refine ⟨fun s' hcommit => ?_, fun hrefused => ?_, hdata.database, fun statement d d' hagree =>
    ⟨Database.apply_agrees hagree fun _ => id, fun e he name hname => Database.apply_frame he hname⟩⟩
  · rcases commit_cases (s.session.run events).store (s.session.run events).transaction with
      ⟨-, hrun⟩ | ⟨s₁, hopen, hrun, hf, hget⟩
    · rw [Session.commit, hrun] at hcommit
      cases hcommit
    obtain rfl : s₁ = s' := (Prod.mk.inj (hrun.symm.trans hcommit)).2
    obtain ⟨hagree, hwritten, hreports, hok⟩ := hworking hopen
    replace hwritten (name : Ident) : name ∈ (s.session.run events).transaction.written ↔
        WrittenBy (Event.ownBatches events) name := by
      simpa [session, begin] using hwritten name
    -- outside of what the transaction wrote, the published data are those of the other clients
    have hbeside : s₁.AgreeOn (s.executeEvery (Event.otherBatches events))
        fun name => ¬ WrittenBy (Event.ownBatches events) name := by
      refine ⟨hf.trans hpublished.failures, .of_eq fun name hname => ?_⟩
      refine (hget name).trans ?_
      rw [if_neg (mt (hwritten name).1 hname), namespace?, hpublished.database]
    obtain ⟨hafter, hlast⟩ := hbeside.executeEvery after fun name hname hown =>
      hdisjoint name hown (writtenBy_append.2 (.inr hname))
    rw [← executeEvery_append] at hlast
    refine ⟨fun name => ?_, ?_, hreports, hok⟩
    · by_cases hname : WrittenBy (Event.ownBatches events) name
      · have hkept : ¬ WrittenBy after name := fun hother =>
          hdisjoint name hname (writtenBy_append.2 (.inr hother))
        rw [executeEvery_frame hkept, hget, if_pos ((hwritten name).2 hname)]
        exact hagree name hname
      · rw [executeEvery_frame hname]
        exact hlast.database name hname
    · rw [hothers, hafter, ← reports_append]
  · rcases commit_cases (s.session.run events).store (s.session.run events).transaction with
      ⟨-, hrun⟩ | ⟨s₁, hopen, -⟩
    · exact ⟨_, _, hrun, hdata.database⟩
    · obtain ⟨report, hreport, hne⟩ := hrefused
      exact absurd ((hworking hopen).2.2.2 report hreport) hne

namespace Catalog

/-- The statements that set up the tags in a namespace, with their function and views. -/
def installation (ns : Ident) : List Statement :=
  let tags := Schema.compile [tagType]
  (match tags.ddl ns space with
    | .ok ddl => ddl
    | .error _ => []) ++ tags.functionStatements ns 1 ++ Replica.viewStatements ⟨tags, space, ns⟩

/-- A transaction sets up one copy of the tags while another client sets up a second one. -/
def twoClients : List Event :=
  [.own (installation ⟨"left"⟩), .other (installation ⟨"right"⟩),
    .own [.saveSyncToken ⟨"left"⟩ "token"]]

end Catalog

/-- Both copies are there after the commit, and the one of the transaction is the same as if it had
been set up last, though the numbers of its refreshes are not. -/
theorem Store.serializable_catalog :
    ∃ s', (Store.empty.session.run Catalog.twoClients).commit = (.ok (), s') ∧
      s'.hasNamespace ⟨"left"⟩ = true ∧ s'.hasNamespace ⟨"right"⟩ = true ∧
      s'.viewStamps ⟨"left"⟩ ≠ (Store.executeEvery (.executeEvery .empty
        (Event.otherBatches Catalog.twoClients)) (Event.ownBatches Catalog.twoClients)).viewStamps
          ⟨"left"⟩ ∧
      ∀ name, (s'.namespace? name).map Namespace.unstamped
        = ((Store.executeEvery (.executeEvery .empty (Event.otherBatches Catalog.twoClients))
            (Event.ownBatches Catalog.twoClients)).namespace? name).map Namespace.unstamped := by
  have hown : ∀ batch ∈ Event.ownBatches Catalog.twoClients, ∀ statement ∈ batch,
      statement.writes = [⟨"left"⟩] := by decide +kernel
  have hother : ∀ batch ∈ Event.otherBatches Catalog.twoClients, ∀ statement ∈ batch,
      statement.writes = [⟨"right"⟩] := by decide +kernel
  have hdisjoint : ∀ name, WrittenBy (Event.ownBatches Catalog.twoClients) name →
      ¬ WrittenBy (Event.otherBatches Catalog.twoClients ++ []) name := by
    rintro name ⟨batch, hbatch, st, hst, hname⟩ ⟨batch', hbatch', st', hst', hname'⟩
    rw [hown batch hbatch st hst, List.mem_singleton] at hname
    rw [List.append_nil] at hbatch'
    rw [hother batch' hbatch' st' hst', List.mem_singleton, hname] at hname'
    exact absurd hname' (by decide)
  have hcommitted : (Store.empty.session.run Catalog.twoClients).commit.1.isOk = true ∧
      (Store.empty.session.run Catalog.twoClients).commit.2.hasNamespace ⟨"left"⟩ = true ∧
      (Store.empty.session.run Catalog.twoClients).commit.2.hasNamespace ⟨"right"⟩ = true ∧
      (Store.empty.session.run Catalog.twoClients).commit.2.viewStamps ⟨"left"⟩
        ≠ (Store.executeEvery (.executeEvery .empty (Event.otherBatches Catalog.twoClients))
          (Event.ownBatches Catalog.twoClients)).viewStamps ⟨"left"⟩ := by decide +kernel
  obtain ⟨hok, hleft, hright, hstamps⟩ := hcommitted
  obtain ⟨_, hcommit⟩ := exists_of_fst_isOk hok
  obtain ⟨hserial, -⟩ := serializable .empty Catalog.twoClients [] hdisjoint
  obtain ⟨hsame, -⟩ := hserial _ hcommit
  rw [List.append_nil] at hsame
  exact ⟨_, hcommit, hleft, hright, hstamps, hsame⟩

end ContentReplica
