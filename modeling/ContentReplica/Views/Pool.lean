import ContentReplica.Views.Definitions

/-!
# A pool of workers

Refreshes are queued up front, and a number of workers drain the queue. `Pool.step` is one event of
such a run: a worker receives the next job, executes it, records the outcome, or is aborted, which
loses the outcomes that it recorded. A worker that finds the queue empty is done. A run is a sequence
of events; it is over when every worker has stopped (`Pool.isOver`).

`Pool.report` accounts for the submitted jobs: what the workers that were done had recorded, and
every other job as failed.
-/

namespace ContentReplica

/-- The outcome of a job: the text of its error, if it failed. -/
structure JobOutcome where
  job : RefreshJob
  error? : Option String
  deriving DecidableEq

/-- What a worker holds. -/
inductive Hand where
  | nothing
  /-- A job that it received. -/
  | job (job : RefreshJob)
  /-- The outcome of a job that it executed. -/
  | outcome (outcome : JobOutcome)
  deriving DecidableEq

/-- A worker of the pool. -/
inductive Worker where
  /-- At work, with the outcomes that it recorded. -/
  | working (hand : Hand) (recorded : List JobOutcome)
  /-- Stopped because the queue was empty. -/
  | done (recorded : List JobOutcome)
  | aborted
  deriving DecidableEq

namespace Worker

/-- Whether a worker has stopped. -/
def hasStopped : Worker → Bool
  | working _ _ => false
  | done _ | aborted => true

/-- The outcomes that a worker hands in. -/
def outcomes : Worker → List JobOutcome
  | done recorded => recorded
  | working _ _ | aborted => []

end Worker

/-- One event of a run, each at one worker. -/
inductive PoolEvent where
  | receive (worker : Nat)
  | execute (worker : Nat)
  | record (worker : Nat)
  | abort (worker : Nat)
  deriving DecidableEq

/-- A pool at work on something of type `σ`. -/
structure Pool (σ : Type) where
  queue : List RefreshJob
  workers : List Worker
  state : σ

/-- What a run reports. -/
structure RefreshReport where
  refreshed : List RefreshJob
  failed : List (RefreshJob × String)

namespace RefreshReport

/-- Whether no refresh failed. -/
def isSuccess (r : RefreshReport) : Bool := r.failed.isEmpty

/-- The number of jobs. -/
def size (r : RefreshReport) : Nat := r.refreshed.length + r.failed.length

/-- Whether there were no jobs. -/
def isEmpty (r : RefreshReport) : Bool := r.size == 0

/-- The error of a job whose outcome was lost. -/
def lostText : String := "refresh worker aborted"

/-- The report on submitted jobs of which some outcomes are known. A job without an outcome is reported
once, however often it was submitted. -/
def ofOutcomes (jobs : List RefreshJob) (outcomes : List JobOutcome) : RefreshReport :=
  let lost := (jobs.filter fun job => !outcomes.any (·.job = job)).eraseDups
  ⟨(outcomes.filter (·.error?.isNone)).map JobOutcome.job,
    outcomes.filterMap (fun o => o.error?.map (o.job, ·)) ++ lost.map (·, lostText)⟩

end RefreshReport

namespace Pool

variable {σ : Type}

/-- The number of workers that are started for some jobs when the given number is allowed. -/
def workerCount (allowed jobs : Nat) : Nat := min (max 1 allowed) jobs

/-- A pool with all jobs queued and every worker idle. -/
def start (allowed : Nat) (jobs : List RefreshJob) (state : σ) : Pool σ :=
  ⟨jobs, List.replicate (workerCount allowed jobs.length) (.working .nothing []), state⟩

/-- The pool with one worker replaced. -/
def withWorker (p : Pool σ) (index : Nat) (w : Worker) : Pool σ :=
  { p with workers := p.workers.set index w }

/-- The pool after an event, in which `execute` refreshes a view. An event that a worker is not
ready for changes nothing. -/
def step (execute : RefreshJob → σ → Option String × σ) (p : Pool σ) : PoolEvent → Pool σ
  | .receive i =>
    match p.workers[i]?, p.queue with
    | some (.working .nothing recorded), [] => p.withWorker i (.done recorded)
    | some (.working .nothing recorded), job :: rest =>
      { p with queue := rest }.withWorker i (.working (.job job) recorded)
    | _, _ => p
  | .execute i =>
    match p.workers[i]? with
    | some (.working (.job job) recorded) =>
      let (error?, state) := execute job p.state
      { p with state := state }.withWorker i (.working (.outcome ⟨job, error?⟩) recorded)
    | _ => p
  | .record i =>
    match p.workers[i]? with
    | some (.working (.outcome outcome) recorded) =>
      p.withWorker i (.working .nothing (recorded ++ [outcome]))
    | _ => p
  | .abort i =>
    match p.workers[i]? with
    | some (.working _ _) => p.withWorker i .aborted
    | _ => p

/-- The pool after a sequence of events. -/
def run (execute : RefreshJob → σ → Option String × σ) (p : Pool σ) (events : List PoolEvent) :
    Pool σ :=
  events.foldl (step execute) p

/-- Whether every worker has stopped. -/
def isOver (p : Pool σ) : Bool := p.workers.all Worker.hasStopped

/-- The report on submitted jobs, workers in the given order of their stopping. -/
def report (p : Pool σ) (jobs : List RefreshJob) : RefreshReport :=
  .ofOutcomes jobs (p.workers.flatMap Worker.outcomes)

/-- The events by which the first worker executes all jobs in turn and then every worker stops. -/
def inTurn (workers jobs : Nat) : List PoolEvent :=
  (List.replicate jobs [.receive 0, .execute 0, .record 0]).flatten
    ++ (List.range workers).map .receive

end Pool

end ContentReplica
