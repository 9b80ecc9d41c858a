import ContentReplica.Views.Pool

/-!
# What a run of the pool settles

The workers of a pool take turns in any order, and some may be aborted. If the execution of a job
settles it unless it fails, and unsettles no other, then each job that a worker knows to have gone
through is settled, after every event (`Pool.Keeps.step`) and so after every run (`Pool.Keeps.run`).
A run that reports no failure has settled every job (`Pool.Keeps.settled_of_success`).

Where one worker takes all jobs in turn, its outcomes and the state are those of executing the jobs one
after the other (`Pool.run_inTurn`).
-/

namespace ContentReplica

/-- The outcomes that a worker knows: those that it recorded, and the one in its hand. -/
def Worker.known : Worker → List JobOutcome
  | working (.outcome outcome) recorded => recorded ++ [outcome]
  | working .nothing recorded | working (.job _) recorded | done recorded => recorded
  | aborted => []

/-- A worker hands in outcomes that it knows. -/
theorem Worker.mem_known_of_outcomes {w : Worker} {o : JobOutcome} (h : o ∈ w.outcomes) :
    o ∈ w.known := by
  cases w with
  | done recorded => exact h
  | working hand recorded | aborted => cases h

/-- In a report without failures no outcome has an error. -/
theorem RefreshReport.error?_eq_none {jobs : List RefreshJob} {outcomes : List JobOutcome}
    (h : (ofOutcomes jobs outcomes).isSuccess = true) {o : JobOutcome} (ho : o ∈ outcomes) :
    o.error? = none := by
  obtain ⟨hfailed, -⟩ := List.append_eq_nil_iff.1 (List.isEmpty_iff.1 h)
  have hnone := List.filterMap_eq_nil_iff.1 hfailed o ho
  exact Option.map_eq_none_iff.1 hnone

/-- In a report without failures every job has an outcome without an error. -/
theorem RefreshReport.exists_outcome {jobs : List RefreshJob} {outcomes : List JobOutcome}
    (h : (ofOutcomes jobs outcomes).isSuccess = true) {job : RefreshJob} (hjob : job ∈ jobs) :
    ∃ o ∈ outcomes, o.job = job ∧ o.error? = none := by
  obtain ⟨-, hlost⟩ := List.append_eq_nil_iff.1 (List.isEmpty_iff.1 h)
  have hfound : outcomes.any (·.job = job) = true := by
    refine Bool.of_not_eq_false fun hnone => ?_
    have hmem : job ∈ (jobs.filter fun job => !outcomes.any (·.job = job)).eraseDups :=
      List.mem_eraseDups.2 (List.mem_filter.2 ⟨hjob, congrArg Bool.not hnone⟩)
    rw [List.map_eq_nil_iff.1 hlost] at hmem
    cases hmem
  obtain ⟨o, ho, he⟩ := List.any_eq_true.1 hfound
  exact ⟨o, ho, of_decide_eq_true he, error?_eq_none h ho⟩

namespace Pool

variable {σ : Type}

/-- The execution of a job keeps an invariant and settles the job unless it fails; what is settled
stays so. -/
structure Settling (execute : RefreshJob → σ → Option String × σ) (Inv : σ → Prop)
    (Settled : RefreshJob → σ → Prop) : Prop where
  inv : ∀ {job s}, Inv s → Inv (execute job s).2
  settles : ∀ {job s}, Inv s → (execute job s).1 = none → Settled job (execute job s).2
  keeps : ∀ {job s other}, Inv s → Settled other s → Settled other (execute job s).2

/-- The invariant holds of the state of a pool, and the jobs that a worker knows to have gone through
are settled. -/
structure Keeps (Inv : σ → Prop) (Settled : RefreshJob → σ → Prop) (p : Pool σ) : Prop where
  state : Inv p.state
  known : ∀ w ∈ p.workers, ∀ o ∈ w.known, o.error? = none → Settled o.job p.state

variable {execute : RefreshJob → σ → Option String × σ} {Inv : σ → Prop}
  {Settled : RefreshJob → σ → Prop} {p : Pool σ}

namespace Keeps

/-- At the start no outcome is known. -/
theorem start {s : σ} (h : Inv s) (allowed : Nat) (jobs : List RefreshJob) :
    Keeps Inv Settled (Pool.start allowed jobs s) := by
  refine ⟨h, fun w hw o ho => ?_⟩
  obtain ⟨-, rfl⟩ := List.mem_replicate.1 hw
  cases ho

/-- A worker may be replaced by one that knows settled jobs. -/
theorem withWorker (h : p.Keeps Inv Settled) (i : Nat) {w : Worker}
    (hw : ∀ o ∈ w.known, o.error? = none → Settled o.job p.state) :
    (p.withWorker i w).Keeps Inv Settled := by
  refine ⟨h.state, fun w' hw' => ?_⟩
  rcases List.mem_or_eq_of_mem_set hw' with hold | rfl
  · exact h.known w' hold
  · exact hw

/-- Every event keeps what is known settled. -/
theorem step (h : p.Keeps Inv Settled) (hsettling : Settling execute Inv Settled) (event : PoolEvent) :
    (p.step execute event).Keeps Inv Settled := by
  cases event with
  | receive i =>
    unfold Pool.step
    dsimp only
    split
    · next recorded hw _ =>
      have hknown := h.known _ (List.mem_of_getElem? hw)
      exact h.withWorker i hknown
    · next recorded job rest hw _ =>
      have hknown := h.known _ (List.mem_of_getElem? hw)
      have hrest : Keeps Inv Settled { p with queue := rest } := ⟨h.state, h.known⟩
      exact hrest.withWorker i hknown
    · exact h
  | execute i =>
    unfold Pool.step
    dsimp only
    split
    · next job recorded hw =>
      have hafter : Keeps Inv Settled { p with state := (execute job p.state).2 } :=
        ⟨hsettling.inv h.state, fun w hw o ho hnone =>
          hsettling.keeps h.state (h.known w hw o ho hnone)⟩
      refine hafter.withWorker i fun o ho hnone => ?_
      rcases List.mem_append.1 ho with ho | ho
      · exact hsettling.keeps h.state (h.known _ (List.mem_of_getElem? hw) o ho hnone)
      · obtain rfl := List.mem_singleton.1 ho
        exact hsettling.settles h.state hnone
    · exact h
  | record i =>
    unfold Pool.step
    dsimp only
    split
    · next outcome recorded hw =>
      have hknown := h.known _ (List.mem_of_getElem? hw)
      exact h.withWorker i hknown
    · exact h
  | abort i =>
    unfold Pool.step
    dsimp only
    split
    · exact h.withWorker i nofun
    · exact h

/-- So does every run. -/
theorem run (h : p.Keeps Inv Settled) (hsettling : Settling execute Inv Settled)
    (events : List PoolEvent) : (p.run execute events).Keeps Inv Settled := by
  induction events generalizing p with
  | nil => exact h
  | cons event events ih => exact ih (h.step hsettling event)

/-- Where no failure is reported every job is settled. -/
theorem settled_of_success (h : p.Keeps Inv Settled) {jobs : List RefreshJob}
    (hsuccess : (p.report jobs).isSuccess = true) {job : RefreshJob} (hjob : job ∈ jobs) :
    Settled job p.state := by
  obtain ⟨o, ho, rfl, hnone⟩ := RefreshReport.exists_outcome hsuccess hjob
  obtain ⟨w, hw, ho⟩ := List.mem_flatMap.1 ho
  exact h.known w hw o (Worker.mem_known_of_outcomes ho) hnone

end Keeps

/-! ## Jobs in turn -/

/-- The outcomes of jobs that are executed one after the other, and the state that they leave. -/
def executeAll (execute : RefreshJob → σ → Option String × σ) :
    List RefreshJob → σ → List JobOutcome × σ
  | [], s => ([], s)
  | job :: jobs, s =>
    let rest := executeAll execute jobs (execute job s).2
    (⟨job, (execute job s).1⟩ :: rest.1, rest.2)

/-- One event after the other. -/
theorem run_append (p : Pool σ) (events events' : List PoolEvent) :
    p.run execute (events ++ events') = (p.run execute events).run execute events' :=
  List.foldl_append

/-- The first worker executes the jobs of the queue, if it takes one after the other. -/
theorem run_rounds (workers : List Worker) : ∀ (jobs : List RefreshJob) (s : σ)
    (recorded : List JobOutcome),
    (⟨jobs, .working .nothing recorded :: workers, s⟩ : Pool σ).run execute
        (List.replicate jobs.length [.receive 0, .execute 0, .record 0]).flatten
      = ⟨[], .working .nothing (recorded ++ (executeAll execute jobs s).1) :: workers,
        (executeAll execute jobs s).2⟩
  | [], s, recorded => by
    rw [executeAll, List.append_nil]
    rfl
  | job :: jobs, s, recorded => by
    have hround : (⟨job :: jobs, .working .nothing recorded :: workers, s⟩ : Pool σ).run execute
        [.receive 0, .execute 0, .record 0]
        = ⟨jobs, .working .nothing (recorded ++ [⟨job, (execute job s).1⟩]) :: workers,
          (execute job s).2⟩ := rfl
    rw [List.length_cons, List.replicate_succ, List.flatten_cons, run_append, hround, run_rounds,
      List.append_assoc]
    rfl

/-- Workers that find the queue empty stop, each in its turn. -/
theorem run_stops (execute : RefreshJob → σ → Option String × σ) (s : σ) :
    ∀ stopped idle : List (List JobOutcome),
    (⟨[], stopped.map .done ++ idle.map (.working .nothing), s⟩ : Pool σ).run execute
        ((List.range' stopped.length idle.length).map .receive)
      = ⟨[], (stopped ++ idle).map .done, s⟩
  | stopped, [] => by
    rw [List.append_nil, List.map_nil, List.append_nil]
    rfl
  | stopped, recorded :: idle => by
    have hstop : (⟨[], stopped.map .done ++ (recorded :: idle).map (.working .nothing), s⟩ :
        Pool σ).step execute (.receive stopped.length)
        = ⟨[], (stopped ++ [recorded]).map .done ++ idle.map (.working .nothing), s⟩ := by
      have hnext : (stopped.map Worker.done
          ++ (recorded :: idle).map (.working .nothing))[stopped.length]?
          = some (.working .nothing recorded) := by simp
      unfold step
      dsimp only
      rw [hnext]
      simp [withWorker, List.set_append_right]
    have hrest := run_stops execute s (stopped ++ [recorded]) idle
    rw [List.length_append, List.length_singleton, List.append_assoc] at hrest
    rw [List.length_cons, List.range'_succ]
    exact (congrArg (fun p : Pool σ => p.run execute
      ((List.range' (stopped.length + 1) idle.length).map .receive)) hstop).trans hrest

/-- In a run in turn the workers hand in the outcomes of all jobs, executed one after the other. -/
theorem run_inTurn (execute : RefreshJob → σ → Option String × σ) (allowed : Nat)
    (jobs : List RefreshJob) (s : σ) :
    let p := (start allowed jobs s).run execute (inTurn (workerCount allowed jobs.length) jobs.length)
    p.workers.flatMap Worker.outcomes = (executeAll execute jobs s).1 ∧
      p.state = (executeAll execute jobs s).2 := by
  cases jobs with
  | nil =>
    unfold start inTurn workerCount
    rw [List.length_nil, Nat.min_zero]
    exact ⟨rfl, rfl⟩
  | cons job jobs =>
    obtain ⟨idle, hidle⟩ : ∃ idle, workerCount allowed (job :: jobs).length = idle + 1 :=
      Nat.exists_eq_succ_of_ne_zero (by simp [workerCount])
    have hstops := run_stops execute (executeAll execute (job :: jobs) s).2 []
      ((executeAll execute (job :: jobs) s).1 :: List.replicate idle [])
    rw [List.map_nil, List.nil_append, List.nil_append, List.length_nil, List.length_cons,
      List.length_replicate, List.map_cons, List.map_replicate] at hstops
    dsimp only
    unfold start inTurn
    rw [hidle, List.replicate_succ, run_append, run_rounds, List.nil_append, List.range_eq_range',
      hstops]
    simp [Worker.outcomes]

end Pool

end ContentReplica
