import ContentReplica.Proofs.Views.Answers
import Mathlib.Algebra.GroupWithZero.Nat
import Mathlib.Data.List.Nodup

/-!
# Every job is accounted for

The workers of a pool share one queue, keep what they recorded to themselves, and lose it when they are
aborted. What a pool can do is told once (`Pool.step_cases`): an event leaves it as it is, or lets one
worker take one turn (`Pool.Turn`). Each turn moves a job on, from the queue to a hand and from there to
the log of executions, and an abort is the only one that drops a job or an outcome, so the jobs in the
queue, in hands, executed and dropped are those that were submitted (`Pool.Accounts.run`).

A turn brings the pool closer to its end (`Pool.Turn.remaining_lt`), and as long as a worker has not
stopped there is a turn to take. The report puts each job into one of its lists, whoever was aborted, and
without aborts every job is executed once and reported as its execution went (`Pool.run_accounts`).
-/

namespace ContentReplica

/-! ## Lists -/

/-- A list without repetitions has none to erase. -/
theorem eraseDups_of_nodup {α : Type} [DecidableEq α] {xs : List α} (h : xs.Nodup) :
    xs.eraseDups = xs := by
  induction xs with
  | nil => rfl
  | cons x xs ih =>
    obtain ⟨hx, hxs⟩ := List.nodup_cons.1 h
    have hkept : xs.filter (fun y => !y == x) = xs :=
      List.filter_eq_self.2 fun y hy => by
        have hne : y ≠ x := fun he => hx (he ▸ hy)
        simp [hne]
    rw [List.eraseDups_cons, hkept, ih hxs]

/-- A list with one element replaced is that element with the others, in some order. -/
theorem exists_others {α : Type} {xs : List α} {i : Nat} {x : α} (h : xs[i]? = some x) :
    ∃ others, xs.Perm (x :: others) ∧ ∀ y, (xs.set i y).Perm (y :: others) := by
  obtain ⟨hi, rfl⟩ := List.getElem?_eq_some_iff.1 h
  exact ⟨xs.eraseIdx i, (List.getElem_cons_eraseIdx_perm hi).symm,
    List.set_perm_cons_eraseIdx hi⟩

/-! ## Workers -/

namespace Worker

/-- The job that a worker received and has not executed. -/
def pending : Worker → List RefreshJob
  | working (.job job) _ => [job]
  | working .nothing _ | working (.outcome _) _ | done _ | aborted => []

/-- How many turns a worker has to take before it finds out whether there is another job. -/
def remaining : Worker → Nat
  | working .nothing _ => 1
  | working (.outcome _) _ => 2
  | working (.job _) _ => 3
  | done _ | aborted => 0

end Worker

/-- Workers hand in what they know, or less. -/
theorem Worker.handed_in (workers : List Worker) :
    (workers.flatMap Worker.outcomes).Sublist (workers.flatMap Worker.known) := by
  induction workers with
  | nil => exact .slnil
  | cons w workers ih =>
    rw [List.flatMap_cons, List.flatMap_cons]
    refine List.Sublist.append ?_ ih
    cases w with
    | working hand recorded | aborted => exact List.nil_sublist _
    | done recorded => exact List.Sublist.refl _

namespace Pool

variable {σ : Type} {execute : RefreshJob → σ → Option String × σ} {p : Pool σ}

/-- How many turns a pool can take at most. -/
def remaining (p : Pool σ) : Nat := 3 * p.queue.length + (p.workers.map Worker.remaining).sum

/-- The execution that an event is, if it is one, with its outcome. -/
def executed (execute : RefreshJob → σ → Option String × σ) (p : Pool σ) : PoolEvent → List JobOutcome
  | .execute i =>
    match p.workers[i]? with
    | some (.working (.job job) _) => [⟨job, (execute job p.state).1⟩]
    | _ => []
  | .receive _ | .record _ | .abort _ => []

/-- The executions of a run, in their order. -/
def executions (execute : RefreshJob → σ → Option String × σ) : Pool σ → List PoolEvent →
    List JobOutcome
  | _, [] => []
  | p, event :: events => p.executed execute event ++ executions execute (p.step execute event) events

/-! ## Turns -/

/-- A turn of one worker of a pool, in which the worker `w` becomes `w'`: with the event, the queue and
the state that it leads to, and what was executed. -/
inductive Turn (execute : RefreshJob → σ → Option String × σ) (p : Pool σ) (i : Nat) :
    PoolEvent → Worker → Worker → List RefreshJob → σ → List JobOutcome → Prop
  /-- The queue is empty, so the worker is done. -/
  | stop {recorded} (hqueue : p.queue = []) :
      Turn execute p i (.receive i) (.working .nothing recorded) (.done recorded) [] p.state []
  | receive {job rest recorded} (hqueue : p.queue = job :: rest) :
      Turn execute p i (.receive i) (.working .nothing recorded) (.working (.job job) recorded) rest
        p.state []
  | execute {job recorded} :
      Turn execute p i (.execute i) (.working (.job job) recorded)
        (.working (.outcome ⟨job, (execute job p.state).1⟩) recorded) p.queue
        (execute job p.state).2 [⟨job, (execute job p.state).1⟩]
  | record {outcome recorded} :
      Turn execute p i (.record i) (.working (.outcome outcome) recorded)
        (.working .nothing (recorded ++ [outcome])) p.queue p.state []
  | abort {hand recorded} :
      Turn execute p i (.abort i) (.working hand recorded) .aborted p.queue p.state []

/-- An event leaves a pool as it is, or lets one worker take a turn. -/
theorem step_cases (execute : RefreshJob → σ → Option String × σ) (p : Pool σ) (event : PoolEvent) :
    p.step execute event = p ∧ p.executed execute event = [] ∨
      ∃ i w w' queue state log, p.workers[i]? = some w ∧
        p.Turn execute i event w w' queue state log ∧
        p.step execute event = ⟨queue, p.workers.set i w', state⟩ ∧
        p.executed execute event = log := by
  cases event with
  | receive i =>
    unfold step executed
    dsimp only
    split
    · next recorded hw hqueue =>
      exact .inr ⟨i, _, _, _, _, _, hw, .stop hqueue, by simp [withWorker, hqueue], rfl⟩
    · next recorded job rest hw hqueue => exact .inr ⟨i, _, _, _, _, _, hw, .receive hqueue, rfl, rfl⟩
    · exact .inl ⟨rfl, rfl⟩
  | execute i =>
    unfold step executed
    dsimp only
    -- the step and its execution both read the worker, so it is taken apart once for the two
    cases hw : p.workers[i]? with
    | none => exact .inl ⟨rfl, rfl⟩
    | some w =>
      cases w with
      | working hand recorded =>
        cases hand with
        | job job => exact .inr ⟨i, _, _, _, _, _, hw, .execute, rfl, rfl⟩
        | nothing | outcome => exact .inl ⟨rfl, rfl⟩
      | done | aborted => exact .inl ⟨rfl, rfl⟩
  | record i =>
    unfold step executed
    dsimp only
    split
    · next outcome recorded hw => exact .inr ⟨i, _, _, _, _, _, hw, .record, rfl, rfl⟩
    · exact .inl ⟨rfl, rfl⟩
  | abort i =>
    unfold step executed
    dsimp only
    split
    · next hand recorded hw => exact .inr ⟨i, _, _, _, _, _, hw, .abort, rfl, rfl⟩
    · exact .inl ⟨rfl, rfl⟩

section
variable {i : Nat} {event : PoolEvent} {w w' : Worker} {queue : List RefreshJob} {state : σ}
  {log : List JobOutcome}

/-- Only a worker that has not stopped takes a turn. -/
theorem Turn.hasStopped (h : p.Turn execute i event w w' queue state log) : w.hasStopped = false := by
  cases h <;> rfl

/-- Every turn brings the pool closer to its end. -/
theorem Turn.remaining_lt (h : p.Turn execute i event w w' queue state log)
    (hw : p.workers[i]? = some w) :
    remaining ⟨queue, p.workers.set i w', state⟩ < p.remaining := by
  obtain ⟨others, hbefore, hafter⟩ := exists_others hw
  have hsum := (hbefore.map Worker.remaining).sum_nat
  have hsum' := ((hafter w').map Worker.remaining).sum_nat
  rw [List.map_cons, List.sum_cons] at hsum hsum'
  unfold remaining
  rw [hsum, hsum']
  cases h with
  | stop hqueue => simp [Worker.remaining, hqueue]
  | receive hqueue =>
    simp only [Worker.remaining, hqueue, List.length_cons]
    omega
  | execute => simp [Worker.remaining]
  | record => simp [Worker.remaining]
  | @abort hand recorded => cases hand <;> simp [Worker.remaining]

end

/-- An event leaves a pool as it is or brings it closer to its end. -/
theorem step_remaining (event : PoolEvent) :
    p.step execute event = p ∨ (p.step execute event).remaining < p.remaining := by
  rcases step_cases execute p event with ⟨hsame, -⟩ | ⟨i, w, w', queue, state, log, hw, hturn, hstep, -⟩
  · exact .inl hsame
  · rw [hstep]
    exact .inr (hturn.remaining_lt hw)

/-- When all workers have stopped, nothing happens any more. -/
theorem step_of_isOver (hover : p.isOver = true) (event : PoolEvent) : p.step execute event = p := by
  rcases step_cases execute p event with ⟨hsame, -⟩ | ⟨i, w, w', queue, state, log, hw, hturn, hstep, -⟩
  · exact hsame
  · have hstopped := List.all_eq_true.1 hover w (List.mem_of_getElem? hw)
    rw [hturn.hasStopped] at hstopped
    cases hstopped

/-- As long as a worker has not stopped, there is a turn to take that is no abort. -/
theorem exists_turn (hover : p.isOver = false) :
    ∃ event, (∀ i, event ≠ .abort i) ∧ (p.step execute event).remaining < p.remaining := by
  obtain ⟨w, hw, hworking⟩ := List.all_eq_false.1 hover
  obtain ⟨i, hi⟩ := List.mem_iff_getElem?.1 hw
  -- the event that the worker is ready for
  obtain ⟨event, hevent, w', queue, state, log, hturn, hstep⟩ :
      ∃ event, (∀ i, event ≠ PoolEvent.abort i) ∧ ∃ w' queue state log,
        p.Turn execute i event w w' queue state log ∧
        p.step execute event = ⟨queue, p.workers.set i w', state⟩ := by
    cases w with
    | done recorded => exact absurd rfl hworking
    | aborted => exact absurd rfl hworking
    | working hand recorded =>
      cases hand with
      | nothing =>
        refine ⟨.receive i, (fun _ h => by cases h), ?_⟩
        cases hqueue : p.queue with
        | nil => exact ⟨_, _, _, _, .stop hqueue, by simp [step, hi, hqueue, withWorker]⟩
        | cons job rest => exact ⟨_, _, _, _, .receive hqueue, by simp [step, hi, hqueue, withWorker]⟩
      | job job =>
        exact ⟨.execute i, (fun _ h => by cases h), _, _, _, _, .execute, by simp [step, hi, withWorker]⟩
      | outcome outcome =>
        exact ⟨.record i, (fun _ h => by cases h), _, _, _, _, .record, by simp [step, hi, withWorker]⟩
  refine ⟨event, hevent, ?_⟩
  rw [hstep]
  exact hturn.remaining_lt hi

/-! ## Accounts -/

/-- The accounts of a pool: the jobs in the queue, in hands, executed and dropped are those that were
submitted; what the workers know, and what was lost, are the outcomes of the executions. -/
structure Accounts (jobs : List RefreshJob) (p : Pool σ) (log lost : List JobOutcome)
    (dropped : List RefreshJob) : Prop where
  jobs : (p.queue ++ p.workers.flatMap Worker.pending ++ log.map JobOutcome.job ++ dropped).Perm jobs
  log : (p.workers.flatMap Worker.known ++ lost).Perm log

/-- What an abort drops and loses: what the worker held and knew. -/
def spoils : PoolEvent → Worker → List JobOutcome × List RefreshJob
  | .abort _, w => (w.known, w.pending)
  | .receive _, _ | .execute _, _ | .record _, _ => ([], [])

section
variable {jobs dropped queue : List RefreshJob} {log lost outcomes : List JobOutcome} {i : Nat}
  {event : PoolEvent} {w w' : Worker} {state : σ}

/-- A turn moves jobs and outcomes on, and an abort drops some. -/
theorem Turn.moves (h : p.Turn execute i event w w' queue state outcomes) :
    (queue ++ w'.pending ++ outcomes.map JobOutcome.job ++ (spoils event w).2).Perm
        (p.queue ++ w.pending) ∧
      (w'.known ++ (spoils event w).1).Perm (w.known ++ outcomes) := by
  cases h with
  | stop hqueue => simp [Worker.pending, Worker.known, spoils, hqueue]
  | @receive job rest recorded hqueue =>
    rw [hqueue]
    refine ⟨?_, by simp [Worker.known, spoils]⟩
    simp [Worker.pending, spoils]
  | execute => simp [Worker.pending, Worker.known, spoils]
  | record => simp [Worker.pending, Worker.known, spoils]
  | abort => simp [Worker.pending, Worker.known, spoils]

/-- The accounts stay right when a worker takes a turn. -/
theorem Accounts.turn (h : p.Accounts jobs log lost dropped) (hw : p.workers[i]? = some w)
    (hturn : p.Turn execute i event w w' queue state outcomes) :
    Accounts jobs ⟨queue, p.workers.set i w', state⟩ (log ++ outcomes)
      (lost ++ (spoils event w).1) (dropped ++ (spoils event w).2) := by
  obtain ⟨hjobs, hlog⟩ := h
  obtain ⟨hmoved, hknown⟩ := hturn.moves
  obtain ⟨others, hbefore, hafter⟩ := exists_others hw
  have hpending := hbefore.flatMap_right Worker.pending
  have hpending' := (hafter w').flatMap_right Worker.pending
  have hheld := hbefore.flatMap_right Worker.known
  have hheld' := (hafter w').flatMap_right Worker.known
  constructor
  -- each job is as often among the parts as before
  · rw [List.perm_iff_count] at *
    intro job
    have h₁ := hjobs job
    have h₂ := hmoved job
    have h₃ := hpending job
    have h₄ := hpending' job
    simp only [List.count_append, List.flatMap_cons, List.map_append] at *
    omega
  · rw [List.perm_iff_count] at *
    intro outcome
    have h₁ := hlog outcome
    have h₂ := hknown outcome
    have h₃ := hheld outcome
    have h₄ := hheld' outcome
    simp only [List.count_append, List.flatMap_cons] at *
    omega

/-- Only an abort drops jobs and loses outcomes. -/
theorem spoils_eq_nil (h : ∀ i, event ≠ .abort i) (w : Worker) : spoils event w = ([], []) := by
  cases event with
  | abort i => exact absurd rfl (h i)
  | receive i | execute i | record i => rfl

/-- The accounts stay right after every event, and only an abort drops jobs and loses outcomes. -/
theorem Accounts.step (h : p.Accounts jobs log lost dropped)
    (execute : RefreshJob → σ → Option String × σ) (event : PoolEvent) :
    ∃ lost' dropped', (p.step execute event).Accounts jobs (log ++ p.executed execute event) lost'
        dropped' ∧
      ((∀ i, event ≠ .abort i) → lost' = lost ∧ dropped' = dropped) := by
  rcases step_cases execute p event with
    ⟨hsame, hnone⟩ | ⟨i, w, w', queue, state, outcomes, hw, hturn, hstep, hlog⟩
  · refine ⟨lost, dropped, ?_, fun _ => ⟨rfl, rfl⟩⟩
    rw [hsame, hnone, List.append_nil]
    exact h
  · rw [hstep, hlog]
    refine ⟨_, _, h.turn hw hturn, fun hno => ?_⟩
    rw [spoils_eq_nil hno w, List.append_nil, List.append_nil]
    exact ⟨rfl, rfl⟩

/-- At the start all jobs are in the queue. -/
theorem Accounts.start (allowed : Nat) (jobs : List RefreshJob) (s : σ) :
    (Pool.start allowed jobs s).Accounts jobs [] [] [] := by
  have hidle (f : Worker → List JobOutcome) (g : Worker → List RefreshJob)
      (hf : f (.working .nothing []) = []) (hg : g (.working .nothing []) = []) :
      (Pool.start allowed jobs s).workers.flatMap f = [] ∧
        (Pool.start allowed jobs s).workers.flatMap g = [] := by
    constructor <;>
    · refine List.flatMap_eq_nil_iff.2 fun w hw => ?_
      rw [List.eq_of_mem_replicate hw]
      assumption
  obtain ⟨hknown, hpending⟩ := hidle Worker.known Worker.pending rfl rfl
  constructor
  · rw [hpending]
    simp [Pool.start]
  · rw [hknown]
    simp

/-- So they are after every run, with the log of its executions. -/
theorem Accounts.run (h : p.Accounts jobs log lost dropped)
    (execute : RefreshJob → σ → Option String × σ) (events : List PoolEvent) :
    ∃ lost' dropped', (p.run execute events).Accounts jobs (log ++ p.executions execute events) lost'
        dropped' ∧
      ((∀ i, .abort i ∉ events) → lost' = lost ∧ dropped' = dropped) := by
  induction events generalizing p log lost dropped with
  | nil => exact ⟨lost, dropped, by rwa [executions, List.append_nil], fun _ => ⟨rfl, rfl⟩⟩
  | cons event events ih =>
    obtain ⟨lost₁, dropped₁, hstep, hkept⟩ := h.step execute event
    obtain ⟨lost₂, dropped₂, hrun, hkept'⟩ := ih hstep
    rw [List.append_assoc] at hrun
    refine ⟨lost₂, dropped₂, hrun, fun hno => ?_⟩
    obtain ⟨rfl, rfl⟩ := hkept fun i he => hno i (he ▸ List.mem_cons_self ..)
    exact hkept' fun i hi => hno i (List.mem_cons_of_mem _ hi)

end

section
variable {jobs dropped : List RefreshJob} {log lost : List JobOutcome}

/-- No job is executed twice, and none that was not submitted. -/
theorem Accounts.executed (h : p.Accounts jobs log lost dropped) (hjobs : jobs.Nodup) :
    (log.map JobOutcome.job).Nodup ∧ ∀ o ∈ log, o.job ∈ jobs := by
  have hpart : (log.map JobOutcome.job).Sublist
      (p.queue ++ p.workers.flatMap Worker.pending ++ log.map JobOutcome.job ++ dropped) :=
    (List.sublist_append_right _ _).trans (List.sublist_append_left _ _)
  refine ⟨(h.jobs.nodup_iff.2 hjobs).sublist hpart, fun o ho => ?_⟩
  exact h.jobs.mem_iff.1 (hpart.mem (List.mem_map_of_mem ho))

/-- What workers hand in that are joined in some order is a part of what was executed. -/
theorem Accounts.handed_in (h : p.Accounts jobs log lost dropped) {joined : List Worker}
    (hjoined : joined.Perm p.workers) : (joined.flatMap Worker.outcomes).Subperm log := by
  have hpart : (p.workers.flatMap Worker.outcomes).Sublist (p.workers.flatMap Worker.known ++ lost) :=
    (Worker.handed_in p.workers).trans (List.sublist_append_left _ _)
  exact (hjoined.flatMap_right Worker.outcomes).subperm.trans (hpart.subperm.trans h.log.subperm)

end

/-! ## Runs without aborts -/

/-- A worker that is done found the queue empty, and it stays so. -/
def Drained (p : Pool σ) : Prop := ∀ recorded, .done recorded ∈ p.workers → p.queue = []

/-- The workers of a pool are at work or done. -/
def Unharmed (p : Pool σ) : Prop := .aborted ∉ p.workers

/-- After every event a worker that is done has found the queue empty, and only an abort harms a
worker. -/
theorem step_drained (h : p.Drained) (execute : RefreshJob → σ → Option String × σ)
    (event : PoolEvent) :
    (p.step execute event).Drained ∧
      (p.Unharmed → (∀ i, event ≠ .abort i) → (p.step execute event).Unharmed) := by
  rcases step_cases execute p event with ⟨hsame, -⟩ | ⟨i, w, w', queue, state, log, hw, hturn, hstep, -⟩
  · rw [hsame]
    exact ⟨h, fun hsafe _ => hsafe⟩
  · rw [hstep]
    refine ⟨fun recorded hdone => ?_, fun hsafe hno haborted => ?_⟩
    · rcases List.mem_or_eq_of_mem_set hdone with hold | hnew
      · have hempty := h recorded hold
        cases hturn with
        | stop => rfl
        | receive hqueue =>
          rw [hqueue] at hempty
          cases hempty
        | execute | record | abort => exact hempty
      · cases hturn with
        | stop => rfl
        | receive | execute | record | abort => cases hnew
    · rcases List.mem_or_eq_of_mem_set haborted with hold | hnew
      · exact hsafe hold
      · cases hturn with
        | abort => exact hno i rfl
        | stop | receive | execute | record => cases hnew

/-- So it is after every run. -/
theorem run_drained (h : p.Drained) (execute : RefreshJob → σ → Option String × σ)
    (events : List PoolEvent) :
    (p.run execute events).Drained ∧
      (p.Unharmed → (∀ i, .abort i ∉ events) → (p.run execute events).Unharmed) := by
  induction events generalizing p with
  | nil => exact ⟨h, fun hsafe _ => hsafe⟩
  | cons event events ih =>
    obtain ⟨hstep, hsafe⟩ := step_drained h execute event
    obtain ⟨hrun, hsafe'⟩ := ih hstep
    refine ⟨hrun, fun hstart hno => hsafe' (hsafe hstart ?_) ?_⟩
    · exact fun i he => hno i (he ▸ List.mem_cons_self ..)
    · exact fun i hi => hno i (List.mem_cons_of_mem _ hi)

/-- At the start no worker is done or aborted. -/
theorem start_drained (allowed : Nat) (jobs : List RefreshJob) (s : σ) :
    (Pool.start allowed jobs s).Drained ∧ (Pool.start allowed jobs s).Unharmed := by
  constructor
  · intro recorded hdone
    cases List.eq_of_mem_replicate hdone
  · intro haborted
    cases List.eq_of_mem_replicate haborted

/-- No event starts or removes a worker. -/
theorem length_run (events : List PoolEvent) :
    (p.run execute events).workers.length = p.workers.length := by
  induction events generalizing p with
  | nil => rfl
  | cons event events ih =>
    refine Eq.trans (ih (p := p.step execute event)) ?_
    rcases step_cases execute p event with ⟨hsame, -⟩ | ⟨i, w, w', queue, state, log, -, -, hstep, -⟩
    · rw [hsame]
    · rw [hstep]
      exact List.length_set ..

/-- A pool without workers was started for no job. -/
theorem jobs_of_run_workers {allowed : Nat} {jobs : List RefreshJob} {s : σ} {events : List PoolEvent}
    (h : ((Pool.start allowed jobs s).run execute events).workers = []) : jobs = [] := by
  have hlength : ((Pool.start allowed jobs s).run execute events).workers.length
      = workerCount allowed jobs.length :=
    (length_run events).trans List.length_replicate
  rw [h, List.length_nil, workerCount] at hlength
  exact List.length_eq_zero_iff.1 (by omega)

/-- A run without aborts that is over has executed every job that was submitted, and what was executed is
what the workers hand in. -/
theorem complete_of_isOver {jobs : List RefreshJob} {log : List JobOutcome}
    (haccounts : p.Accounts jobs log [] []) (hdrained : p.Drained) (hsafe : p.Unharmed)
    (hover : p.isOver = true) (hworkers : p.workers = [] → jobs = []) :
    (log.map JobOutcome.job).Perm jobs ∧ (p.workers.flatMap Worker.outcomes).Perm log := by
  have hdone : ∀ w ∈ p.workers, ∃ recorded, w = .done recorded := by
    intro w hw
    have hstopped := List.all_eq_true.1 hover w hw
    cases w with
    | working hand recorded => cases hstopped
    | done recorded => exact ⟨recorded, rfl⟩
    | aborted => exact absurd hw hsafe
  have hpending : p.workers.flatMap Worker.pending = [] :=
    List.flatMap_eq_nil_iff.2 fun w hw => by
      obtain ⟨recorded, rfl⟩ := hdone w hw
      rfl
  have houtcomes : p.workers.flatMap Worker.outcomes = p.workers.flatMap Worker.known :=
    List.flatMap_congr fun w hw => by
      obtain ⟨recorded, rfl⟩ := hdone w hw
      rfl
  obtain ⟨hjobs, hlog⟩ := haccounts
  rw [List.append_nil] at hlog
  rw [hpending, List.append_nil, List.append_nil] at hjobs
  refine ⟨?_, houtcomes ▸ hlog⟩
  cases hcase : p.workers with
  | nil =>
    rw [hworkers hcase] at hjobs ⊢
    exact (List.append_eq_nil_iff.1 hjobs.eq_nil).2 ▸ .nil
  | cons w workers =>
    obtain ⟨recorded, rfl⟩ := hdone w (hcase ▸ List.mem_cons_self ..)
    rwa [hdrained recorded (hcase ▸ List.mem_cons_self ..), List.nil_append] at hjobs

end Pool

/-! ## The report -/

/-- The jobs that went through, by their outcomes. -/
def JobOutcome.successes (outcomes : List JobOutcome) : List RefreshJob :=
  (outcomes.filter (·.error?.isNone)).map JobOutcome.job

/-- The jobs that failed and the texts of their errors, by their outcomes. -/
def JobOutcome.failures (outcomes : List JobOutcome) : List (RefreshJob × String) :=
  outcomes.filterMap fun o => o.error?.map (o.job, ·)

section
variable {jobs : List RefreshJob} {outcomes outcomes' : List JobOutcome}

/-- Each outcome is a success or a failure. -/
theorem JobOutcome.parted (outcomes : List JobOutcome) :
    (successes outcomes ++ (failures outcomes).map Prod.fst).Perm (outcomes.map JobOutcome.job) := by
  induction outcomes with
  | nil => exact .nil
  | cons o outcomes ih =>
    cases herror : o.error? with
    | none =>
      have hsuccesses : successes (o :: outcomes) = o.job :: successes outcomes := by
        simp [successes, herror]
      have hfailures : failures (o :: outcomes) = failures outcomes := by simp [failures, herror]
      rw [hsuccesses, hfailures]
      exact ih.cons o.job
    | some text =>
      have hsuccesses : successes (o :: outcomes) = successes outcomes := by
        simp [successes, herror]
      have hfailures : failures (o :: outcomes) = (o.job, text) :: failures outcomes := by
        simp [failures, herror]
      rw [hsuccesses, hfailures]
      exact List.perm_middle.trans (ih.cons o.job)

/-- A job whose outcome is a success has an outcome without an error. -/
theorem JobOutcome.mem_successes {job : RefreshJob} :
    job ∈ successes outcomes ↔ ⟨job, none⟩ ∈ outcomes := by
  constructor
  · intro h
    obtain ⟨⟨job, error?⟩, ho, rfl⟩ := List.mem_map.1 h
    obtain ⟨ho, hnone⟩ := List.mem_filter.1 ho
    obtain rfl : error? = none := Option.isNone_iff_eq_none.1 hnone
    exact ho
  · intro h
    exact List.mem_map.2 ⟨_, List.mem_filter.2 ⟨h, rfl⟩, rfl⟩

/-- The report on different jobs puts each into one of its lists, once. -/
theorem RefreshReport.parted (hjobs : jobs.Nodup)
    (houtcomes : (outcomes.map JobOutcome.job).Nodup) (hmem : ∀ o ∈ outcomes, o.job ∈ jobs) :
    ((ofOutcomes jobs outcomes).refreshed ++ (ofOutcomes jobs outcomes).failed.map Prod.fst).Perm
      jobs := by
  have hlost : (jobs.filter fun job => !outcomes.any (·.job = job)).Nodup := hjobs.filter _
  have hunknown : ∀ job, job ∈ (jobs.filter fun job => !outcomes.any (·.job = job)) ↔
      job ∈ jobs ∧ job ∉ outcomes.map JobOutcome.job := by
    intro job
    simp [List.mem_filter]
  have hreport : ((ofOutcomes jobs outcomes).refreshed
      ++ (ofOutcomes jobs outcomes).failed.map Prod.fst)
      = (JobOutcome.successes outcomes ++ (JobOutcome.failures outcomes).map Prod.fst)
        ++ jobs.filter fun job => !outcomes.any (·.job = job) := by
    simp only [ofOutcomes, eraseDups_of_nodup hlost, List.map_append, List.map_map,
      List.append_assoc]
    congr 2
    exact List.map_id _
  rw [hreport]
  refine ((JobOutcome.parted outcomes).append_right _).trans ?_
  refine (List.perm_ext_iff_of_nodup ?_ hjobs).2 fun job => ?_
  · refine List.nodup_append.2 ⟨houtcomes, hlost, fun job hknown job' hjob' he => ?_⟩
    exact ((hunknown job').1 hjob').2 (he ▸ hknown)
  · rw [List.mem_append, hunknown job]
    constructor
    · rintro (hknown | ⟨hjob, -⟩)
      · obtain ⟨o, ho, rfl⟩ := List.mem_map.1 hknown
        exact hmem o ho
      · exact hjob
    · intro hjob
      by_cases hknown : job ∈ outcomes.map JobOutcome.job
      · exact .inl hknown
      · exact .inr ⟨hjob, hknown⟩

/-- Where every job has an outcome, the report is that of the outcomes. -/
theorem RefreshReport.eq_of_complete (h : (outcomes.map JobOutcome.job).Perm jobs) :
    ofOutcomes jobs outcomes = ⟨JobOutcome.successes outcomes, JobOutcome.failures outcomes⟩ := by
  have hlost : (jobs.filter fun job => !outcomes.any (·.job = job)) = [] := by
    refine List.filter_eq_nil_iff.2 fun job hjob => ?_
    obtain ⟨o, ho, rfl⟩ := List.mem_map.1 (h.mem_iff.2 hjob)
    simpa using ⟨o, ho, rfl⟩
  simp only [ofOutcomes, hlost, List.eraseDups_nil, List.map_nil, List.append_nil]
  rfl

end

namespace Pool

variable {σ : Type}

/-- What a run of a pool comes to, for any number of workers, any order of their turns, any outcomes and
any aborts. It ends when all workers have stopped: then no event changes anything, before that some worker
has a turn to take, and there are only so many turns. No job is executed twice. The report, the workers
joined in any order, has every job in one of its lists once, and its successes were executed with success.
Without aborts every job was executed in the end, and is reported as its execution went. -/
theorem run_accounts (execute : RefreshJob → σ → Option String × σ) (allowed : Nat)
    {jobs : List RefreshJob} (hjobs : jobs.Nodup) (s : σ) (events : List PoolEvent) :
    let p := (Pool.start allowed jobs s).run execute events
    let log := (Pool.start allowed jobs s).executions execute events
    (p.isOver = true → ∀ event, p.step execute event = p) ∧
      (p.isOver = false →
        ∃ event, (∀ i, event ≠ .abort i) ∧ (p.step execute event).remaining < p.remaining) ∧
      (∀ event, p.step execute event = p ∨ (p.step execute event).remaining < p.remaining) ∧
      (log.map JobOutcome.job).Nodup ∧ (∀ o ∈ log, o.job ∈ jobs) ∧
      ∀ joined : List Worker, joined.Perm p.workers →
        let report := RefreshReport.ofOutcomes jobs (joined.flatMap Worker.outcomes)
        (report.refreshed ++ report.failed.map Prod.fst).Perm jobs ∧
          (∀ job ∈ report.refreshed, ⟨job, none⟩ ∈ log) ∧
          (p.isOver = true → (∀ i, .abort i ∉ events) →
            (log.map JobOutcome.job).Perm jobs ∧
              report.refreshed.Perm (JobOutcome.successes log) ∧
              report.failed.Perm (JobOutcome.failures log)) := by
  intro p log
  obtain ⟨lost, dropped, haccounts, hkept⟩ :=
    (Accounts.start allowed jobs s).run execute events
  obtain ⟨hlogNodup, hlogMem⟩ := haccounts.executed hjobs
  refine ⟨step_of_isOver, exists_turn, step_remaining, hlogNodup, hlogMem, fun joined hjoined => ?_⟩
  intro report
  have hpart : (joined.flatMap Worker.outcomes).Subperm log := haccounts.handed_in hjoined
  have hnodup : ((joined.flatMap Worker.outcomes).map JobOutcome.job).Nodup := by
    obtain ⟨part, hsame, hsub⟩ := hpart
    exact (hsame.map _).nodup_iff.1 (hlogNodup.sublist (hsub.map _))
  refine ⟨RefreshReport.parted hjobs hnodup fun o ho => hlogMem o (hpart.subset ho), fun job hjob => ?_,
    fun hover hno => ?_⟩
  · exact hpart.subset (JobOutcome.mem_successes.1 hjob)
  · obtain ⟨rfl, rfl⟩ := hkept hno
    obtain ⟨hstart, hunharmed⟩ := start_drained allowed jobs s
    obtain ⟨hdrained, hsafe⟩ := run_drained hstart execute events
    obtain ⟨hall, hin⟩ :=
      complete_of_isOver haccounts hdrained (hsafe hunharmed hno) hover jobs_of_run_workers
    have houtcomes := (hjoined.flatMap_right Worker.outcomes).trans hin
    have hreport : report = ⟨_, _⟩ :=
      RefreshReport.eq_of_complete ((houtcomes.map JobOutcome.job).trans hall)
    rw [hreport]
    exact ⟨hall, (houtcomes.filter _).map _, houtcomes.filterMap _⟩

end Pool

namespace Catalog

/-- The refreshes of the views of the tags, one for each locale. -/
def tagViews : List RefreshJob := replica.refreshJobs ["tag"]

/-- Two workers take turns, and each finds the queue empty in the end. -/
def smoothRun : List PoolEvent :=
  [.receive 0, .receive 1, .execute 1, .execute 0, .record 1, .receive 1, .record 0, .receive 0,
    .execute 1, .record 1, .receive 1]

/-- Two workers take turns, and the first is aborted after it has refreshed a view. -/
def harmedRun : List PoolEvent :=
  [.receive 0, .receive 1, .execute 1, .execute 0, .record 1, .record 0, .abort 0, .receive 1,
    .execute 1, .record 1, .receive 1]

/-- Two workers that have refreshed the views of the tags in the given turns. -/
def refreshedTags (events : List PoolEvent) : Pool Store :=
  (Pool.start 2 tagViews cached).run (Replica.refreshView true) events

end Catalog

/-- The three views of the tags are accounted for when a worker is aborted, and one of them was
refreshed in vain; when none is, each is refreshed once and reported so. -/
theorem Pool.run_accounts_catalog :
    (Catalog.refreshedTags Catalog.harmedRun).isOver = true ∧
      (((Catalog.refreshedTags Catalog.harmedRun).report Catalog.tagViews).refreshed
        ++ ((Catalog.refreshedTags Catalog.harmedRun).report Catalog.tagViews).failed.map Prod.fst).Perm
          Catalog.tagViews ∧
      ((Catalog.refreshedTags Catalog.harmedRun).report Catalog.tagViews).failed.length = 1 ∧
      (Catalog.refreshedTags Catalog.smoothRun).isOver = true ∧
      ∃ log : List JobOutcome, (log.map JobOutcome.job).Perm Catalog.tagViews ∧
        ((Catalog.refreshedTags Catalog.smoothRun).report Catalog.tagViews).refreshed.Perm
          (JobOutcome.successes log) ∧
        ((Catalog.refreshedTags Catalog.smoothRun).report Catalog.tagViews).failed.Perm
          (JobOutcome.failures log) := by
  have hjobs : Catalog.tagViews.Nodup := by decide +kernel
  obtain ⟨hover, hfailed, hsmooth⟩ :
      (Catalog.refreshedTags Catalog.harmedRun).isOver = true ∧
        ((Catalog.refreshedTags Catalog.harmedRun).report Catalog.tagViews).failed.length = 1 ∧
        (Catalog.refreshedTags Catalog.smoothRun).isOver = true := by
    decide +kernel
  obtain ⟨-, -, -, -, -, hharmed⟩ := run_accounts (Replica.refreshView true) 2 hjobs Catalog.cached
    Catalog.harmedRun
  obtain ⟨-, -, -, -, -, hall⟩ := run_accounts (Replica.refreshView true) 2 hjobs Catalog.cached
    Catalog.smoothRun
  have hno : ∀ i, .abort i ∉ Catalog.smoothRun := by simp [Catalog.smoothRun]
  exact ⟨hover, (hharmed _ (.refl _)).1, hfailed, hsmooth, _, (hall _ (.refl _)).2.2 hsmooth hno⟩

end ContentReplica
