import ContentReplica.Store
import ContentReplica.Views.Pool

/-!
# Creating and refreshing views

`Replica.createViews` creates all views of a replica in one batch. `Replica.refreshAll` and
`Replica.publish` refresh all views, or those that the publication of a content type reaches, one
batch for each view, so a view that cannot be refreshed does not stop the others.
-/

namespace ContentReplica.Replica

/-- Create and fill all views in one batch, and count them. -/
def createViews (r : Replica) (s : Store) : Except Error Nat × Store :=
  let (result, s) := s.execute r.viewStatements
  (result.map fun _ => r.viewStatements.length, s)

/-- Refresh one view, and give the text of the error if that fails. -/
def refreshView (concurrently : Bool) (job : RefreshJob) (s : Store) : Option String × Store :=
  let (result, s) := s.execute [.refreshView job.view concurrently]
  match result with
  | .ok () => (none, s)
  | .error e => (some e.message, s)

/-- Refresh some views. In a store whose batches take time all workers are at work at once. -/
def refresh (config : ViewsConfig) (jobs : List RefreshJob) (s : Store) : RefreshReport × Store :=
  let workers := Pool.workerCount config.workers jobs.length
  let pool := (Pool.start config.workers jobs s).run (refreshView config.concurrentRefresh)
    (Pool.inTurn workers jobs.length)
  (pool.report jobs, if s.delayed then pool.state.observe workers else pool.state)

/-- Refresh all views of the replica. -/
def refreshAll (r : Replica) (config : ViewsConfig) (s : Store) : RefreshReport × Store :=
  refresh config (r.refreshJobs r.schema.contentTypes) s

/-- Refresh the views that the publication of a content type reaches, within the given number of
references. -/
def publish (r : Replica) (config : ViewsConfig) (depth : Nat) (contentType : String) (s : Store) :
    Except Error RefreshReport × Store :=
  match r.affectedTypes depth contentType with
  | .error e => (.error e, s)
  | .ok types =>
    let (report, s) := refresh config (r.refreshJobs types) s
    (.ok report, s)

end ContentReplica.Replica
