import ContentReplica.Proofs.Query.Columns
import ContentReplica.Proofs.Query.Numbers

/-!
# Accepted requests are answered

A request is refused because of the request alone, or it becomes a call that filters and orders by
columns of the plan of its content type and goes through (`Replica.resolve_executable`): what was
created of a replica answers, whatever was done to its namespace since (`Replica.Since`,
`Replica.Equipped.answers`). Rows can only be sorted where they compare consistently, which a column
with different integers around a number that both are rounded to does not let them (`Row.Sortable`).
-/

namespace ContentReplica

namespace Replica

variable {r : Replica} {depth : Nat} {s s' : Store} {source : QuerySource} {request : QueryRequest}
  {target : QueryTarget}

/-- The stores that a replica is led to from a given one: by cycles and bulk loads, whatever their
sources, failures and stops, and by batches of any statements that neither drop nor promote its
namespace. -/
inductive Since (r : Replica) (s : Store) : Store → Prop
  | start : Since r s s
  | cycled {s' s'' : Store} : Since r s s' → r.Cycled s' s'' → Since r s s''
  | executed {s' s'' : Store} {batch : List Statement} {result : Except Error Unit} :
    Since r s s' → (∀ statement ∈ batch, statement.Keeps r.namespaceName) →
    s'.execute batch = (result, s'') → Since r s s''

/-- The namespace of a replica keeps what there is. -/
theorem Since.kept (h : r.Since s s') {n : Namespace} (hn : s.namespace? r.namespaceName = some n) :
    ∃ n', s'.namespace? r.namespaceName = some n' ∧ n.Kept n' := by
  induction h with
  | start => exact ⟨n, hn, .refl n⟩
  | cycled _ hcycled ih =>
    obtain ⟨n₁, hn₁, hkept⟩ := ih
    obtain ⟨batch, n', -, hrun, hn'⟩ := hcycled.exists_batch hn₁
    exact ⟨n', hn', hkept.trans (Namespace.applyAll_kept hrun)⟩
  | @executed s' s'' batch result _ hbatch hexecute ih =>
    obtain ⟨n₁, hn₁, hkept⟩ := ih
    cases result with
    | error e =>
      refine ⟨n₁, ?_, hkept⟩
      unfold Store.namespace?
      rw [(Store.execute_error hexecute).1]
      exact hn₁
    | ok u =>
      obtain ⟨n', hn', hkept'⟩ :=
        Database.applyAll_kept hn₁ hbatch (Store.execute_ok hexecute).2.1
      exact ⟨n', hn', hkept.trans hkept'⟩

/-- The query functions and views of a replica were created. Functions are only created where the
tables are that they read. -/
structure Equipped (r : Replica) (depth : Nat) (s : Store) : Prop where
  functions : ∃ before created,
    Store.execute before (r.schema.functionStatements r.namespaceName depth) = (.ok (), created) ∧
      r.Since created s
  views : ∃ before created count, r.createViews before = (.ok count, created) ∧ r.Since created s

/-- What was created answers ever since. -/
theorem answers_of_created {before created : Store} {batch : List Statement} {statement : Statement}
    (hs : statement ∈ batch) (hsource : statement.createdSource? = some source)
    (hns : source.name.namespaceName = r.namespaceName)
    (hbatch : ∀ statement ∈ batch, statement.Keeps r.namespaceName)
    (hexecute : before.execute batch = (.ok (), created)) (hsince : r.Since created s) :
    s.database.Answers source :=
  (Database.applyAll_answers hs hsource (hns ▸ hbatch) (Store.execute_ok hexecute).2.1).of_kept
    fun n hn => by
      rw [hns] at hn ⊢
      exact hsince.kept hn

/-- The query function of a content type, and its view in a locale of the space, can answer. -/
theorem Equipped.answers (h : r.Equipped depth s) {contentType : String} {t : TableLayout}
    (ht : r.schema.entryTable? contentType = some t) {locale : String}
    (hlocale : locale ∈ r.space.localeCodes) (target : QueryTarget) :
    s.database.Answers (r.querySource t locale target) := by
  cases target with
  | function =>
    obtain ⟨before, created, hexecute, hsince⟩ := h.functions
    have hcreated : Statement.createFunction (r.schema.planOf r.namespaceName depth t)
        ∈ r.schema.functionStatements r.namespaceName depth :=
      List.mem_map_of_mem (List.mem_map_of_mem (Schema.entryTable?_eq_some ht).1)
    refine answers_of_created hcreated rfl rfl (fun statement hs => ?_) hexecute hsince
    obtain ⟨plan, -, rfl⟩ := List.mem_map.1 hs
    trivial
  | view =>
    obtain ⟨before, created, count, hcreate, hsince⟩ := h.views
    have hcreated : Statement.createView (r.viewDef t.name locale) ∈ r.viewStatements :=
      List.mem_map_of_mem (mem_viewDefs.2 ⟨_, mem_typeViews.2 ⟨t, ht, locale, hlocale, rfl⟩⟩)
    refine answers_of_created hcreated rfl rfl (fun statement hs => ?_)
      (execute_of_createViews hcreate) hsince
    obtain ⟨v, -, rfl⟩ := List.mem_map.1 hs
    trivial

/-- A request is accepted if it does not skip too much, its content type has a table, its locale is one of
the space, and its filters and order are those of the table. -/
theorem resolve_eq_ok_iff {c : QueryCall} : r.resolve request target = .ok c ↔
    request.checkSkip = .ok () ∧ ∃ t, r.schema.entryTable? request.contentType = some t ∧
      ∃ l, r.space.resolve request.locale? = .ok l ∧
        ∃ filters, request.filters.mapM t.filter = .ok filters ∧
          ∃ order, request.order.mapM t.orderTerm = .ok order ∧
            c = ⟨r.querySource t l.code target, l.code, filters, order, request.skip, request.take⟩ := by
  unfold resolve
  rw [bind_eq_ok]
  simp only [mapError_eq_ok]
  constructor
  · rintro ⟨_, hskip, h⟩
    refine ⟨hskip, ?_⟩
    split at h
    · next t ht =>
      obtain ⟨l, hlocale, h⟩ := bind_eq_ok.1 h
      obtain ⟨filters, hfilters, h⟩ := bind_eq_ok.1 h
      obtain ⟨order, horder, h⟩ := bind_eq_ok.1 h
      exact ⟨t, ht, l, hlocale, filters, mapError_eq_ok.1 hfilters, order, mapError_eq_ok.1 horder,
        (pure_eq_ok.1 h).symm⟩
    · cases h
  · rintro ⟨hskip, t, ht, l, hlocale, filters, hfilters, order, horder, rfl⟩
    refine ⟨(), hskip, ?_⟩
    rw [ht]
    exact bind_eq_ok.2 ⟨l, hlocale, bind_eq_ok.2 ⟨filters, mapError_eq_ok.2 hfilters,
      bind_eq_ok.2 ⟨order, mapError_eq_ok.2 horder, rfl⟩⟩⟩

end Replica

namespace Catalog

/-- A request in German for the products that cost more than two, the dearest first. -/
def dearProducts : QueryRequest :=
  (((QueryRequest.new "product").withLocale german).withFilter "fields.price" .gt ["2"]).withOrder
    "fields.price" true

end Catalog

end ContentReplica
