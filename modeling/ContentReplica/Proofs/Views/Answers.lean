import ContentReplica.Proofs.Query.Resolution
import ContentReplica.Proofs.Replication.Cycles
import ContentReplica.Proofs.Views.Pool
import ContentReplica.Proofs.Views.Refresh
import ContentReplica.Query.Resolution

/-!
# A view answers like its function

The views of a replica are found by their names, in which table and locale are sanitized. If no two
views share a name (`Replica.OwnViews`), each is created with its own function and locale and keeps
them: cycles leave the views alone, and a refresh changes their rows only (`Namespace.RowsRefreshed`).
So after all views were refreshed, by workers that took turns in any order (`Replica.Refreshed`), a
request has the same answer from the view as from the function (`Replica.view_answers`).
-/

namespace ContentReplica

/-! ## Refreshes in any order -/

namespace Namespace

variable {n n' n'' : Namespace} {name : Ident}

/-- A namespace and what it is after some of its views were given new rows. -/
structure RowsRefreshed (n n' : Namespace) : Prop where
  tables : n'.tables = n.tables
  functions : n'.functions = n.functions
  definitions : ∀ name,
    (n'.views.get? name).map View.definition = (n.views.get? name).map View.definition

/-- Nothing was refreshed. -/
theorem RowsRefreshed.refl (n : Namespace) : n.RowsRefreshed n := ⟨rfl, rfl, fun _ => rfl⟩

/-- More was refreshed. -/
theorem RowsRefreshed.trans (h : n.RowsRefreshed n') (h' : n'.RowsRefreshed n'') :
    n.RowsRefreshed n'' :=
  ⟨h'.tables.trans h.tables, h'.functions.trans h.functions, fun name =>
    (h'.definitions name).trans (h.definitions name)⟩

/-- There is a view of the given name, and it has the rows that its function answers. -/
def FreshAt (n : Namespace) (name : Ident) : Prop :=
  ∃ v, n.views.get? name = some v ∧ n.viewRows v.definition = .ok v.rows

/-- A refresh changes the rows of one view, which is fresh then. -/
theorem RefreshedAt.rowsRefreshed (h : n.RefreshedAt n' name) (htables : n'.tables = n.tables)
    (hfunctions : n'.functions = n.functions)
    (hsame : ∀ other ≠ name, n'.views.get? other = n.views.get? other) :
    n.RowsRefreshed n' ∧ n'.FreshAt name := by
  obtain ⟨v, v', hv, hv', hdefinition, hrows⟩ := h
  refine ⟨⟨htables, hfunctions, fun other => ?_⟩, v', hv', ?_⟩
  · by_cases hother : other = name
    · rw [hother, hv, hv']
      exact congrArg some hdefinition
    · rw [hsame other hother]
  · rw [viewRows_of_tables hfunctions htables, hdefinition, hrows]

/-- A view that keeps its rows stays fresh. -/
theorem FreshAt.of_same (h : n.FreshAt name) (htables : n'.tables = n.tables)
    (hfunctions : n'.functions = n.functions) (hsame : n'.views.get? name = n.views.get? name) :
    n'.FreshAt name := by
  obtain ⟨v, hv, hrows⟩ := h
  exact ⟨v, hsame.trans hv, (viewRows_of_tables hfunctions htables _).trans hrows⟩

end Namespace

section
variable {concurrently : Bool} {job : RefreshJob} {s s' : Store} {ns : Ident} {n : Namespace}

/-- A refresh that is refused leaves the namespaces. -/
theorem namespace?_of_refreshView_error {text : String}
    (h : Replica.refreshView concurrently job s = (some text, s')) :
    s'.namespace? ns = s.namespace? ns := by
  unfold Replica.refreshView at h
  cases hresult : s.execute [.refreshView job.view concurrently] with
  | mk result after =>
    rw [hresult] at h
    cases result with
    | ok u => cases h
    | error e =>
      obtain rfl : after = s' := congrArg Prod.snd h
      unfold Store.namespace?
      rw [(Store.execute_error hresult).1]

/-- Whatever comes of the refresh of a view, it changes the rows of views at most, it leaves fresh views
fresh, and the view is fresh if the refresh went through. -/
theorem refreshView_spec (hn : s.namespace? ns = some n) :
    ∃ n', (Replica.refreshView concurrently job s).2.namespace? ns = some n' ∧
      n.RowsRefreshed n' ∧ (∀ name, n.FreshAt name → n'.FreshAt name) ∧
      ((Replica.refreshView concurrently job s).1 = none → job.view.namespaceName = ns →
        n'.FreshAt job.view.name) := by
  cases hrefresh : Replica.refreshView concurrently job s with
  | mk error? s' =>
    cases error? with
    | some text =>
      exact ⟨n, (namespace?_of_refreshView_error hrefresh).trans hn, .refl n, fun _ => id, nofun⟩
    | none =>
      by_cases hns : job.view.namespaceName = ns
      · obtain ⟨n', hn', htables, hfunctions, hrefreshed, hsame⟩ := refreshView_ok hrefresh hns hn
        obtain ⟨hrows, hfresh⟩ := hrefreshed.rowsRefreshed htables hfunctions hsame
        refine ⟨n', hn', hrows, fun name h => ?_, fun _ _ => hfresh⟩
        by_cases hname : name = job.view.name
        · exact hname ▸ hfresh
        · exact h.of_same htables hfunctions (hsame name hname)
      · -- The view is in another namespace.
        refine ⟨n, ?_, .refl n, fun _ => id, fun _ he => absurd he hns⟩
        have hframe : s'.namespace? ns = s.namespace? ns :=
          Store.execute_frame (execute_of_refreshView hrefresh) fun statement hs => by
            obtain rfl := List.mem_singleton.1 hs
            exact fun he => hns (List.mem_singleton.1 he).symm
        exact hframe.trans hn

/-- The refreshes of views settle the views of a namespace. -/
theorem settling_refreshView (concurrently : Bool) (ns : Ident) (n : Namespace) :
    Pool.Settling (Replica.refreshView concurrently)
      (fun s => ∃ n', s.namespace? ns = some n' ∧ n.RowsRefreshed n')
      (fun job s => job.view.namespaceName = ns →
        ∃ n', s.namespace? ns = some n' ∧ n'.FreshAt job.view.name) where
  inv := fun ⟨n₁, hn₁, hrows⟩ => by
    obtain ⟨n', hn', hrows', -⟩ := refreshView_spec hn₁
    exact ⟨n', hn', hrows.trans hrows'⟩
  settles := fun ⟨n₁, hn₁, _⟩ hnone hns => by
    obtain ⟨n', hn', -, -, hfresh⟩ := refreshView_spec hn₁
    exact ⟨n', hn', hfresh hnone hns⟩
  keeps := fun ⟨n₁, hn₁, _⟩ hother hns => by
    obtain ⟨n₂, hn₂, hfresh⟩ := hother hns
    obtain rfl := Option.some.inj (hn₁.symm.trans hn₂)
    obtain ⟨n', hn', -, hkeeps, -⟩ := refreshView_spec hn₁
    exact ⟨n', hn', hkeeps _ hfresh⟩

end

namespace Replica

variable {r : Replica} {config : ViewsConfig} {s s' : Store} {n n' : Namespace}

/-- The stores that a refresh of all views without a failure leads to, in whatever order the workers
took turns; other things may happen to the store outside the namespace. -/
def Refreshed (r : Replica) (config : ViewsConfig) (s s' : Store) : Prop :=
  ∃ events,
    let jobs := r.refreshJobs r.schema.contentTypes
    let pool := (Pool.start config.workers jobs s).run (refreshView config.concurrentRefresh) events
    (pool.report jobs).isSuccess = true ∧
      s'.namespace? r.namespaceName = pool.state.namespace? r.namespaceName

/-- A refresh of all views that reports no failure leads to such a store. -/
theorem refreshed_refreshAll (h : (r.refreshAll config s).1.isSuccess = true) :
    r.Refreshed config s (r.refreshAll config s).2 := by
  let jobs := r.refreshJobs r.schema.contentTypes
  unfold refreshAll refresh at h ⊢
  refine ⟨Pool.inTurn (Pool.workerCount config.workers jobs.length) jobs.length, h, ?_⟩
  dsimp only
  split <;> rfl

/-- After a refresh of all views without a failure, all views are fresh, and nothing else has
changed. -/
theorem Refreshed.fresh (h : r.Refreshed config s s') (hn : s.namespace? r.namespaceName = some n) :
    ∃ n', s'.namespace? r.namespaceName = some n' ∧ n.RowsRefreshed n' ∧
      ∀ d ∈ r.viewDefs, n'.FreshAt d.name.name := by
  obtain ⟨events, hsuccess, hsame⟩ := h
  have hsettling := settling_refreshView config.concurrentRefresh r.namespaceName n
  have hkeeps := (Pool.Keeps.start ⟨n, hn, .refl n⟩ config.workers
    (r.refreshJobs r.schema.contentTypes)).run hsettling events
  obtain ⟨n', hn', hrows⟩ := hkeeps.state
  refine ⟨n', hsame.trans hn', hrows, fun d hd => ?_⟩
  obtain ⟨contentType, hmem, hd⟩ := List.mem_flatMap.1 hd
  obtain ⟨n'', hn'', hfresh⟩ := hkeeps.settled_of_success hsuccess
    (mem_refreshJobs.2 ⟨contentType, hmem, d, hd, rfl⟩) (namespaceName_of_mem_typeViews hd)
  obtain rfl := Option.some.inj (hn'.symm.trans hn'')
  exact hfresh

/-! ## Views of their own -/

/-- No two views share a name. -/
def OwnViews (r : Replica) : Prop := ∀ d ∈ r.viewDefs, ∀ d' ∈ r.viewDefs, d.name = d'.name → d = d'

instance (r : Replica) : Decidable r.OwnViews :=
  inferInstanceAs (Decidable (∀ d ∈ r.viewDefs, ∀ d' ∈ r.viewDefs, _ → _))

/-- Every view is there under its name. -/
def HasViews (r : Replica) (n : Namespace) : Prop :=
  ∀ d ∈ r.viewDefs, (n.views.get? d.name.name).map View.definition = some d

/-- Views that are created where there are none have names of their own or are the same. -/
theorem OwnViews.hasViews_of_create (hown : r.OwnViews) {count : Nat}
    (hn : s.namespace? r.namespaceName = some n) (hempty : n.views = .empty)
    (hcreate : r.createViews s = (.ok count, s')) :
    ∃ n', s'.namespace? r.namespaceName = some n' ∧ r.HasViews n' := by
  have hns : ∀ d ∈ r.viewDefs, d.name.namespaceName = r.namespaceName := fun d hd =>
    (mem_viewDefs.1 hd).elim fun _ hd => namespaceName_of_mem_typeViews hd
  obtain ⟨n', hn', -, -, hviews, hcontains⟩ := Database.applyAll_createViews hns hn
    (Store.execute_ok (execute_of_createViews hcreate)).2.1
  refine ⟨n', hn', fun d hd => ?_⟩
  obtain ⟨v, hv⟩ := SortedMap.contains_eq_true.1 ((hcontains _).2 (.inr ⟨d, hd, rfl⟩))
  rw [hv]
  rcases hviews _ v hv with hold | ⟨hmem, hname, -⟩
  · rw [hempty, SortedMap.get?_empty] at hold
    cases hold
  · have hnames : v.definition.name = d.name := by
      rw [QualifiedName.mk.injEq]
      exact ⟨(hns _ hmem).trans (hns d hd).symm, hname⟩
    exact congrArg some (hown _ hmem d hd hnames)

/-- Where tables and functions are set up there are no views. -/
theorem views_of_setUp {depth : Nat} {ddl : List Statement} {created : Store}
    (hddl : r.schema.ddl r.namespaceName r.space = .ok ddl)
    (hfresh : s.hasNamespace r.namespaceName = false) (hcreated : s.execute ddl = (.ok (), created))
    (hfunctions : created.execute (r.schema.functionStatements r.namespaceName depth) = (.ok (), s')) :
    ∃ n, s'.namespace? r.namespaceName = some n ∧ n.views = .empty := by
  obtain ⟨rows, n₁, hrun₁, hn₁⟩ :=
    Schema.exists_namespace_of_ddl hddl (Store.execute_ok hcreated).2.1
  rw [SortedMap.contains_eq_false.1 hfresh, Option.getD_none] at hrun₁
  obtain ⟨n₂, hrun₂, hn₂⟩ := Database.exists_namespace_of_applyAll hn₁
    Schema.functionStatements_local (Store.execute_ok hfunctions).2.1
  exact ⟨n₂, hn₂, (Namespace.applyAll_views hrun₂).trans (Namespace.applyAll_views hrun₁)⟩

/-! ## Answers -/

/-- The answer to a request. -/
def answer (r : Replica) (s : Store) (request : QueryRequest) (target : QueryTarget) :
    Except Error QueryPage := do
  s.call (← r.resolve request target)

/-- A request is refused for every target alike, or it becomes calls that differ in their source
alone. -/
theorem resolve_cases (r : Replica) (request : QueryRequest) :
    (∃ e, ∀ target, r.resolve request target = .error e) ∨
      ∃ t, r.schema.entryTable? request.contentType = some t ∧
        ∃ locale ∈ r.space.localeCodes, ∃ filters order, ∀ target, r.resolve request target
          = .ok ⟨r.querySource t locale target, locale, filters, order, request.skip,
            request.take⟩ := by
  unfold resolve
  cases request.checkSkip.mapError Error.query with
  | error e => exact .inl ⟨e, fun _ => rfl⟩
  | ok _ =>
    cases r.schema.entryTable? request.contentType with
    | none => exact .inl ⟨_, fun _ => rfl⟩
    | some t =>
      cases hlocale : r.space.resolve request.locale? with
      | error e => exact .inl ⟨e, fun _ => rfl⟩
      | ok l =>
        cases hfilters : (request.filters.mapM t.filter).mapError Error.query with
        | error e => exact .inl ⟨e, fun _ => by simp [bind, Except.bind, hfilters]⟩
        | ok filters =>
          cases horder : (request.order.mapM t.orderTerm).mapError Error.query with
          | error e => exact .inl ⟨e, fun _ => by simp [bind, Except.bind, hfilters, horder]⟩
          | ok order =>
            refine .inr ⟨t, rfl, l.code, Space.resolve_mem_localeCodes hlocale, filters,
              order, fun _ => ?_⟩
            simp [bind, Except.bind, pure, Except.pure, hfilters, horder]

/-- A view that is fresh and has its own function and locale is read as its function is called. -/
theorem HasViews.callRows_eq {t : TableLayout} {locale : String} {c : QueryCall}
    (hviews : r.HasViews n) (hn : s.namespace? r.namespaceName = some n)
    (hd : r.viewDef t.name locale ∈ r.viewDefs) (hfresh : n.FreshAt (Naming.view t.name locale))
    (hlocale : c.locale = locale) :
    s.database.callRows { c with source := r.querySource t locale .view }
      = s.database.callRows { c with source := r.querySource t locale .function } := by
  have hnamespace : s.database.namespace r.namespaceName = .ok n := Database.namespace_eq_ok.2 hn
  obtain ⟨v, hv, hrows⟩ := hfresh
  have hdefinition : v.definition = r.viewDef t.name locale := by
    have hview := hviews _ hd
    rw [show n.views.get? (r.viewDef t.name locale).name.name = some v from hv] at hview
    exact Option.some.inj hview
  have hview : s.database.callRows { c with source := r.querySource t locale .view }
      = .ok v.rows := by
    unfold Database.callRows querySource
    dsimp only
    rw [hnamespace]
    dsimp only [bind, Except.bind]
    rw [hv]
    rfl
  have hfunction : s.database.callRows { c with source := r.querySource t locale .function }
      = n.viewRows v.definition := by
    rw [hdefinition]
    unfold Database.callRows querySource Namespace.viewRows viewDef
    dsimp only
    rw [hnamespace, hlocale]
    rfl
  rw [hview, hfunction, hrows]

/-- Where all views are fresh and have their own functions and locales, a request has the same answer
from its view and from its function. -/
theorem HasViews.answer_eq (hviews : r.HasViews n) (hn : s.namespace? r.namespaceName = some n)
    (hfresh : ∀ d ∈ r.viewDefs, n.FreshAt d.name.name) (request : QueryRequest) :
    r.answer s request .view = r.answer s request .function := by
  unfold answer
  rcases r.resolve_cases request with ⟨e, he⟩ | ⟨t, ht, locale, hlocale, filters, order, hcall⟩
  · rw [he, he]
  · have hd : r.viewDef t.name locale ∈ r.viewDefs :=
      mem_viewDefs.2 ⟨_, mem_typeViews.2 ⟨t, ht, locale, hlocale, rfl⟩⟩
    have hfreshView : n.FreshAt (Naming.view t.name locale) := hfresh (r.viewDef t.name locale) hd
    have hrows := hviews.callRows_eq hn hd hfreshView
      (c := ⟨r.querySource t locale .view, locale, filters, order, request.skip, request.take⟩) rfl
    rw [hcall, hcall]
    change s.call _ = s.call _
    unfold Store.call Database.call
    rw [hrows]
    rfl

/-- After a replica was set up with its functions and views, all of which have names of their own, and
after any cycles, a refresh of all views without a failure makes each view answer every request like its
function: with the same page, or with the same error. -/
theorem view_answers {depth count : Nat} {ddl : List Statement} {s₀ s₁ s₂ s₃ s₄ s₅ : Store}
    (hown : r.OwnViews) (hddl : r.schema.ddl r.namespaceName r.space = .ok ddl)
    (hnew : s₀.hasNamespace r.namespaceName = false) (hcreated : s₀.execute ddl = (.ok (), s₁))
    (hfunctions : s₁.execute (r.schema.functionStatements r.namespaceName depth) = (.ok (), s₂))
    (hviews : r.createViews s₂ = (.ok count, s₃)) (hcycled : r.Cycled s₃ s₄)
    (hrefresh : r.Refreshed config s₄ s₅) (request : QueryRequest) :
    r.answer s₅ request .view = r.answer s₅ request .function := by
  obtain ⟨n₂, hn₂, hnone⟩ := views_of_setUp hddl hnew hcreated hfunctions
  obtain ⟨n₃, hn₃, hviews₃⟩ := hown.hasViews_of_create hn₂ hnone hviews
  obtain ⟨batch, n₄, -, hrun, hn₄⟩ := hcycled.exists_batch hn₃
  obtain ⟨n₅, hn₅, hrows, hfresh⟩ := hrefresh.fresh hn₄
  -- Cycles leave the views, and refreshes what defines them.
  have hviews₅ : r.HasViews n₅ := fun d hd => by
    rw [hrows.definitions, Namespace.applyAll_views hrun]
    exact hviews₃ d hd
  exact hviews₅.answer_eq hn₅ hfresh request

end Replica

namespace Catalog

/-- The catalog with its functions. -/
def answering : Store := (setUp.execute (schema.functionStatements namespaceName 1)).2

/-- The catalog with its functions and views, before there is content. -/
def cached : Store := (replica.createViews answering).2

/-- A source that has a product. -/
def productSource : ContentSource :=
  { source with answers := [.ok ((SyncPage.empty (.done "first")).withEntry translatedProduct)] }

/-- The catalog after a cycle that loads the product. -/
def cachedProduct : Store :=
  ((Engine.mk replica {}).run .never ⟨productSource, cached⟩).world.store

/-- The catalog after a refresh of all views. -/
def refreshedProduct : RefreshReport × Store := replica.refreshAll {} cachedProduct

/-- A request for the products in German. -/
def germanProducts : QueryRequest := { QueryRequest.new "product" with locale? := some german }

end Catalog

/-- After a cycle the view of the products in German is read before it was refreshed, and after it. -/
theorem Replica.view_answers_catalog :
    (Catalog.replica.answer Catalog.cachedProduct Catalog.germanProducts .view).toOption.map
        QueryPage.count = some 0 ∧
      (Catalog.replica.answer Catalog.refreshedProduct.2 Catalog.germanProducts .view).toOption.map
        QueryPage.count = some 1 := by
  obtain ⟨hfunctionsOk, hviewsOk, hrefreshOk, hstale, hcount⟩ :
      (Catalog.setUp.execute
          (Catalog.schema.functionStatements Catalog.namespaceName 1)).1.isOk = true ∧
        (Catalog.replica.createViews Catalog.answering).1.isOk = true ∧
        Catalog.refreshedProduct.1.isSuccess = true ∧
        (Catalog.replica.answer Catalog.cachedProduct Catalog.germanProducts .view).toOption.map
          QueryPage.count = some 0 ∧
        (Catalog.replica.answer Catalog.refreshedProduct.2 Catalog.germanProducts
          .function).toOption.map QueryPage.count = some 1 := by decide +kernel
  have hown : Catalog.replica.OwnViews := by decide +kernel
  have hrefresh : Catalog.replica.Refreshed {} Catalog.cachedProduct Catalog.refreshedProduct.2 :=
    refreshed_refreshAll hrefreshOk
  have hcycle (source : ContentSource) (s : Store) : Catalog.replica.Cycled s
      ((Engine.mk Catalog.replica {}).run .never ⟨source, s⟩).world.store := .run {} .never .start
  have hcycled : Catalog.replica.Cycled Catalog.cached Catalog.cachedProduct := hcycle _ _
  obtain ⟨ddl, hddl, hsetUp⟩ := Catalog.exists_setUp
  obtain ⟨_, hfunctions⟩ : ∃ u, Catalog.setUp.execute _ = (.ok u, Catalog.answering) :=
    exists_of_fst_isOk hfunctionsOk
  obtain ⟨count, hviews⟩ : ∃ count, Catalog.replica.createViews Catalog.answering
      = (.ok count, Catalog.cached) := exists_of_fst_isOk hviewsOk
  have hanswers := view_answers hown hddl rfl hsetUp hfunctions hviews hcycled hrefresh
    Catalog.germanProducts
  refine ⟨hstale, ?_⟩
  rw [hanswers]
  exact hcount

end ContentReplica
