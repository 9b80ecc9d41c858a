import ContentReplica.Proofs.Query.Relations
import ContentReplica.Proofs.Replication.Synced
import ContentReplica.Proofs.Views.Dependents
import ContentReplica.Proofs.Views.Pool
import ContentReplica.Views.Manager

/-!
# Views stay fresh

A view is fresh while it has the rows that its function answers in its locale. A change of the rows of
one table leaves the views of all types that it does not affect fresh, because their functions do not
read the table (`Replica.viewRows_of_unaffected`). So it is enough to refresh the views that a
publication lists, in any order (`Replica.publish_keeps_fresh`).

A publication that reports no failure has refreshed these views one after the other
(`Replica.publish_ok`), and leaves all views fresh (`Replica.publish_fresh`).
-/

namespace ContentReplica

/-! ## The rows of a view -/

namespace Namespace

variable {n n' : Namespace}

/-- Every view has the rows that its function answers in its locale. -/
def ViewsFresh (n : Namespace) : Prop :=
  ∀ name v, n.views.get? name = some v → n.viewRows v.definition = .ok v.rows

/-- The rows of a view depend on what its function reads. -/
theorem viewRows_congr (hfunctions : n.functions = n'.functions) {v : ViewDef}
    (h : ∀ plan, n.functions.get? v.function.name = some plan →
      n.table plan.locales.name = n'.table plan.locales.name ∧ n.AgreeOn n' plan.root.relations) :
    n.viewRows v = n'.viewRows v := by
  unfold viewRows
  rw [← hfunctions]
  cases hplan : n.functions.get? v.function.name with
  | none => rfl
  | some plan => exact evaluate_congr (h plan hplan).1 (h plan hplan).2 v.locale

/-- The rows of a view do not depend on other views. -/
theorem viewRows_of_tables (hfunctions : n.functions = n'.functions) (htables : n.tables = n'.tables)
    (v : ViewDef) : n.viewRows v = n'.viewRows v := by
  have htable (name : Ident) : n.table name = n'.table name := by
    unfold table
    rw [htables]
  exact viewRows_congr hfunctions fun _ _ => ⟨htable _, fun _ _ => htable _⟩

/-- A namespace and what it is after a change of one table and of its link tables: all other tables that
hold content and the table of locales are as they were. -/
structure ChangedAt (n n' : Namespace) (s : Schema) (t : TableLayout) : Prop where
  functions : n'.functions = n.functions
  views : n'.views = n.views
  locales : n'.tables.get? localesTable = n.tables.get? localesTable
  tables : ∀ name ∈ s.contentTables.map Prod.fst, name ≠ t.name →
    name ∉ t.linkTables.map LinkTable.name → n'.tables.get? name = n.tables.get? name

/-- Another table in its place is a change of a table. -/
theorem ChangedAt.withTable {s : Schema} (hfree : s.CollisionFree) {t : TableLayout}
    (ht : t ∈ s.allTables) (n : Namespace) (table : Table) :
    n.ChangedAt (n.withTable t.name table) s t := by
  refine ⟨rfl, rfl, SortedMap.get?_insert_of_ne _ _ fun he => ?_,
    fun name _ hne _ => SortedMap.get?_insert_of_ne _ _ hne⟩
  exact hfree.locales_notMem (he ▸ List.mem_map_of_mem (Schema.mem_contentTables_of_table ht))

end Namespace

/-! ## Creating -/

section
variable {n n' : Namespace} {ns : Ident}

/-- A view is created with its rows unless there is one of that name, and the others stay. -/
theorem Namespace.createView_ok {v : ViewDef} {stamp : Nat} (h : n.createView v stamp = .ok n') :
    n'.tables = n.tables ∧ n'.functions = n.functions ∧
      (∀ name w, n'.views.get? name = some w → n.views.get? name = some w ∨
        w.definition = v ∧ v.name.name = name ∧ n.viewRows v = .ok w.rows) ∧
      ∀ name, n'.views.contains name = true ↔ n.views.contains name = true ∨ v.name.name = name := by
  unfold createView at h
  split at h
  · next hcontains =>
    obtain rfl := pure_eq_ok.1 h
    exact ⟨rfl, rfl, fun _ _ h => .inl h, fun name =>
      (or_iff_left_of_imp fun he => he ▸ hcontains).symm⟩
  · obtain ⟨rows, hrows, h⟩ := bind_eq_ok.1 h
    obtain rfl := pure_eq_ok.1 h
    refine ⟨rfl, rfl, fun name w hw => ?_, fun name => ?_⟩
    · rw [SortedMap.get?_insert_eq] at hw
      split at hw
      · next he =>
        obtain rfl := Option.some.inj hw
        exact .inr ⟨rfl, he.symm, hrows⟩
      · exact .inl hw
    · rw [SortedMap.contains_eq_true, SortedMap.contains_eq_true, SortedMap.get?_insert_eq]
      by_cases he : name = v.name.name
      · simp [he]
      · simp [he, Ne.symm he]

/-- Views that are created in a namespace have their rows, and the others stay. -/
theorem Database.applyAll_createViews :
    ∀ {definitions : List ViewDef} {d d' : Database} {n : Namespace},
      (∀ v ∈ definitions, v.name.namespaceName = ns) → d.namespaces.get? ns = some n →
      d.applyAll (definitions.map .createView) = .ok d' →
      ∃ n', d'.namespaces.get? ns = some n' ∧ n'.tables = n.tables ∧ n'.functions = n.functions ∧
        (∀ name w, n'.views.get? name = some w → n.views.get? name = some w ∨
          w.definition ∈ definitions ∧ w.definition.name.name = name ∧
            n.viewRows w.definition = .ok w.rows) ∧
        ∀ name, n'.views.contains name = true ↔
          n.views.contains name = true ∨ ∃ v ∈ definitions, v.name.name = name := by
  intro definitions
  induction definitions with
  | nil =>
    intro d d' n _ hn h
    obtain rfl := pure_eq_ok.1 h
    exact ⟨n, hn, rfl, rfl, fun _ _ h => .inl h, fun name => by simp⟩
  | cons v definitions ih =>
    intro d d' n hns hn h
    obtain ⟨hv, hns⟩ := List.forall_mem_cons.1 hns
    obtain ⟨d₁, hfirst, hrest⟩ := bind_eq_ok.1 h
    obtain ⟨n₀, n₁, hn₀, hcreate, rfl⟩ := Database.update_eq_ok.1 hfirst
    obtain rfl := Option.some.inj ((hv ▸ hn).symm.trans hn₀)
    obtain ⟨htables₁, hfunctions₁, hviews₁, hcontains₁⟩ := Namespace.createView_ok hcreate
    obtain ⟨n', hn', htables, hfunctions, hviews, hcontains⟩ :=
      ih hns (Database.get?_withNamespace_self ..) (hv ▸ hrest)
    refine ⟨n', hn', htables.trans htables₁, hfunctions.trans hfunctions₁,
      fun name w hw => ?_, fun name => ?_⟩
    · rcases hviews name w hw with hw | ⟨hmem, hname, hrows⟩
      · rcases hviews₁ name w hw with hw | ⟨rfl, hname, hrows⟩
        · exact .inl hw
        · exact .inr ⟨List.mem_cons_self .., hname, hrows⟩
      · rw [Namespace.viewRows_of_tables hfunctions₁ htables₁] at hrows
        exact .inr ⟨List.mem_cons_of_mem _ hmem, hname, hrows⟩
    · rw [hcontains, hcontains₁, or_assoc]
      simp

end

/-! ## Refreshing -/

/-- Refresh some views one after the other, none if a refresh fails. -/
def Replica.refreshEach (concurrently : Bool) : List RefreshJob → Store → Option Store
  | [], s => some s
  | job :: jobs, s =>
    match refreshView concurrently job s with
    | (none, s) => refreshEach concurrently jobs s
    | (some _, _) => none

/-- A view was given the rows that its function answers. -/
def Namespace.RefreshedAt (n n' : Namespace) (name : Ident) : Prop :=
  ∃ v v', n.views.get? name = some v ∧ n'.views.get? name = some v' ∧
    v'.definition = v.definition ∧ n.viewRows v.definition = .ok v'.rows

section
variable {concurrently : Bool} {job : RefreshJob} {jobs : List RefreshJob} {s s' final : Store}
  {ns : Ident} {n n' : Namespace}

/-- A view that was refreshed without an error was refreshed in one batch. -/
theorem execute_of_refreshView (h : Replica.refreshView concurrently job s = (none, s')) :
    s.execute [.refreshView job.view concurrently] = (.ok (), s') := by
  unfold Replica.refreshView at h
  cases hresult : s.execute [.refreshView job.view concurrently] with
  | mk result after =>
    rw [hresult] at h
    cases result with
    | error e => cases h
    | ok u =>
      obtain rfl : after = s' := congrArg Prod.snd h
      rfl

/-- A view that is refreshed has its rows then, and nothing else changes. -/
theorem Namespace.refreshView_ok {name : QualifiedName} {stamp : Nat}
    (h : n.refreshView name stamp = .ok n') : ∃ v rows, n.views.get? name.name = some v ∧
      n.viewRows v.definition = .ok rows ∧
      n' = { n with views := n.views.insert name.name ⟨v.definition, rows, stamp⟩ } := by
  unfold refreshView at h
  cases hview : n.views.get? name.name with
  | none =>
    rw [hview] at h
    cases h
  | some v =>
    rw [hview] at h
    obtain ⟨rows, hrows, h⟩ := bind_eq_ok.1 h
    exact ⟨v, rows, rfl, hrows, (pure_eq_ok.1 h).symm⟩

/-- The refresh of a view puts its rows into the view and changes nothing else. -/
theorem refreshView_ok (h : Replica.refreshView concurrently job s = (none, s'))
    (hns : job.view.namespaceName = ns) (hn : s.namespace? ns = some n) :
    ∃ n', s'.namespace? ns = some n' ∧ n'.tables = n.tables ∧ n'.functions = n.functions ∧
      n.RefreshedAt n' job.view.name ∧
      ∀ name ≠ job.view.name, n'.views.get? name = n.views.get? name := by
  have happly := Database.applyAll_singleton.1 (Store.execute_ok (execute_of_refreshView h)).2.1
  obtain ⟨n₀, n', hn₀, hrefresh, hdatabase⟩ := Database.update_eq_ok.1 happly
  obtain rfl := Option.some.inj ((hns ▸ hn).symm.trans hn₀)
  obtain ⟨v, rows, hview, hrows, rfl⟩ := Namespace.refreshView_ok hrefresh
  refine ⟨{ n with
      views := n.views.insert job.view.name ⟨v.definition, rows, s.database.refreshes + 1⟩ },
    ?_, rfl, rfl, ⟨v, _, hview, SortedMap.get?_insert_self .., rfl, hrows⟩,
    fun name hne => SortedMap.get?_insert_of_ne _ _ hne⟩
  unfold Store.namespace?
  rw [hdatabase, hns]
  exact Database.get?_withNamespace_self ..

/-- What was refreshed after another view was is refreshed in the end. -/
theorem Namespace.RefreshedAt.of_later {n₁ n' : Namespace} {name other : Ident}
    (htables : n₁.tables = n.tables) (hfunctions : n₁.functions = n.functions)
    (hother : n.RefreshedAt n₁ other)
    (hsame : ∀ name ≠ other, n₁.views.get? name = n.views.get? name)
    (h : n₁.RefreshedAt n' name) : n.RefreshedAt n' name := by
  obtain ⟨v₁, v', hv₁, hv', hdefinition, hrows⟩ := h
  rw [viewRows_of_tables hfunctions htables] at hrows
  by_cases hname : name = other
  · obtain ⟨v, w, hv, hw, hdefinition', -⟩ := hname ▸ hother
    obtain rfl := Option.some.inj (hw.symm.trans hv₁)
    exact ⟨v, v', hv, hv', hdefinition.trans hdefinition', hdefinition' ▸ hrows⟩
  · exact ⟨v₁, v', (hsame name hname) ▸ hv₁, hv', hdefinition, hrows⟩

/-- Views that were all refreshed have their rows, and the others are as they were. -/
theorem refreshEach_ok (h : Replica.refreshEach concurrently jobs s = some final)
    (hns : ∀ job ∈ jobs, job.view.namespaceName = ns) (hn : s.namespace? ns = some n) :
    ∃ n', final.namespace? ns = some n' ∧ n'.tables = n.tables ∧ n'.functions = n.functions ∧
      (∀ job ∈ jobs, n.RefreshedAt n' job.view.name) ∧
      ∀ name, (∀ job ∈ jobs, job.view.name ≠ name) → n'.views.get? name = n.views.get? name := by
  induction jobs generalizing s n with
  | nil =>
    obtain rfl := Option.some.inj h
    exact ⟨n, hn, rfl, rfl, nofun, fun _ _ => rfl⟩
  | cons job jobs ih =>
    obtain ⟨hjob, hjobs⟩ := List.forall_mem_cons.1 hns
    unfold Replica.refreshEach at h
    split at h
    case h_2 => cases h
    next s' hstep =>
      obtain ⟨n₁, hn₁, htables₁, hfunctions₁, hrefreshed₁, hsame₁⟩ := refreshView_ok hstep hjob hn
      obtain ⟨n', hn', htables, hfunctions, hrefreshed, hsame⟩ := ih h hjobs hn₁
      refine ⟨n', hn', htables.trans htables₁, hfunctions.trans hfunctions₁,
        List.forall_mem_cons.2 ⟨?_, fun other hother => ?_⟩, fun name hname => ?_⟩
      · -- A view that is listed again has the rows of its last refresh.
        by_cases hagain : ∃ other ∈ jobs, other.view.name = job.view.name
        · obtain ⟨other, hother, he⟩ := hagain
          exact .of_later htables₁ hfunctions₁ hrefreshed₁ hsame₁ (he ▸ hrefreshed other hother)
        · have hkept := hsame job.view.name fun other hother he => hagain ⟨other, hother, he⟩
          obtain ⟨v, v', hv, hv', hrest⟩ := hrefreshed₁
          exact ⟨v, v', hv, hkept.trans hv', hrest⟩
      · exact .of_later htables₁ hfunctions₁ hrefreshed₁ hsame₁ (hrefreshed other hother)
      · obtain ⟨hne, hrest⟩ := List.forall_mem_cons.1 hname
        exact (hsame name hrest).trans (hsame₁ name (Ne.symm hne))

/-- Refreshes that all go without an error are those of the views one after the other. -/
theorem refreshEach_of_executeAll
    (h : ∀ o ∈ (Pool.executeAll (Replica.refreshView concurrently) jobs s).1, o.error? = none) :
    Replica.refreshEach concurrently jobs s
      = some (Pool.executeAll (Replica.refreshView concurrently) jobs s).2 := by
  induction jobs generalizing s with
  | nil => rfl
  | cons job jobs ih =>
    obtain ⟨hfirst, hrest⟩ := List.forall_mem_cons.1 h
    unfold Replica.refreshEach
    cases hstep : Replica.refreshView concurrently job s with
    | mk error? after =>
      rw [hstep] at hfirst hrest
      obtain rfl : error? = none := hfirst
      rw [Pool.executeAll, hstep]
      exact ih hrest

/-- A refresh of some views that reports no failure has refreshed them one after the other. -/
theorem refresh_ok {config : ViewsConfig} (h : (Replica.refresh config jobs s).1.isSuccess = true) :
    ∃ final, Replica.refreshEach config.concurrentRefresh jobs s = some final ∧
      (Replica.refresh config jobs s).2.database = final.database := by
  obtain ⟨houtcomes, hstate⟩ :=
    Pool.run_inTurn (Replica.refreshView config.concurrentRefresh) config.workers jobs s
  unfold Replica.refresh Pool.report at h
  dsimp only at h
  rw [houtcomes] at h
  refine ⟨_, refreshEach_of_executeAll fun o ho => RefreshReport.error?_eq_none h ho, ?_⟩
  rw [← hstate]
  unfold Replica.refresh
  dsimp only
  split <;> rfl

end

/-! ## The views of a replica -/

/-- A namespace has the query functions of a replica and no views but those of the replica. -/
structure Replica.Viewed (r : Replica) (depth : Nat) (n : Namespace) : Prop where
  functions : ∀ t ∈ r.schema.tables, r.schema.OwnFunction t →
    n.functions.get? (Naming.function t.name) = some (r.schema.planOf r.namespaceName depth t)
  views : ∀ name v, n.views.get? name = some v →
    v.definition ∈ r.viewDefs ∧ v.definition.name.name = name

namespace Replica

variable {r : Replica} {n n' : Namespace} {t published : TableLayout} {d : ViewDef}

/-- A view of a content type is that of its table in a locale. -/
theorem mem_typeViews {contentType : String} : d ∈ r.typeViews contentType ↔
    ∃ t, r.schema.entryTable? contentType = some t ∧
      ∃ locale ∈ r.space.localeCodes, d = r.viewDef t.name locale := by
  unfold typeViews tableViews
  cases r.schema.entryTable? contentType with
  | none => simp
  | some t => simp [eq_comm]

/-- Functions that do not read a table answer the same after a change of it. -/
theorem viewRows_of_unaffected (h : n.ChangedAt n' r.schema published)
    (hfree : r.schema.CollisionFree) (hpublished : published ∈ r.schema.allTables)
    (ht : t ∈ r.schema.tables) {k : Nat} (hreads : ¬ r.schema.Reads k t published)
    (hplan : n.functions.get? (Naming.function t.name)
      = some (r.schema.planOf r.namespaceName k t)) {locale : String} :
    n'.viewRows (r.viewDef t.name locale) = n.viewRows (r.viewDef t.name locale) := by
  have htable {name : Ident} (hget : n'.tables.get? name = n.tables.get? name) :
      n'.table name = n.table name := by
    unfold Namespace.table
    rw [hget]
  refine Namespace.viewRows_congr h.functions fun plan hget => ?_
  obtain rfl := Option.some.inj (hplan.symm.trans (h.functions ▸ hget))
  refine ⟨htable h.locales, fun name hname => ?_⟩
  obtain ⟨t', hreads', hname⟩ := Schema.mem_relations_planNode hname
  have ht' := hreads'.mem_allTables (List.mem_append_left _ ht)
  have hne : t' ≠ published := fun he => hreads (he ▸ hreads')
  rcases hname with rfl | hname
  · refine htable (h.tables _ (List.mem_map_of_mem (Schema.mem_contentTables_of_table ht'))
      (fun he => hne (hfree.table_eq ht' hpublished he)) fun hlink => ?_)
    obtain ⟨l, hl, he⟩ := List.mem_map.1 hlink
    exact hfree.table_ne_link ht' (Schema.mem_linkTables hpublished hl) he.symm
  · obtain ⟨l, hl, rfl⟩ := List.mem_map.1 hname
    have hlink := Schema.mem_linkTables ht' hl
    refine htable (h.tables _ (List.mem_map_of_mem (Schema.mem_contentTables_of_link hlink))
      (fun he => hfree.table_ne_link hpublished hlink he.symm) fun hmem => ?_)
    obtain ⟨l', hl', he⟩ := List.mem_map.1 hmem
    exact hne (hfree.owner_eq ht' hpublished hl hl' he.symm)

/-- The jobs of some content types refresh the views of these types. -/
theorem mem_refreshJobs {types : List String} {job : RefreshJob} : job ∈ r.refreshJobs types ↔
    ∃ contentType ∈ types, ∃ d ∈ r.typeViews contentType,
      job = ⟨contentType, d.locale, d.name⟩ := by
  unfold refreshJobs
  simp [List.mem_flatMap, List.mem_map, eq_comm]

/-- The views that are created are those of the content types. -/
theorem mem_viewDefs : d ∈ r.viewDefs ↔ ∃ contentType, d ∈ r.typeViews contentType := by
  unfold viewDefs
  rw [List.mem_flatMap]
  refine ⟨fun ⟨contentType, _, hd⟩ => ⟨contentType, hd⟩, fun ⟨contentType, hd⟩ =>
    ⟨contentType, ?_, hd⟩⟩
  obtain ⟨t, ht, -⟩ := mem_typeViews.1 hd
  obtain ⟨hmem, rfl⟩ := Schema.entryTable?_eq_some ht
  exact List.mem_map_of_mem hmem

/-- The views of a content type are in the namespace of the replica. -/
theorem namespaceName_of_mem_typeViews {contentType : String} (h : d ∈ r.typeViews contentType) :
    d.name.namespaceName = r.namespaceName := by
  obtain ⟨t, -, locale, -, rfl⟩ := mem_typeViews.1 h
  rfl

/-- Views that were created without an error were created in one batch. -/
theorem execute_of_createViews {s s' : Store} {count : Nat}
    (h : r.createViews s = (.ok count, s')) : s.execute r.viewStatements = (.ok (), s') := by
  unfold createViews at h
  cases hresult : s.execute r.viewStatements with
  | mk result after =>
    rw [hresult] at h
    cases result with
    | error e => cases h
    | ok u =>
      obtain rfl : after = s' := congrArg Prod.snd h
      rfl

/-- The views that are created after any pages are those of the replica, and they are fresh. -/
theorem Synced.viewed {m : Mapping} {depth count : Nat} {pages : List SyncPage} {s s' : Store}
    (h : r.Synced depth pages s) (hfree : r.schema.CollisionFree)
    (hm : Mapping.of r.schema r.space = .ok m) (hwell : m.WellFormed)
    (hcreate : r.createViews s = (.ok count, s')) :
    ∃ n, s'.namespace? r.namespaceName = some n ∧ r.Viewed depth n ∧ n.ViewsFresh ∧
      ∀ d ∈ r.viewDefs, n.views.contains d.name.name = true := by
  obtain ⟨n₀, origin, hn₀, hsetUp, base, contents, -, hbeside, hmirror, -⟩ :=
    h.coherent hfree hm hwell
  have horigin := hbeside.mirror hmirror hfree
  have hviews₀ : n₀.views = .empty := horigin.views.trans hsetUp.views
  have hns : ∀ d ∈ r.viewDefs, d.name.namespaceName = r.namespaceName := fun d hd =>
    (mem_viewDefs.1 hd).elim fun _ hd => namespaceName_of_mem_typeViews hd
  obtain ⟨n, hn, htables, hfunctions, hviews, hcontains⟩ := Database.applyAll_createViews hns hn₀
    (Store.execute_ok (execute_of_createViews hcreate)).2.1
  have hnone : ∀ name v, n₀.views.get? name ≠ some v := by
    intro name v
    rw [hviews₀, SortedMap.get?_empty]
    exact nofun
  refine ⟨n, hn, ⟨fun t ht hown => ?_, fun name v hv => ?_⟩, fun name v hv => ?_, fun d hd => ?_⟩
  · rw [hfunctions, horigin.functions]
    exact hsetUp.functions t ht hown
  · obtain ⟨hmem, hname, -⟩ := (hviews name v hv).resolve_left (hnone name v)
    exact ⟨hmem, hname⟩
  · obtain ⟨-, -, hrows⟩ := (hviews name v hv).resolve_left (hnone name v)
    rw [Namespace.viewRows_of_tables hfunctions htables, hrows]
  · exact (hcontains _).2 (.inr ⟨d, hd, rfl⟩)

/-- Where views have names of their own, and types functions of their own, views with one name are those
of one type. -/
theorem contentType_eq_of_viewName {contentType contentType' : String} {d' : ViewDef}
    (hown : ∀ t ∈ r.schema.tables, r.schema.OwnFunction t)
    (hnames : (r.viewDefs.map ViewDef.name).Nodup) (hd : d ∈ r.typeViews contentType)
    (hd' : d' ∈ r.typeViews contentType') (he : d.name.name = d'.name.name) :
    contentType = contentType' := by
  have hname : d.name = d'.name := by
    rw [QualifiedName.mk.injEq]
    exact ⟨(namespaceName_of_mem_typeViews hd).trans (namespaceName_of_mem_typeViews hd').symm, he⟩
  have hview : d = d' := List.inj_on_of_nodup_map hnames (mem_viewDefs.2 ⟨_, hd⟩)
    (mem_viewDefs.2 ⟨_, hd'⟩) hname
  obtain ⟨t, ht, locale, -, rfl⟩ := mem_typeViews.1 hd
  obtain ⟨t', ht', locale', -, rfl⟩ := mem_typeViews.1 hd'
  obtain ⟨hmem, rfl⟩ := Schema.entryTable?_eq_some ht
  obtain ⟨hmem', rfl⟩ := Schema.entryTable?_eq_some ht'
  have hfunction : Naming.function t.name = Naming.function t'.name :=
    congrArg (fun d : ViewDef => d.function.name) hview
  exact congrArg TableLayout.contentType (hown t' hmem' t hmem hfunction)

/-- A publication that reports no failure has refreshed the views of the content types that it affects,
one after the other. -/
theorem publish_ok {config : ViewsConfig} {depth : Nat} {contentType : String} {report : RefreshReport}
    {s s' : Store} (h : r.publish config depth contentType s = (.ok report, s'))
    (hsuccess : report.isSuccess = true) :
    ∃ types final, r.affectedTypes depth contentType = .ok types ∧
      refreshEach config.concurrentRefresh (r.refreshJobs types) s = some final ∧
      s'.database = final.database := by
  unfold publish at h
  cases htypes : r.affectedTypes depth contentType with
  | error e =>
    rw [htypes] at h
    cases h
  | ok types =>
    rw [htypes] at h
    obtain ⟨hreport, rfl⟩ := Prod.mk.inj h
    obtain rfl := Except.ok.inj hreport
    obtain ⟨final, hrun, hdatabase⟩ := refresh_ok hsuccess
    exact ⟨types, final, rfl, hrun, hdatabase⟩

section
variable {k depth : Nat} {changed : Store} (hfree : r.schema.CollisionFree)
  (hown : ∀ t ∈ r.schema.tables, r.schema.OwnFunction t) (hk : k ≤ depth) (hviewed : r.Viewed k n)
  (hfresh : n.ViewsFresh) (hpublished : published ∈ r.schema.allTables)
  (hchange : n.ChangedAt n' r.schema published) (hn' : changed.namespace? r.namespaceName = some n')
include hfree hown hk hviewed hfresh hpublished hchange hn'

/-- After a change of one table and the refresh of the views of all types whose documents read it, in
any order, all views are fresh again. Where views have names of their own, the others are as they
were. -/
theorem refreshEach_keeps_fresh {types : List String}
    (haffected : ∀ k ≤ depth, ∀ t ∈ r.schema.tables, r.schema.Reads k t published →
      t.contentType ∈ types) {concurrently : Bool} {jobs : List RefreshJob} {final : Store}
    (hjobs : jobs.Perm (r.refreshJobs types))
    (hrun : refreshEach concurrently jobs changed = some final) :
    ∃ n'', final.namespace? r.namespaceName = some n'' ∧ n''.ViewsFresh ∧
      ((r.viewDefs.map ViewDef.name).Nodup → ∀ contentType ∈ r.schema.contentTypes,
        contentType ∉ types → ∀ d ∈ r.typeViews contentType,
          n''.views.get? d.name.name = n.views.get? d.name.name) := by
  have hns : ∀ job ∈ jobs, job.view.namespaceName = r.namespaceName := by
    intro job hjob
    obtain ⟨contentType, -, d, hd, rfl⟩ := mem_refreshJobs.1 (hjobs.mem_iff.1 hjob)
    exact namespaceName_of_mem_typeViews hd
  obtain ⟨n'', hn'', htables, hfunctions, hrefreshed, hsame⟩ := refreshEach_ok hrun hns hn'
  refine ⟨n'', hn'', fun name v hv => ?_, fun hnames contentType _ hnot d hd => ?_⟩
  · rw [Namespace.viewRows_of_tables hfunctions htables]
    by_cases hjob : ∃ job ∈ jobs, job.view.name = name
    · obtain ⟨job, hjob, rfl⟩ := hjob
      obtain ⟨old, new, -, hnew, hdefinition, hrows⟩ := hrefreshed job hjob
      obtain rfl := Option.some.inj (hnew.symm.trans hv)
      rw [hdefinition, hrows]
    · -- A view that was not refreshed is one of a type that is not affected.
      have hkept := hsame name fun job hmem he => hjob ⟨job, hmem, he⟩
      rw [hkept, hchange.views] at hv
      obtain ⟨hd, hname⟩ := hviewed.views name v hv
      obtain ⟨contentType, hd⟩ := mem_viewDefs.1 hd
      have hnot : contentType ∉ types := fun hmem => hjob ⟨_,
        hjobs.mem_iff.2 (mem_refreshJobs.2 ⟨contentType, hmem, v.definition, hd, rfl⟩), hname⟩
      obtain ⟨t, ht, locale, -, hdefinition⟩ := mem_typeViews.1 hd
      obtain ⟨hmem, rfl⟩ := Schema.entryTable?_eq_some ht
      rw [← hfresh name v hv, hdefinition]
      exact viewRows_of_unaffected hchange hfree hpublished hmem
        (fun hreads => hnot (haffected k hk t hmem hreads)) (hviewed.functions t hmem (hown t hmem))
  · rw [hsame d.name.name, hchange.views]
    intro job hjob he
    obtain ⟨contentType', hmem', d', hd', rfl⟩ := mem_refreshJobs.1 (hjobs.mem_iff.1 hjob)
    exact hnot (contentType_eq_of_viewName hown hnames hd' hd he ▸ hmem')

/-- After a change of one table, a publication of its content type that reports no failure leaves all
views fresh. -/
theorem publish_fresh {config : ViewsConfig} {report : RefreshReport} {final : Store}
    (h : r.publish config depth published.contentType changed = (.ok report, final))
    (hsuccess : report.isSuccess = true) :
    ∃ n'', final.namespace? r.namespaceName = some n'' ∧ n''.ViewsFresh := by
  obtain ⟨types, refreshed, htypes, hrun, hdatabase⟩ := publish_ok h hsuccess
  obtain ⟨types', htypes', haffected⟩ := r.exists_affectedTypes depth hpublished
  obtain rfl := Except.ok.inj (htypes.symm.trans htypes')
  obtain ⟨n'', hn'', hviews, -⟩ := refreshEach_keeps_fresh hfree hown hk hviewed hfresh hpublished
    hchange hn' haffected (.refl _) hrun
  refine ⟨n'', ?_, hviews⟩
  unfold Store.namespace?
  rw [hdatabase]
  exact hn''

end

/-- After a change of one table and the refresh of the views that its publication lists, in any
order, all views are fresh again. Where views have names of their own, the others are as they were. -/
theorem publish_keeps_fresh {k depth : Nat} {changed : Store} (hfree : r.schema.CollisionFree)
    (hown : ∀ t ∈ r.schema.tables, r.schema.OwnFunction t) (hk : k ≤ depth)
    (hviewed : r.Viewed k n) (hfresh : n.ViewsFresh) (hpublished : published ∈ r.schema.allTables)
    (hchange : n.ChangedAt n' r.schema published) (hn' : changed.namespace? r.namespaceName = some n') :
    ∃ types, r.affectedTypes depth published.contentType = .ok types ∧
      ∀ concurrently jobs final, jobs.Perm (r.refreshJobs types) →
        refreshEach concurrently jobs changed = some final →
        ∃ n'', final.namespace? r.namespaceName = some n'' ∧ n''.ViewsFresh ∧
          ((r.viewDefs.map ViewDef.name).Nodup → ∀ contentType ∈ r.schema.contentTypes,
            contentType ∉ types → ∀ d ∈ r.typeViews contentType,
              n''.views.get? d.name.name = n.views.get? d.name.name) := by
  obtain ⟨types, htypes, haffected⟩ := r.exists_affectedTypes depth hpublished
  exact ⟨types, htypes, fun _ _ _ => refreshEach_keeps_fresh hfree hown hk hviewed hfresh hpublished
    hchange hn' haffected⟩

end Replica

namespace Catalog

/-- The catalog with its views. -/
def viewed : Store := (replica.createViews queries.2).2

/-- The statement that brings a tag into its table. -/
def tagStatement : Statement :=
  .upsert ⟨namespaceName, tagTable.name⟩ tagTable.columns
    (match mapping.entryRows (tag "t1" "red") with
      | .ok r => r.rows
      | .error _ => []) Column.id

/-- The catalog with its views and a tag. -/
def retagged : Store := (viewed.execute [tagStatement]).2

/-- The refreshes that the publication of the tags asks for, the last one first. -/
def tagJobs : List RefreshJob := (replica.refreshJobs ["product", "tag"]).reverse

end Catalog

/-- After the views of the products and tags were refreshed, the last one first, all views are fresh,
and those of the articles are as they were. -/
theorem Replica.publish_keeps_fresh_catalog :
    ∃ n final n', Catalog.viewed.namespace? Catalog.namespaceName = some n ∧
      refreshEach true Catalog.tagJobs Catalog.retagged = some final ∧
      final.namespace? Catalog.namespaceName = some n' ∧ n'.ViewsFresh ∧
      ∀ d ∈ Catalog.replica.typeViews "article",
        n'.views.get? d.name.name = n.views.get? d.name.name := by
  obtain ⟨hcreateOk, hupsertOk, hrefreshOk⟩ :
      (Catalog.replica.createViews Catalog.queries.2).1.isOk = true ∧
        (Catalog.viewed.execute [Catalog.tagStatement]).1.isOk = true ∧
        (refreshEach true Catalog.tagJobs Catalog.retagged).isSome = true := by decide +kernel
  have hm : Mapping.of Catalog.schema Catalog.space = .ok Catalog.mapping := rfl
  obtain ⟨-, -, hwell⟩ := Mapping.wellFormed_of_ok hm (show Catalog.space.validate = .ok () from rfl)
    (.all Catalog.types rfl) Catalog.collisionFree
  obtain ⟨count, hcreate⟩ : ∃ count, Catalog.replica.createViews Catalog.queries.2
      = (.ok count, Catalog.viewed) := exists_of_fst_isOk hcreateOk
  obtain ⟨n, hn, hviewed, hfresh, -⟩ :=
    Catalog.synced_queries.viewed Catalog.collisionFree hm hwell hcreate
  -- The tag is brought into its table, and nothing else changes.
  have htag : Catalog.tagTable ∈ Catalog.schema.allTables := by decide +kernel
  obtain ⟨_, hexecute⟩ := exists_of_fst_isOk hupsertOk
  have happly := Database.applyAll_singleton.1 (Store.execute_ok hexecute).2.1
  obtain ⟨n₀, n₁, hn₀, hupsert, hdatabase⟩ := Database.update_eq_ok.1 happly
  obtain rfl := Option.some.inj (hn.symm.trans hn₀)
  obtain ⟨table, rfl⟩ := Namespace.upsert_eq_ok hupsert
  have hn₁ : Catalog.retagged.namespace? Catalog.namespaceName
      = some (n.withTable Catalog.tagTable.name table) := by
    unfold Store.namespace? Catalog.retagged
    rw [hdatabase]
    exact Database.get?_withNamespace_self ..
  obtain ⟨types, htypes, hrefresh⟩ := publish_keeps_fresh (r := Catalog.replica) (k := 1)
    Catalog.collisionFree
    (show ∀ t ∈ Catalog.schema.tables, Catalog.schema.OwnFunction t by decide +kernel)
    (Nat.le_refl 1) hviewed hfresh htag (.withTable Catalog.collisionFree htag n table) hn₁
  have hknown : Catalog.replica.affectedTypes 1 Catalog.tagTable.contentType
      = .ok ["product", "tag"] := by rfl
  obtain rfl := Except.ok.inj (htypes.symm.trans hknown)
  obtain ⟨final, hfinal⟩ := Option.isSome_iff_exists.1 hrefreshOk
  obtain ⟨n', hn', hfresh', hkept⟩ :=
    hrefresh true Catalog.tagJobs final (List.reverse_perm _) hfinal
  exact ⟨n, final, n', hn, hfinal, hn', hfresh',
    hkept (by decide +kernel) "article" (by decide +kernel) (by decide)⟩

end ContentReplica
