import ContentReplica.Proofs.Store.Objects
import ContentReplica.Proofs.Views.Answers

/-!
# Query functions and views stay

A namespace can answer from a view that is there, and from a query function that is there with the
tables that its plan reads (`Namespace.Answers`): every call of them goes through
(`Database.call_isOk`). It loses no table, query function or view while it is neither dropped nor
promoted (`Namespace.Kept`, `Database.applyAll_kept`). Another function may take the place of a
function, but it is only created where its own tables are.
-/

namespace ContentReplica

/-! ## What a namespace can answer from -/

/-- The name of a query function or view. -/
def QuerySource.name : QuerySource → QualifiedName
  | function name | view name => name

namespace Namespace

variable {n n' n'' : Namespace} {plan : Plan} {source : QuerySource}

/-- The namespace can answer from a source: the view is there, or the query function with the tables
that its plan reads. -/
def Answers (n : Namespace) : QuerySource → Prop
  | .function name => ∃ plan, n.functions.get? name.name = some plan ∧ n.checkPlan plan = .ok ()
  | .view name => n.views.contains name.name = true

/-- A table stands where the namespace has one of its name. -/
theorem stands_iff {names : List Ident} :
    n.Stands names ↔ ∀ name ∈ names, n.tables.contains name = true := by
  refine forall₂_congr fun name _ => ?_
  unfold table
  rw [SortedMap.contains_eq_true]
  cases n.tables.get? name with
  | none => simp
  | some t => simp

/-- A plan passes its check where the tables that it reads stand. -/
theorem checkPlan_eq_ok :
    n.checkPlan plan = .ok () ↔ n.Stands (plan.locales.name :: plan.root.relations) := by
  unfold checkPlan
  rw [forM_eq_ok]
  refine forall₂_congr fun name _ => ?_
  rw [bind_eq_ok]
  exact exists_congr fun t => and_iff_left rfl

/-- A plan has rows in every locale where the tables that it reads stand, none in a locale that is not
in the table of locales. -/
theorem evaluate_isOk (h : n.checkPlan plan = .ok ()) (locale : String) :
    ∃ rows, n.evaluate plan locale = .ok rows := by
  have hstands := checkPlan_eq_ok.1 h
  obtain ⟨locales, hlocales⟩ := hstands _ (List.mem_cons_self ..)
  have hrelations : n.Stands plan.root.relations :=
    hstands.mono fun _ => List.mem_cons_of_mem _
  obtain ⟨t, ht⟩ : ∃ t, n.table plan.root.source.table.name = .ok t := by
    generalize plan.root = root at hrelations
    cases root
    exact hrelations _ (PlanNode.relations_mk .. ▸ List.mem_cons_self ..)
  obtain ⟨context?, hcontext⟩ : ∃ context?, n.localeContext? plan locale = .ok context? := by
    unfold localeContext?
    rw [hlocales]
    dsimp only [bind, Except.bind]
    split <;> exact ⟨_, rfl⟩
  cases context? with
  | none =>
    refine ⟨[], ?_⟩
    unfold evaluate
    rw [hcontext]
    rfl
  | some lc =>
    obtain ⟨rows, hrows, -⟩ := exists_evaluate hcontext hrelations ht
    exact ⟨rows, hrows⟩

/-! ## What stays -/

/-- A namespace and what it is later: no table, query function or view is lost. -/
structure Kept (n n' : Namespace) : Prop where
  tables : ∀ name, n.tables.contains name = true → n'.tables.contains name = true
  answers : ∀ source, n.Answers source → n'.Answers source

/-- Nothing was done. -/
theorem Kept.refl (n : Namespace) : n.Kept n := ⟨fun _ => id, fun _ => id⟩

/-- More was done. -/
theorem Kept.trans (h : n.Kept n') (h' : n'.Kept n'') : n.Kept n'' :=
  ⟨fun name hn => h'.tables name (h.tables name hn),
    fun source hn => h'.answers source (h.answers source hn)⟩

/-- A plan that passes its check passes it where no table was lost. -/
theorem checkPlan_of_tables (h : n.checkPlan plan = .ok ())
    (htables : ∀ name, n.tables.contains name = true → n'.tables.contains name = true) :
    n'.checkPlan plan = .ok () :=
  checkPlan_eq_ok.2 <| stands_iff.2 fun name hname =>
    htables name (stands_iff.1 (checkPlan_eq_ok.1 h) name hname)

/-- A change keeps what there is if it loses no table or view, and new functions find their tables. -/
theorem Kept.of_functions
    (htables : ∀ name, n.tables.contains name = true → n'.tables.contains name = true)
    (hviews : ∀ name, n.views.contains name = true → n'.views.contains name = true)
    (hfunctions : ∀ name, n'.functions.get? name = n.functions.get? name ∨
      ∃ plan, n'.functions.get? name = some plan ∧ n.checkPlan plan = .ok ()) : n.Kept n' := by
  refine ⟨htables, fun source h => ?_⟩
  cases source with
  | view name => exact hviews _ h
  | function name =>
    obtain ⟨plan, hplan, hcheck⟩ := h
    rcases hfunctions name.name with hsame | ⟨plan', hplan', hcheck'⟩
    · exact ⟨plan, hsame.trans hplan, checkPlan_of_tables hcheck htables⟩
    · exact ⟨plan', hplan', checkPlan_of_tables hcheck' htables⟩

/-- Deleting rows leaves the functions. -/
theorem deleteRows_functions {name : Ident} {p : Predicate} (h : n.deleteRows name p = .ok n') :
    n'.functions = n.functions := by
  obtain ⟨table, -, h⟩ := bind_eq_ok.1 h
  refine foldlM_preserves (P := fun n' => n'.functions = n.functions)
    (fun n₁ link n₂ _ hn₁ hstep => ?_) rfl h
  obtain ⟨edges, -, hstep⟩ := bind_eq_ok.1 hstep
  obtain rfl := pure_eq_ok.1 hstep
  exact hn₁

/-- A statement inside a namespace leaves its functions, or it creates one that finds its tables. -/
theorem apply_functions {s : Statement} (h : n.apply s = .ok n') : n'.functions = n.functions ∨
    ∃ plan, n.checkPlan plan = .ok () ∧
      n'.functions = n.functions.insert plan.function.name plan := by
  cases s with
  | createFunction plan =>
    obtain ⟨hcheck, rfl⟩ := createFunction_eq_ok.1 h
    exact .inr ⟨plan, hcheck, rfl⟩
  | createTable t =>
    obtain rfl := Except.ok.inj h
    unfold createTable
    split <;> exact .inl rfl
  | createIndex i =>
    obtain ⟨table, -, h⟩ := bind_eq_ok.1 h
    obtain ⟨_, -, h⟩ := bind_eq_ok.1 h
    exact .inl (pure_eq_ok.1 h ▸ rfl)
  | createDeleteTrigger t =>
    obtain ⟨_, -, h⟩ := bind_eq_ok.1 h
    exact .inl (pure_eq_ok.1 h ▸ rfl)
  | upsert table columns rows conflict =>
    obtain ⟨t, rfl⟩ := upsert_eq_ok h
    exact .inl rfl
  | insert table columns rows | copyIn table columns rows =>
    obtain ⟨t, -, h⟩ := bind_eq_ok.1 h
    obtain ⟨_, -, h⟩ := bind_eq_ok.1 h
    obtain ⟨t', -, h⟩ := bind_eq_ok.1 h
    exact .inl (pure_eq_ok.1 h ▸ rfl)
  | delete table predicate => exact .inl (deleteRows_functions h)
  | saveSyncToken name token =>
    obtain ⟨t, -, h⟩ := bind_eq_ok.1 h
    exact .inl (pure_eq_ok.1 h ▸ rfl)
  | createNamespace | dropNamespace | swapNamespaces | createView | refreshView =>
    exact .inl (Except.ok.inj h ▸ rfl)

/-- A statement inside a namespace keeps what there is. -/
theorem apply_kept {s : Statement} (h : n.apply s = .ok n') : n.Kept n' := by
  refine .of_functions (fun name hn => (apply_tables h).2 (.inl hn))
    (fun name hn => (apply_views h).symm ▸ hn) fun name => ?_
  rcases apply_functions h with hsame | ⟨plan, hcheck, hinsert⟩
  · exact .inl (by rw [hsame])
  · rw [hinsert, SortedMap.get?_insert_eq]
    split
    · exact .inr ⟨plan, rfl, hcheck⟩
    · exact .inl rfl

/-- Statements inside a namespace keep what there is. -/
theorem applyAll_kept {batch : List Statement} (h : n.applyAll batch = .ok n') : n.Kept n' :=
  foldlM_preserves (P := n.Kept) (fun _ _ _ _ hn hstep => hn.trans (apply_kept hstep)) (.refl n) h

/-- Creating a view keeps what there is. -/
theorem createView_kept {v : ViewDef} {stamp : Nat} (h : n.createView v stamp = .ok n') :
    n.Kept n' := by
  obtain ⟨htables, hfunctions, -, hcontains⟩ := createView_ok h
  exact .of_functions (fun _ hn => htables ▸ hn) (fun name hn => (hcontains name).2 (.inl hn))
    fun _ => .inl (by rw [hfunctions])

/-- Refreshing a view keeps what there is. -/
theorem refreshView_kept {name : QualifiedName} {stamp : Nat}
    (h : n.refreshView name stamp = .ok n') : n.Kept n' := by
  obtain ⟨v, rows, -, -, rfl⟩ := refreshView_ok h
  refine .of_functions (fun _ => id) (fun other hn => ?_) fun _ => .inl rfl
  rw [SortedMap.contains_eq_true, SortedMap.get?_insert_eq]
  split
  · exact ⟨_, rfl⟩
  · exact SortedMap.contains_eq_true.1 hn

end Namespace

/-! ## Statements that keep a namespace -/

namespace Statement

/-- The statement neither drops nor promotes the given namespace. -/
def Keeps (ns : Ident) : Statement → Prop
  | dropNamespace name => name ≠ ns
  | swapNamespaces live shadow retired => ns ∉ [live, shadow, retired]
  | _ => True

/-- The query function or view that a statement creates. -/
def createdSource? : Statement → Option QuerySource
  | createFunction plan => some (.function plan.function)
  | createView v => some (.view v.name)
  | _ => none

end Statement

namespace Database

variable {d d' : Database} {ns : Ident} {n : Namespace} {s : Statement} {batch : List Statement}
  {source : QuerySource}

/-- The namespace of a source can answer from it. -/
def Answers (d : Database) (source : QuerySource) : Prop :=
  ∃ n, d.namespaces.get? source.name.namespaceName = some n ∧ n.Answers source

/-- A change of a namespace that keeps what there is keeps it in the database. -/
theorem update_kept {f : Namespace → Except StoreFault Namespace} (h : d.update ns f = .ok d')
    (hn : d.namespaces.get? ns = some n) (hkept : ∀ n', f n = .ok n' → n.Kept n') :
    ∃ n', d'.namespaces.get? ns = some n' ∧ n.Kept n' := by
  obtain ⟨n₀, n', hn₀, hstep, rfl⟩ := update_eq_ok.1 h
  obtain rfl := Option.some.inj (hn.symm.trans hn₀)
  exact ⟨n', get?_withNamespace_self .., hkept n' hstep⟩

/-- A statement keeps what there is in a namespace that it neither drops nor promotes. -/
theorem apply_kept (hn : d.namespaces.get? ns = some n) (hs : s.Keeps ns)
    (h : d.apply s = .ok d') : ∃ n', d'.namespaces.get? ns = some n' ∧ n.Kept n' := by
  by_cases hwrites : ns ∈ s.writes
  case neg => exact ⟨n, (apply_frame h hwrites).trans hn, .refl n⟩
  by_cases hlocal : s.isLocal = true
  · have htarget : ns ∈ [s.target] := Statement.InNamespace.writes ⟨hlocal, rfl⟩ ▸ hwrites
    rw [apply_local hn ⟨hlocal, (List.mem_singleton.1 htarget).symm⟩] at h
    obtain ⟨n', hstep, rfl⟩ := map_eq_ok.1 h
    exact ⟨n', get?_withNamespace_self .., Namespace.apply_kept hstep⟩
  · cases s with
    | createNamespace name =>
      obtain rfl := List.mem_singleton.1 hwrites
      rw [apply, Except.ok.injEq, if_pos (SortedMap.contains_eq_true.2 ⟨n, hn⟩)] at h
      exact ⟨n, h ▸ hn, .refl n⟩
    | dropNamespace name => exact absurd (List.mem_singleton.1 hwrites).symm hs
    | swapNamespaces live shadow retired => exact absurd hwrites hs
    | createView v =>
      obtain rfl := List.mem_singleton.1 hwrites
      exact update_kept h hn fun n' => Namespace.createView_kept
    | refreshView name concurrently =>
      obtain rfl := List.mem_singleton.1 hwrites
      exact update_kept h hn fun n' => Namespace.refreshView_kept
    | _ => exact absurd rfl hlocal

/-- A batch keeps what there is in a namespace that it neither drops nor promotes. -/
theorem applyAll_kept (hn : d.namespaces.get? ns = some n) (hb : ∀ s ∈ batch, s.Keeps ns)
    (h : d.applyAll batch = .ok d') : ∃ n', d'.namespaces.get? ns = some n' ∧ n.Kept n' :=
  foldlM_preserves (P := fun d => ∃ n', d.namespaces.get? ns = some n' ∧ n.Kept n')
    (fun _ s _ hs ⟨_, hn₁, hkept⟩ hstep => by
      obtain ⟨n', hn', hkept'⟩ := apply_kept hn₁ (hb s hs) hstep
      exact ⟨n', hn', hkept.trans hkept'⟩) ⟨n, hn, .refl n⟩ h

/-- A database in which a namespace keeps what there is keeps its sources. -/
theorem Answers.of_kept (h : d.Answers source)
    (hkept : ∀ n, d.namespaces.get? source.name.namespaceName = some n →
      ∃ n', d'.namespaces.get? source.name.namespaceName = some n' ∧ n.Kept n') :
    d'.Answers source := by
  obtain ⟨n, hn, h⟩ := h
  obtain ⟨n', hn', hkept⟩ := hkept n hn
  exact ⟨n', hn', hkept.answers source h⟩

/-- A query function or view that was created can answer. -/
theorem apply_answers (hs : s.createdSource? = some source) (h : d.apply s = .ok d') :
    d'.Answers source := by
  cases s with
  | createFunction plan =>
    obtain rfl := Option.some.inj hs
    obtain ⟨n, n', -, hcreate, rfl⟩ := update_eq_ok.1 h
    obtain ⟨hcheck, rfl⟩ := Namespace.createFunction_eq_ok.1 hcreate
    exact ⟨_, get?_withNamespace_self .., plan, SortedMap.get?_insert_self .., hcheck⟩
  | createView v =>
    obtain rfl := Option.some.inj hs
    obtain ⟨n, n', -, hcreate, rfl⟩ := update_eq_ok.1 h
    obtain ⟨-, -, -, hcontains⟩ := Namespace.createView_ok hcreate
    exact ⟨n', get?_withNamespace_self .., (hcontains _).2 (.inr rfl)⟩
  | _ => cases hs

/-- What a batch created can answer if the batch neither drops nor promotes the namespace. -/
theorem applyAll_answers (hs : s ∈ batch) (hsource : s.createdSource? = some source)
    (hb : ∀ s ∈ batch, s.Keeps source.name.namespaceName) (h : d.applyAll batch = .ok d') :
    d'.Answers source := by
  obtain ⟨before, after, rfl⟩ := List.append_of_mem hs
  obtain ⟨d₁, -, hrest⟩ := applyAll_append.1 h
  obtain ⟨d₂, hstep, hafter⟩ := bind_eq_ok.1 hrest
  refine (apply_answers hsource hstep).of_kept fun n hn => applyAll_kept hn (fun s hs => ?_) hafter
  exact hb s (List.mem_append_right _ (List.mem_cons_of_mem _ hs))

/-- A call goes through where its source can answer. -/
theorem call_isOk {c : QueryCall} (h : d.Answers c.source) : ∃ page, d.call c = .ok page := by
  suffices hrows : ∃ rows, d.callRows c = .ok rows by
    obtain ⟨rows, hrows⟩ := hrows
    exact ⟨_, bind_eq_ok.2 ⟨rows, hrows, rfl⟩⟩
  obtain ⟨n, hn, h⟩ := h
  unfold callRows
  cases hsource : c.source with
  | function name =>
    rw [hsource] at hn h
    obtain ⟨plan, hplan, hcheck⟩ := h
    obtain ⟨rows, hrows⟩ := Namespace.evaluate_isOk hcheck c.locale
    refine ⟨rows, bind_eq_ok.2 ⟨n, namespace_eq_ok.2 hn, ?_⟩⟩
    rw [hplan]
    exact hrows
  | view name =>
    rw [hsource] at hn h
    obtain ⟨v, hv⟩ := SortedMap.contains_eq_true.1 h
    refine ⟨v.rows, bind_eq_ok.2 ⟨n, namespace_eq_ok.2 hn, ?_⟩⟩
    rw [hv]
    rfl

end Database

end ContentReplica
