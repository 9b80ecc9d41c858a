import ContentReplica.Proofs.Query.Relations
import ContentReplica.Proofs.Store.Frame

/-!
# What a statement reads

A statement reads no namespace but those that it writes: on two databases that agree on these it is
refused for the same reason, or it leaves them in agreement there (`Database.apply_agrees`), and so is
a batch (`Database.applyAll_agrees`). Databases agree on a namespace when it is the same in both but
for the numbers of the refreshes of its views (`Namespace.unstamped`), which are counted over all
namespaces.
-/

namespace ContentReplica

/-! ## Namespaces without stamps -/

/-- A view without the number of its refresh. -/
def View.unstamped (v : View) : View := { v with refreshed := 0 }

namespace Namespace

variable {n n' : Namespace}

/-- The namespace with other views. -/
def withViews (n : Namespace) (views : SortedMap Ident View) : Namespace := { n with views := views }

/-- A namespace without the numbers of the refreshes of its views. -/
def unstamped (n : Namespace) : Namespace := n.withViews (n.views.mapValues fun _ v => v.unstamped)

@[simp] theorem tables_withViews (n : Namespace) (views : SortedMap Ident View) :
    (n.withViews views).tables = n.tables := rfl

@[simp] theorem table_withViews (n : Namespace) (views : SortedMap Ident View) (name : Ident) :
    (n.withViews views).table name = n.table name := rfl

@[simp] theorem table_unstamped (n : Namespace) (name : Ident) :
    n.unstamped.table name = n.table name := rfl

@[simp] theorem functions_unstamped (n : Namespace) : n.unstamped.functions = n.functions := rfl

@[simp] theorem get?_views_unstamped (n : Namespace) (name : Ident) :
    n.unstamped.views.get? name = (n.views.get? name).map View.unstamped :=
  SortedMap.get?_mapValues ..

/-- A view is there whatever its stamp. -/
@[simp] theorem contains_views_unstamped (n : Namespace) (name : Ident) :
    n.unstamped.views.contains name = n.views.contains name := by
  simp [SortedMap.contains]

/-- A view that is put in place loses its stamp with the others. -/
theorem unstamped_insert (n : Namespace) (name : Ident) (v : View) :
    (n.withViews (n.views.insert name v)).unstamped
      = n.unstamped.withViews (n.unstamped.views.insert name v.unstamped) := by
  have hviews : (n.views.insert name v).mapValues (fun _ v => v.unstamped)
      = (n.views.mapValues fun _ v => v.unstamped).insert name v.unstamped := by
    refine SortedMap.ext_get? fun key => ?_
    rw [SortedMap.get?_mapValues, SortedMap.get?_insert_eq, SortedMap.get?_insert_eq,
      SortedMap.get?_mapValues]
    split <;> rfl
  exact congrArg n.withViews hviews

/-- Two namespaces that differ in stamps differ in their views only. -/
theorem withViews_of_unstamped_eq (h : n.unstamped = n'.unstamped) : n' = n.withViews n'.views := by
  cases n
  cases n'
  simp only [unstamped, withViews, Namespace.mk.injEq] at h
  obtain ⟨rfl, rfl, rfl, -, rfl⟩ := h
  rfl

/-! ## Statements inside a namespace -/

/-- Deleting rows does not look at the views. -/
theorem deleteRows_withViews (n : Namespace) (views : SortedMap Ident View) (name : Ident)
    (p : Predicate) :
    (n.withViews views).deleteRows name p = (·.withViews views) <$> n.deleteRows name p := by
  simp only [deleteRows, table_withViews, map_bind]
  refine congrArg _ (funext fun table => ?_)
  refine foldlM_map (g := (·.withViews views)) (fun m link _ => ?_) (n.withTable name _)
  simp only [table_withViews, map_bind, map_pure]
  rfl

/-- A statement inside a namespace does not look at the views. -/
theorem apply_withViews (n : Namespace) (views : SortedMap Ident View) (s : Statement) :
    (n.withViews views).apply s = (·.withViews views) <$> n.apply s := by
  cases s with
  | createTable t =>
    change Except.ok ((n.withViews views).createTable t) = .ok ((n.createTable t).withViews views)
    by_cases hthere : n.tables.contains t.name.name = true
    · simp only [createTable, tables_withViews, hthere, if_true]
    · simp only [createTable, tables_withViews, hthere, Bool.false_eq_true, if_false]
      rfl
  | createIndex | createDeleteTrigger | saveSyncToken =>
    simp only [apply, createIndex, createTrigger, saveToken, table_withViews, map_bind, map_pure]
    rfl
  | createFunction plan =>
    simp only [apply, createFunction, checkPlan, table_withViews, map_bind, map_pure]
    rfl
  | upsert table columns rows conflict =>
    simp only [apply, upsert, table_withViews, map_bind]
    refine congrArg _ (funext fun t => congrArg _ (funext fun _ => ?_))
    split
    · rfl
    · simp only [map_bind, map_pure]
      rfl
  | insert table columns rows | copyIn table columns rows =>
    simp only [apply, insert, table_withViews, map_bind, map_pure]
    rfl
  | delete table p => exact deleteRows_withViews n views table.name p
  | _ => rfl

/-- The effect of a statement inside a namespace does not depend on stamps. -/
theorem apply_congr (h : n.unstamped = n'.unstamped) (s : Statement) :
    unstamped <$> n.apply s = unstamped <$> n'.apply s := by
  have hviews := congrArg Namespace.views h
  rw [withViews_of_unstamped_eq h, apply_withViews]
  cases hrun : n.apply s with
  | error fault => rfl
  | ok m =>
    -- the statement leaves the views, which are the same in both but for their stamps
    have hm : m.unstamped = (m.withViews n'.views).unstamped := by
      change m.withViews m.unstamped.views = m.withViews n'.unstamped.views
      rw [← hviews, show m.unstamped.views = n.unstamped.views from
        congrArg (fun views => views.mapValues fun _ v => v.unstamped) (apply_views hrun)]
    exact congrArg Except.ok hm

/-! ## Views -/

/-- The rows of a view do not depend on stamps. -/
theorem viewRows_unstamped (n : Namespace) (v : ViewDef) : n.unstamped.viewRows v = n.viewRows v := by
  unfold viewRows
  rw [functions_unstamped]
  cases n.functions.get? v.function.name with
  | none => rfl
  | some plan =>
    have hlocales : n.unstamped.table plan.locales.name = n.table plan.locales.name := rfl
    have hrelations : n.unstamped.AgreeOn n plan.root.relations := fun _ _ => rfl
    exact evaluate_congr hlocales hrelations v.locale

/-- Creating a view does not depend on stamps. -/
theorem createView_unstamped (n : Namespace) (v : ViewDef) (stamp : Nat) :
    unstamped <$> n.createView v stamp = n.unstamped.createView v 0 := by
  simp only [createView, contains_views_unstamped, viewRows_unstamped]
  split
  · rfl
  · simp only [map_bind, map_pure]
    exact congrArg _ (funext fun rows => congrArg Except.ok (unstamped_insert n v.name.name _))

/-- Refreshing a view does not depend on stamps. -/
theorem refreshView_unstamped (n : Namespace) (name : QualifiedName) (stamp : Nat) :
    unstamped <$> n.refreshView name stamp = n.unstamped.refreshView name 0 := by
  simp only [refreshView, get?_views_unstamped]
  cases n.views.get? name.name with
  | none => rfl
  | some view =>
    simp only [Option.map_some, map_bind, map_pure]
    rw [← viewRows_unstamped]
    exact congrArg _ (funext fun rows => congrArg Except.ok (unstamped_insert n name.name _))

end Namespace

/-! ## Databases that agree -/

namespace Database

variable {d d' : Database} {p : Ident → Prop} {ns : Ident}

/-- Two databases have the same namespaces under some names, but for the numbers of refreshes. -/
def AgreeOn (d d' : Database) (p : Ident → Prop) : Prop :=
  ∀ name, p name →
    (d.namespaces.get? name).map Namespace.unstamped
      = (d'.namespaces.get? name).map Namespace.unstamped

/-- The same namespaces agree. -/
theorem AgreeOn.of_eq (h : ∀ name, p name → d.namespaces.get? name = d'.namespaces.get? name) :
    d.AgreeOn d' p :=
  fun name hp => congrArg _ (h name hp)

/-- A namespace is there in both databases or in none. -/
theorem AgreeOn.cases (h : d.AgreeOn d' p) (hns : p ns) :
    (d.namespaces.get? ns = none ∧ d'.namespaces.get? ns = none) ∨
      ∃ n n', d.namespaces.get? ns = some n ∧ d'.namespaces.get? ns = some n' ∧
        n.unstamped = n'.unstamped := by
  have hname := h ns hns
  cases hn : d.namespaces.get? ns with
  | none =>
    rw [hn, Option.map_none, eq_comm, Option.map_eq_none_iff] at hname
    exact .inl ⟨rfl, hname⟩
  | some n =>
    rw [hn, Option.map_some, eq_comm, Option.map_eq_some_iff] at hname
    obtain ⟨n', hn', heq⟩ := hname
    exact .inr ⟨n, n', rfl, hn', heq.symm⟩

/-- Runs on two databases come to the same: they are refused for the same reason, or what they leave
agrees on some names. -/
inductive EndAlike (p : Ident → Prop) :
    Except StoreFault Database → Except StoreFault Database → Prop
  | refused (fault : StoreFault) : EndAlike p (.error fault) (.error fault)
  | done {d d' : Database} (h : d.AgreeOn d' p) : EndAlike p (.ok d) (.ok d')

/-- A namespace put in the same place in both keeps them in agreement. -/
theorem AgreeOn.withNamespace (h : d.AgreeOn d' p) {n n' : Namespace}
    (hn : n.unstamped = n'.unstamped) : (d.withNamespace ns n).AgreeOn (d'.withNamespace ns n') p := by
  intro name hp
  by_cases hname : name = ns
  · subst hname
    simp [hn]
  · rw [get?_withNamespace_of_ne _ _ hname, get?_withNamespace_of_ne _ _ hname]
    exact h name hp

/-- A change of one namespace comes to the same where the change does. -/
theorem AgreeOn.update {f f' : Namespace → Except StoreFault Namespace} (h : d.AgreeOn d' p)
    (hns : p ns)
    (hf : ∀ n n', n.unstamped = n'.unstamped →
      Namespace.unstamped <$> f n = Namespace.unstamped <$> f' n') :
    EndAlike p (d.update ns f) (d'.update ns f') := by
  rcases h.cases hns with ⟨hn, hn'⟩ | ⟨n, n', hn, hn', heq⟩
  · simp only [Database.update, Database.namespace, hn, hn']
    exact .refused _
  · have hrun := hf n n' heq
    rw [update_eq_map hn, update_eq_map hn']
    cases hfn : f n with
    | error fault =>
      cases hfn' : f' n' with
      | error fault' =>
        rw [hfn, hfn'] at hrun
        cases hrun
        exact .refused _
      | ok m' =>
        rw [hfn, hfn'] at hrun
        cases hrun
    | ok m =>
      cases hfn' : f' n' with
      | error fault =>
        rw [hfn, hfn'] at hrun
        cases hrun
      | ok m' =>
        rw [hfn, hfn'] at hrun
        exact .done (h.withNamespace (Except.ok.inj hrun))

/-! ## Promotions -/

/-- A promotion is refused without a shadow, also when the shadow is dropped as the retired namespace.
Otherwise the live name is given to the shadow, and the two other names are free. -/
theorem swap_cases (d : Database) (live shadow retired : Ident) :
    ((shadow = retired ∨ d.namespaces.get? shadow = none) ∧
      d.swap live shadow retired = .error (.noNamespace shadow.text)) ∨
    ∃ d', shadow ≠ retired ∧ (d.namespaces.get? shadow).isSome = true ∧
      d.swap live shadow retired = .ok d' ∧
      ∀ name, d'.namespaces.get? name =
        if name = retired then none
        else if name = live then d.namespaces.get? shadow
        else if name = shadow then none else d.namespaces.get? name := by
  have hget (d : Database) (ns name : Ident) (n : Namespace) :
      (d.withNamespace ns n).namespaces.get? name
        = if name = ns then some n else d.namespaces.get? name := SortedMap.get?_insert_eq ..
  have hdrop (d : Database) (ns name : Ident) :
      (d.dropNamespace ns).namespaces.get? name
        = if name = ns then none else d.namespaces.get? name := by
    split
    · next h => rw [h, get?_dropNamespace_self]
    · next h => exact get?_dropNamespace_of_ne d h
  by_cases hsame : shadow = retired
  · refine .inl ⟨.inl hsame, ?_⟩
    simp only [swap, hdrop, hsame, if_true]
  cases hshadow : d.namespaces.get? shadow with
  | none =>
    refine .inl ⟨.inr rfl, ?_⟩
    simp only [swap, hdrop, hsame, if_false, hshadow]
  | some promoted =>
    refine .inr ⟨_, hsame, rfl, swap_eq_ok.2 ⟨promoted, ?_, rfl⟩, fun name => ?_⟩
    · simp only [hdrop, hsame, if_false, hshadow]
    · by_cases hr : name = retired
      · split <;> simp [hr]
      · by_cases hl : name = live
        · subst hl
          split <;> simp [hdrop, hget, hr]
        · split <;> simp [hdrop, hget, hr, hl]

/-- A promotion comes to the same where its three names do. -/
theorem AgreeOn.swap {live shadow retired : Ident} (h : d.AgreeOn d' p) (hshadow : p shadow) :
    EndAlike p (d.swap live shadow retired) (d'.swap live shadow retired) := by
  have hsame := h shadow hshadow
  rcases d.swap_cases live shadow retired with ⟨hnone, hrun⟩ | ⟨e, hne, hsome, hrun, hget⟩ <;>
    rcases d'.swap_cases live shadow retired with ⟨hnone', hrun'⟩ | ⟨e', hne', hsome', hrun', hget'⟩
  · rw [hrun, hrun']
    exact .refused _
  · -- the shadow is there in both or in none
    have hnone := hnone.resolve_left hne'
    rw [hnone, Option.map_none, eq_comm, Option.map_eq_none_iff] at hsame
    rw [hsame] at hsome'
    cases hsome'
  · have hnone' := hnone'.resolve_left hne
    rw [hnone', Option.map_none, Option.map_eq_none_iff] at hsame
    rw [hsame] at hsome
    cases hsome
  · rw [hrun, hrun']
    refine .done fun name hp => ?_
    rw [hget, hget']
    split
    · rfl
    · split
      · exact hsame
      · split
        · rfl
        · exact h name hp

/-! ## Statements and batches -/

/-- A statement comes to the same on two databases that agree on what it writes. -/
theorem apply_agrees {s : Statement} (h : d.AgreeOn d' p) (hs : ∀ name ∈ s.writes, p name) :
    EndAlike p (d.apply s) (d'.apply s) := by
  have htarget : p s.target := by
    refine hs _ ?_
    cases s <;> simp [Statement.writes, Statement.target]
  cases s with
  | createNamespace ns =>
    refine .done ?_
    have hthere : d.namespaces.contains ns = d'.namespaces.contains ns := by
      have := congrArg Option.isSome (h ns htarget)
      simpa [SortedMap.contains] using this
    rw [hthere]
    split
    · exact h
    · exact h.withNamespace rfl
  | dropNamespace ns =>
    refine .done fun name hp => ?_
    by_cases hname : name = ns
    · simp [hname]
    · rw [get?_dropNamespace_of_ne _ hname, get?_dropNamespace_of_ne _ hname]
      exact h name hp
  | swapNamespaces live shadow retired => exact h.swap (hs shadow (by simp [Statement.writes]))
  | createView v =>
    refine AgreeOn.update h htarget fun n n' heq => ?_
    rw [Namespace.createView_unstamped, Namespace.createView_unstamped, heq]
  | refreshView name concurrently =>
    refine AgreeOn.update h htarget fun n n' heq => ?_
    rw [Namespace.refreshView_unstamped, Namespace.refreshView_unstamped, heq]
  | createTable t => exact h.update htarget fun _ _ heq => Namespace.apply_congr heq (.createTable t)
  | createIndex i => exact h.update htarget fun _ _ heq => Namespace.apply_congr heq (.createIndex i)
  | createDeleteTrigger t =>
    exact h.update htarget fun _ _ heq => Namespace.apply_congr heq (.createDeleteTrigger t)
  | createFunction plan =>
    exact h.update htarget fun _ _ heq => Namespace.apply_congr heq (.createFunction plan)
  | upsert table columns rows conflict =>
    exact h.update htarget fun _ _ heq =>
      Namespace.apply_congr heq (.upsert table columns rows conflict)
  | insert table columns rows =>
    exact h.update htarget fun _ _ heq => Namespace.apply_congr heq (.insert table columns rows)
  | copyIn table columns rows =>
    exact h.update htarget fun _ _ heq => Namespace.apply_congr heq (.copyIn table columns rows)
  | delete table predicate =>
    exact h.update htarget fun _ _ heq => Namespace.apply_congr heq (.delete table predicate)
  | saveSyncToken ns token =>
    exact h.update htarget fun _ _ heq => Namespace.apply_congr heq (.saveSyncToken ns token)

/-- A batch comes to the same on two databases that agree on what it writes. -/
theorem applyAll_agrees {batch : List Statement} (h : d.AgreeOn d' p)
    (hbatch : ∀ s ∈ batch, ∀ name ∈ s.writes, p name) :
    EndAlike p (d.applyAll batch) (d'.applyAll batch) := by
  induction batch generalizing d d' with
  | nil => exact .done h
  | cons s batch ih =>
    obtain ⟨hs, hrest⟩ := List.forall_mem_cons.1 hbatch
    have hstep := apply_agrees h hs
    simp only [applyAll, List.foldlM_cons]
    generalize d.apply s = run at hstep ⊢
    generalize d'.apply s = run' at hstep ⊢
    cases hstep with
    | refused fault => exact .refused fault
    | done h₁ => exact ih h₁ hrest

/-- What the statements of a batch come to one after the other, up to the first that is refused. -/
def outcomes (d : Database) : List Statement → List (Except StoreFault Unit)
  | [] => []
  | s :: batch =>
    match d.apply s with
    | .ok d => .ok () :: d.outcomes batch
    | .error fault => [.error fault]

/-- The statements of a batch come to the same on two databases that agree on what they write. -/
theorem outcomes_agree {batch : List Statement} (h : d.AgreeOn d' p)
    (hbatch : ∀ s ∈ batch, ∀ name ∈ s.writes, p name) : d.outcomes batch = d'.outcomes batch := by
  induction batch generalizing d d' with
  | nil => rfl
  | cons s batch ih =>
    obtain ⟨hs, hrest⟩ := List.forall_mem_cons.1 hbatch
    have hstep := apply_agrees h hs
    simp only [outcomes]
    generalize d.apply s = run at hstep ⊢
    generalize d'.apply s = run' at hstep ⊢
    cases hstep with
    | refused fault => rfl
    | done h₁ => exact congrArg _ (ih h₁ hrest)

end Database

end ContentReplica
