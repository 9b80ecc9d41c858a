import ContentReplica.Plan.Generator
import ContentReplica.Proofs.Query.Locales

/-!
# The query functions of a schema

A schema is set up with one query function for each content type. The name of a function is that of
the table with a mark in front, shortened if it grows too long, so a long name may be that of another
table's function too, which then takes its place. A table whose function has a name of its own
(`Schema.OwnFunction`) is answered by its own plan (`Schema.applyAll_setUp`).
-/

namespace ContentReplica

/-- No other table has a query function of the same name. -/
def Schema.OwnFunction (s : Schema) (t : TableLayout) : Prop :=
  ∀ t' ∈ s.tables, Naming.function t'.name = Naming.function t.name → t' = t

instance (s : Schema) (t : TableLayout) : Decidable (s.OwnFunction t) :=
  inferInstanceAs (Decidable (∀ t' ∈ s.tables, _ → _))

/-- Two tables whose functions have one name: that of the first ends in a digest. -/
example : Naming.function ⟨"aaaaaaaaaaaaaaaaaaaaaaaaaaaaaaaaaaaaaaaaaaaaaaaaaaaaaaaaaaaaaaa"⟩
    = Naming.function ⟨"aaaaaaaaaaaaaaaaaaaaaaaaaaaaaaaaaaaaaaaaaaaaaaaaaaaa_bc15beee"⟩ := by
  decide +kernel

section
variable {s : Schema} {ns : Ident} {depth : Nat}

/-- Creating a function changes the functions alone. -/
theorem Namespace.createFunction_eq_ok {n n' : Namespace} {plan : Plan} :
    n.createFunction plan = .ok n' ↔
      n.checkPlan plan = .ok () ∧
        n' = { n with functions := n.functions.insert plan.function.name plan } := by
  unfold createFunction
  rw [bind_eq_ok]
  exact ⟨fun ⟨_, hcheck, h⟩ => ⟨hcheck, (pure_eq_ok.1 h).symm⟩, fun ⟨hcheck, h⟩ =>
    ⟨(), hcheck, pure_eq_ok.2 h.symm⟩⟩

/-- After the functions of some tables were created, a table has its own if no later one took its
place. -/
theorem Namespace.applyAll_createFunctions :
    ∀ {tables : List TableLayout} {n n' : Namespace},
      n.applyAll (tables.map fun t => .createFunction (s.planOf ns depth t)) = .ok n' →
      n' = { n with functions := n'.functions } ∧
        ∀ t, (∀ t' ∈ tables, Naming.function t'.name = Naming.function t.name → t' = t) →
          t ∈ tables ∨ n.functions.get? (Naming.function t.name) = some (s.planOf ns depth t) →
          n'.functions.get? (Naming.function t.name) = some (s.planOf ns depth t) := by
  intro tables
  induction tables with
  | nil =>
    intro n n' h
    obtain rfl := pure_eq_ok.1 h
    exact ⟨rfl, fun t _ ht => ht.resolve_left List.not_mem_nil⟩
  | cons first tables ih =>
    intro n n' h
    obtain ⟨n₁, hfirst, hrest⟩ := Namespace.applyAll_cons.1 h
    obtain ⟨-, rfl⟩ := createFunction_eq_ok.1 hfirst
    obtain ⟨hframe, hfunctions⟩ := ih hrest
    refine ⟨hframe, fun t hown ht => ?_⟩
    obtain ⟨hfirstOwn, hown⟩ := List.forall_mem_cons.1 hown
    refine hfunctions t hown ?_
    have hget := SortedMap.get?_insert_eq n.functions (Naming.function first.name)
      (Naming.function t.name) (s.planOf ns depth first)
    by_cases he : Naming.function first.name = Naming.function t.name
    · obtain rfl := hfirstOwn he
      rw [if_pos rfl] at hget
      exact .inr hget
    · rw [if_neg (Ne.symm he)] at hget
      rcases ht with ht | ht
      · rcases List.mem_cons.1 ht with rfl | ht
        · exact absurd rfl he
        · exact .inl ht
      · exact .inr (hget.trans ht)

/-- The statements that create the functions stay inside the namespace. -/
theorem Schema.functionStatements_local :
    ∀ statement ∈ s.functionStatements ns depth, statement.InNamespace ns := by
  intro statement h
  obtain ⟨plan, hplan, rfl⟩ := List.mem_map.1 h
  obtain ⟨t, -, rfl⟩ := List.mem_map.1 hplan
  exact ⟨rfl, rfl⟩

/-- What a namespace has that was set up for a schema: its tables, the locales of the space, and the
query function of each table whose function has a name of its own. It has no views yet. -/
structure Schema.SetUp (s : Schema) (space : Space) (ns : Ident) (depth : Nat) (n : Namespace) :
    Prop where
  installed : s.Installed n
  locales : n.HasLocales space
  functions : ∀ t ∈ s.tables, s.OwnFunction t →
    n.functions.get? (Naming.function t.name) = some (s.planOf ns depth t)
  views : n.views = .empty

/-- A schema is set up with its functions in a namespace that does not exist yet. -/
theorem Schema.applyAll_setUp (hfree : s.CollisionFree) {space : Space} {ddl : List Statement}
    (hddl : s.ddl ns space = .ok ddl) {d d' : Database} (hns : d.namespaces.get? ns = none)
    (hrun : d.applyAll (ddl ++ s.functionStatements ns depth) = .ok d') :
    ∃ n, d'.namespaces.get? ns = some n ∧ s.SetUp space ns depth n := by
  obtain ⟨d₁, hfirst, hrest⟩ := Database.applyAll_append.1 hrun
  obtain ⟨base, hbase, hinstalled, hlocales, hviews⟩ := applyAll_ddl_locales hfree hddl hns
  obtain rfl := Except.ok.inj (hbase.symm.trans hfirst)
  rw [Database.applyAll_local (Database.get?_withNamespace_self ..) functionStatements_local]
    at hrest
  obtain ⟨n, hfunctions, rfl⟩ := map_eq_ok.1 hrest
  refine ⟨n, Database.get?_withNamespace_self .., ?_⟩
  have hcreated : base.applyAll (s.tables.map fun t => .createFunction (s.planOf ns depth t))
      = .ok n := by
    rw [← hfunctions, functionStatements, plans, List.map_map]
    rfl
  obtain ⟨hframe, hfunctions⟩ := Namespace.applyAll_createFunctions hcreated
  have htables : n.tables = base.tables := by rw [hframe]
  have htriggers : n.triggers = base.triggers := by rw [hframe]
  refine ⟨⟨fun name columns hx => ?_, ?_, fun t ht => ?_, fun l hl => ?_⟩, ?_, fun t ht hown =>
    hfunctions t hown (.inl ht), (Namespace.applyAll_views hcreated).trans hviews⟩
  · rw [htables]
    exact hinstalled.tables name columns hx
  · rw [htables]
    exact hinstalled.token
  · rw [htriggers]
    exact hinstalled.triggers t ht
  · rw [htriggers]
    exact hinstalled.noTriggers l hl
  · unfold Namespace.HasLocales
    rw [htables]
    exact hlocales

end

end ContentReplica
