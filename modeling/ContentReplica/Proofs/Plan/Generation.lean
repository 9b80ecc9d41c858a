import ContentReplica.Proofs.Plan.Nodes
import ContentReplica.Proofs.Query.Sources
import ContentReplica.Proofs.Schema.Installation

/-!
# Generated plans

The references between content types may run in circles; the levels that are left bound how often a
plan follows them. Every content type with a table has a plan (`Schema.plan_generated`):

* each node reads its table field by field, and a link embeds its target exactly where a level is left
  and the target has a table (`Schema.readBy_planField`);
* a node is marked as localized exactly if a field in it or below it is
  (`Schema.hasLocalized_planNode_iff`), so a lookup by locale that the mark switches off would have
  found nothing else;
* the tables that it consults are among those that the statements of the schema create
  (`Schema.checkPlan_of_ddl`), so the query function can be created there, also after other statements.
-/

namespace ContentReplica

/-! ## Trees -/

namespace PlanNode

variable {node root : PlanNode}

/-- A node reads a localized field of its own. -/
def ReadsLocalized (node : PlanNode) : Prop := ∃ p ∈ node.fields, p.column.localized = true

/-- The nodes of a tree are its root and those of the trees of its children. -/
theorem mem_subtree_iff_children : node ∈ root.subtree ↔
    node = root ∨ ∃ child ∈ root.children, node ∈ child.subtree := by
  rw [mem_subtree]
  refine or_congr_right ⟨?_, ?_⟩
  · rintro ⟨p, hp, child, hchild, hnode⟩
    exact ⟨child, List.mem_filterMap.2 ⟨p, hp, hchild⟩, hnode⟩
  · rintro ⟨child, hmem, hnode⟩
    obtain ⟨p, hp, hchild⟩ := List.mem_filterMap.1 hmem
    exact ⟨p, hp, child, hchild, hnode⟩

/-- A tree is as deep as a bound allows that holds for each of its nodes. -/
theorem maxDepth_le {bound : Nat} (h : ∀ node ∈ root.subtree, node.source.depth ≤ bound) :
    root.maxDepth ≤ bound :=
  List.foldlRecOn (motive := (· ≤ bound)) root.subtree _ (Nat.zero_le bound)
    fun _ hd node hnode => Nat.max_le.2 ⟨hd, h node hnode⟩

end PlanNode

namespace Schema

variable {s : Schema} {ns : Ident} {remaining depth : Nat} {t : TableLayout}

/-! ## Fields -/

/-- The target of a link has a table: it is a compiled content type, or the table of assets. -/
def HasTable (s : Schema) : LinkTarget → Prop
  | .contentType id => id ∈ s.contentTypes
  | .asset => True
  | .unresolved _ => False

instance (s : Schema) : DecidablePred s.HasTable
  | .contentType id => inferInstanceAs (Decidable (id ∈ s.contentTypes))
  | .asset => isTrue trivial
  | .unresolved _ => isFalse not_false

/-- What a link of a node at some depth shows where `reach` levels of links are followed: the document of
its target, one level deeper, if the level is followed and the target has a table, and otherwise the
identity of the target. -/
def LinkShows (s : Schema) (reach depth : Nat) (target : LinkTarget) (shown : LinkPlan) : Prop :=
  if depth < reach ∧ s.HasTable target then
    ∃ child, shown = .expand child ∧ target.node? = some child.source.contentType ∧
      child.source.depth = depth + 1
  else shown = .stub

/-- How a node at some depth reads a field of its table. -/
def ReadBy (s : Schema) (ns : Ident) (reach depth : Nat) (f : FieldLayout) (p : PlanField) : Prop :=
  p.column = ⟨f.fieldId, f.column, f.localized⟩ ∧
    match f.placement with
    | .value type => p = .value p.column type
    | .link target => ∃ shown, p = .link p.column shown ∧ s.LinkShows reach depth target shown
    | .links table target =>
      ∃ shown, p = .links p.column ⟨ns, table⟩ shown ∧ s.LinkShows reach depth target shown

/-- The table of a target is found if it has one, and holds the records that the target names. -/
theorem targetTable?_cases (s : Schema) (target : LinkTarget) :
    (s.HasTable target ∧
        ∃ t, s.targetTable? target = some t ∧ target.node? = some t.contentType) ∨
      (¬ s.HasTable target ∧ s.targetTable? target = none) := by
  cases target with
  | contentType id =>
    change (id ∈ s.contentTypes ∧ ∃ t, s.entryTable? id = some t ∧ some id = some t.contentType) ∨
      (id ∉ s.contentTypes ∧ s.entryTable? id = none)
    cases hfound : s.entryTable? id with
    | some t =>
      obtain ⟨ht, rfl⟩ := entryTable?_eq_some hfound
      exact .inl ⟨List.mem_map_of_mem ht, t, rfl, rfl⟩
    | none =>
      refine .inr ⟨fun hid => ?_, rfl⟩
      obtain ⟨t, ht, rfl⟩ := List.mem_map.1 hid
      exact List.find?_eq_none.1 hfound t ht (decide_eq_true rfl)
  | asset => exact .inl ⟨trivial, assetLayout, rfl, rfl⟩
  | unresolved reason => exact .inr ⟨not_false, rfl⟩

/-- A link shows its target's document exactly where a level is left and the target has a table. -/
theorem linkShows_linkPlan (target : LinkTarget) :
    s.LinkShows (remaining + depth) depth target (s.linkPlan ns depth target remaining) := by
  unfold LinkShows
  cases remaining with
  | zero => rw [if_neg (by omega), linkPlan]
  | succ k =>
    rw [linkPlan]
    rcases s.targetTable?_cases target with ⟨hhas, t, ht, hnode⟩ | ⟨hhas, hnone⟩
    · rw [if_pos ⟨by omega, hhas⟩, ht]
      refine ⟨_, rfl, ?_, ?_⟩
      · rw [planNode_source, hnode]
      · rw [planNode_source]
    · rw [if_neg fun h => hhas h.2, hnone]

/-- A field of a table is read as its placement asks. -/
theorem readBy_planField (f : FieldLayout) :
    s.ReadBy ns (remaining + depth) depth f (s.planField ns remaining depth f) := by
  unfold ReadBy planField
  cases f.placement with
  | value type => exact ⟨rfl, rfl⟩
  | link target => exact ⟨rfl, _, rfl, linkShows_linkPlan target⟩
  | links table target => exact ⟨rfl, _, rfl, linkShows_linkPlan target⟩

/-- The children of a node are the nodes of the tables of its links, with one level less to follow. -/
theorem mem_children_planNode {child : PlanNode} :
    child ∈ (s.planNode ns remaining depth t).children ↔
      ∃ k, remaining = k + 1 ∧ ∃ f ∈ t.fields, ∃ target, f.target? = some target ∧
        ∃ table, s.targetTable? target = some table ∧ child = s.planNode ns k (depth + 1) table := by
  rw [PlanNode.children, planNode_fields, List.filterMap_map, List.mem_filterMap]
  constructor
  · rintro ⟨f, hf, hchild⟩
    obtain ⟨k, target, table, hk, htarget, htable, rfl⟩ := child?_planField.1 hchild
    exact ⟨k, hk, f, hf, target, htarget, table, htable, rfl⟩
  · rintro ⟨k, hk, f, hf, target, htarget, table, htable, rfl⟩
    exact ⟨f, hf, child?_planField.2 ⟨k, target, table, hk, htarget, htable, rfl⟩⟩

/-! ## Localized fields -/

/-- A node is marked if a field of its own is localized, or if one of its children is marked. -/
theorem hasLocalized_planNode_iff_children :
    (s.planNode ns remaining depth t).hasLocalized = true ↔
      (s.planNode ns remaining depth t).ReadsLocalized ∨
        ∃ child ∈ (s.planNode ns remaining depth t).children, child.hasLocalized = true := by
  have hmark : (s.planNode ns remaining depth t).hasLocalized
      = (t.hasLocalized || (s.planNode ns remaining depth t).fields.any fieldLocalized) := by
    cases remaining <;> rfl
  rw [hmark, Bool.or_eq_true]
  refine or_congr ?_ ?_
  · have hcolumn (f : FieldLayout) :
        (s.planField ns remaining depth f).column.localized = f.localized := by
      rw [(readBy_planField f).1]
    unfold PlanNode.ReadsLocalized TableLayout.hasLocalized
    rw [planNode_fields, List.any_eq_true]
    simp only [List.mem_map, exists_exists_and_eq_and, hcolumn]
  · have hfield (p : PlanField) :
        fieldLocalized p = true ↔ ∃ child, p.child? = some child ∧ child.hasLocalized = true := by
      unfold fieldLocalized
      cases p.child? <;> simp
    rw [List.any_eq_true, PlanNode.children]
    simp only [hfield, List.mem_filterMap]
    constructor
    · rintro ⟨p, hp, child, hchild, hlocalized⟩
      exact ⟨child, ⟨p, hp, hchild⟩, hlocalized⟩
    · rintro ⟨child, ⟨p, hp, hchild⟩, hlocalized⟩
      exact ⟨p, hp, child, hchild, hlocalized⟩

/-- A node is marked as its tree asks if its children are. -/
theorem hasLocalized_planNode_of_children
    (h : ∀ child ∈ (s.planNode ns remaining depth t).children,
      (child.hasLocalized = true ↔ ∃ node ∈ child.subtree, node.ReadsLocalized)) :
    (s.planNode ns remaining depth t).hasLocalized = true ↔
      ∃ node ∈ (s.planNode ns remaining depth t).subtree, node.ReadsLocalized := by
  rw [hasLocalized_planNode_iff_children]
  constructor
  · rintro (hown | ⟨child, hmem, hmark⟩)
    · exact ⟨_, PlanNode.mem_subtree_iff_children.2 (.inl rfl), hown⟩
    · obtain ⟨node, hnode, hlocalized⟩ := (h child hmem).1 hmark
      exact ⟨node, PlanNode.mem_subtree_iff_children.2 (.inr ⟨child, hmem, hnode⟩), hlocalized⟩
  · rintro ⟨node, hnode, hlocalized⟩
    rcases PlanNode.mem_subtree_iff_children.1 hnode with rfl | ⟨child, hmem, hnode⟩
    · exact .inl hlocalized
    · exact .inr ⟨child, hmem, (h child hmem).2 ⟨node, hnode, hlocalized⟩⟩

/-- A node is marked exactly if a node of its tree reads a localized field. -/
theorem hasLocalized_planNode_iff (s : Schema) (ns : Ident) (remaining depth : Nat) (t : TableLayout) :
    (s.planNode ns remaining depth t).hasLocalized = true ↔
      ∃ node ∈ (s.planNode ns remaining depth t).subtree, node.ReadsLocalized := by
  -- The marks are set from the leaves up, so the induction is on the levels that are left.
  induction remaining generalizing depth t with
  | zero =>
    refine hasLocalized_planNode_of_children fun child hmem => ?_
    obtain ⟨k, hk, -⟩ := mem_children_planNode.1 hmem
    cases hk
  | succ k ih =>
    refine hasLocalized_planNode_of_children fun child hmem => ?_
    obtain ⟨k', hk, f, -, target, -, table, -, rfl⟩ := mem_children_planNode.1 hmem
    obtain rfl := Nat.succ.inj hk
    exact ih (depth + 1) table

/-- A lookup by locale finds the same whether a node is marked or not, if a node with a localized field of
its own is. -/
theorem resolveValue_gate {node : PlanNode}
    (hmark : node.ReadsLocalized → node.hasLocalized = true) (n : Namespace) (lc : LocaleContext)
    (base : Row) {p : PlanField} (hp : p ∈ node.fields) :
    n.resolveValue lc node.source.table.name node.hasLocalized p.column base
      = n.resolveValue lc node.source.table.name true p.column base := by
  cases hlocalized : p.column.localized with
  | true => rw [hmark ⟨p, hp, hlocalized⟩]
  | false =>
    unfold Namespace.resolveValue
    rw [hlocalized, Bool.and_false, Bool.and_false]

/-! ## Nodes -/

/-- What a node of a plan is like that follows `reach` levels of links: a table of the schema, read field
by field. -/
structure Generated (s : Schema) (ns : Ident) (reach : Nat) (node : PlanNode) : Prop where
  depth_le : node.source.depth ≤ reach
  children_depth : ∀ child ∈ node.children, child.source.depth = node.source.depth + 1
  reads : ∃ t ∈ s.allTables,
    node.source = ⟨t.contentType, t.kind, ⟨ns, t.name⟩, node.source.depth⟩ ∧
      List.Forall₂ (s.ReadBy ns reach node.source.depth) t.fields node.fields
  marked : node.hasLocalized = true ↔ ∃ below ∈ node.subtree, below.ReadsLocalized
  gate : ∀ (n : Namespace) (lc : LocaleContext) (base : Row), ∀ p ∈ node.fields,
    n.resolveValue lc node.source.table.name node.hasLocalized p.column base
      = n.resolveValue lc node.source.table.name true p.column base

/-- The node of a table of the schema is as it should be. -/
theorem generated_planNode (ht : t ∈ s.allTables) :
    s.Generated ns (remaining + depth) (s.planNode ns remaining depth t) where
  depth_le := by
    rw [planNode_source]
    exact Nat.le_add_left depth remaining
  children_depth child hmem := by
    obtain ⟨k, -, f, -, target, -, table, -, rfl⟩ := mem_children_planNode.1 hmem
    rw [planNode_source, planNode_source]
  reads := by
    refine ⟨t, ht, ?_, ?_⟩
    · rw [planNode_source]
    · rw [planNode_source, planNode_fields, List.forall₂_map_right_iff, List.forall₂_same]
      exact fun f _ => readBy_planField f
  marked := s.hasLocalized_planNode_iff ns remaining depth t
  gate n lc base p hp :=
    resolveValue_gate (fun hown => (s.hasLocalized_planNode_iff ns remaining depth t).2
      ⟨_, PlanNode.mem_subtree_iff_children.2 (.inl rfl), hown⟩) n lc base hp

/-! ## Creating the query functions -/

/-- Where the statements of a schema went through, the tables stand that the plans consult. -/
theorem checkPlan_of_ddl {space : Space} {ddl : List Statement} (hddl : s.ddl ns space = .ok ddl)
    {d d' : Database} (hrun : d.applyAll ddl = .ok d') (ht : t ∈ s.tables) (reach : Nat) :
    ∃ n, d'.namespaces.get? ns = some n ∧ n.checkPlan (s.planOf ns reach t) = .ok () := by
  -- A table that was there before keeps its place, so the namespace need not be new.
  obtain ⟨rows, n, hsetUp, hn⟩ := exists_namespace_of_ddl hddl hrun
  refine ⟨n, hn, Namespace.checkPlan_eq_ok.2 (Namespace.stands_iff.2 fun name hname => ?_)⟩
  rw [Namespace.applyAll_tables hsetUp, createdTables_setupStatements, List.mem_append,
    (s.flatMap_block_perm.map Prod.fst).mem_iff]
  rcases List.mem_cons.1 hname with rfl | hname
  · exact .inr (.inl (List.mem_cons_of_mem _ (List.mem_singleton_self _)))
  · exact .inr (.inr (relations_planNode_content (List.mem_append_left _ ht) hname))

/-- A query function whose plan passes its check is created. -/
theorem exists_createFunction {d : Database} {plan : Plan} {n : Namespace}
    (hn : d.namespaces.get? plan.function.namespaceName = some n) (hcheck : n.checkPlan plan = .ok ()) :
    ∃ d', d.apply (.createFunction plan) = .ok d' := by
  have hcreate : n.apply (.createFunction plan) = .ok _ :=
    Namespace.createFunction_eq_ok.2 ⟨hcheck, rfl⟩
  exact ⟨_, (Database.apply_local hn ⟨rfl, rfl⟩).trans (congrArg _ hcreate)⟩

/-- Every content type with a table has a plan, however far links are followed and wherever they lead. Its
root is at depth 0, no node is deeper than the links that are followed, and every node is as it should be.
Once the statements of the schema went through, the query function of the plan can be created, whatever
statements follow that neither drop nor promote the namespace. -/
theorem plan_generated (s : Schema) (ns : Ident) (reach : Nat) {contentType : String}
    (hcompiled : contentType ∈ s.contentTypes) :
    ∃ plan, s.plan? ns reach contentType = .ok plan ∧
      plan.root.source.depth = 0 ∧ plan.root.source.contentType = contentType ∧
      plan.root.maxDepth ≤ reach ∧
      (∀ node ∈ plan.root.subtree, s.Generated ns reach node) ∧
      ∀ {space : Space} {ddl : List Statement} {store created : Store},
        s.ddl ns space = .ok ddl → store.execute ddl = (.ok (), created) →
        ∀ {later : List Statement} {d : Database}, (∀ statement ∈ later, statement.Keeps ns) →
          created.database.applyAll later = .ok d →
          ∃ d', d.apply (.createFunction plan) = .ok d' := by
  obtain ⟨-, t, hfound, hnode⟩ :=
    (s.targetTable?_cases (.contentType contentType)).resolve_right fun h => h.1 hcompiled
  obtain ⟨ht, rfl⟩ := entryTable?_eq_some hfound
  have hplan : s.plan? ns reach t.contentType = .ok (s.planOf ns reach t) := by
    unfold plan?
    rw [show s.entryTable? t.contentType = some t from hfound]
  have hnodes : ∀ node ∈ (s.planNode ns reach 0 t).subtree, s.Generated ns reach node := by
    intro node hnode
    obtain ⟨k, d, t', hlevels, hreads, rfl⟩ := mem_subtree_planNode hnode
    have hreach : k + d = reach := hlevels
    rw [← hreach]
    exact generated_planNode (hreads.mem_allTables (List.mem_append_left _ ht))
  refine ⟨_, hplan, congrArg NodeSource.depth (planNode_source reach 0 t),
    congrArg NodeSource.contentType (planNode_source reach 0 t),
    PlanNode.maxDepth_le fun node hnode => (hnodes node hnode).depth_le, hnodes, ?_⟩
  intro space ddl store created hddl hcreated later d hkeeps hlater
  obtain ⟨n, hn, hcheck⟩ := checkPlan_of_ddl hddl (Store.execute_ok hcreated).2.1 ht reach
  obtain ⟨n', hn', hkept⟩ := Database.applyAll_kept hn hkeeps hlater
  exact exists_createFunction hn' (Namespace.checkPlan_of_tables hcheck hkept.tables)

/-- A content type that refers to itself has a node for each level that is followed, and no more. -/
example :
    let category : ContentType := .new "category" [.new "title" .symbol, .entryLink "parent" "category"]
    ((compile [category]).plan? ⟨"content"⟩ 3 "category").toOption.map
        (fun plan => (plan.root.nodeCount, plan.root.maxDepth)) = some (4, 3) := by
  decide +kernel

end Schema

open Catalog in
/-- The plan of the products of the catalog, which is set up: its function is created. -/
theorem Schema.plan_generated_catalog :
    ∃ plan, schema.plan? namespaceName 1 "product" = .ok plan ∧ plan.root.maxDepth ≤ 1 ∧
      (∀ node ∈ plan.root.subtree, schema.Generated namespaceName 1 node) ∧
      ∃ d, setUp.database.apply (.createFunction plan) = .ok d := by
  obtain ⟨ddl, hddl, hsetUp⟩ := exists_setUp
  obtain ⟨plan, hplan, -, -, hdepth, hnodes, hcreate⟩ := plan_generated schema namespaceName 1
    (show "product" ∈ schema.contentTypes by decide +kernel)
  exact ⟨plan, hplan, hdepth, hnodes,
    hcreate hddl hsetUp (fun _ h => absurd h List.not_mem_nil) (rfl : _ = Except.ok setUp.database)⟩

end ContentReplica
