import ContentReplica.Plan.Generator
import ContentReplica.Proofs.Schema.Tables
import ContentReplica.Store.Evaluator

/-!
# The nodes of a plan

A plan is unfolded from the references between tables: `Schema.Reads s k t t'` says that at most `k`
references lead from `t` to `t'`, and the nodes of the plan of `t` are those of the tables that it
reads (`Schema.mem_subtree_planNode`). So the relations that a plan consults are these tables and their
link tables (`Schema.mem_relations_planNode`).
-/

namespace ContentReplica

/-! ## Unfolding a node -/

/-- What a field refers to, if it is a link or an array of links. -/
def FieldLayout.target? (f : FieldLayout) : Option LinkTarget :=
  match f.placement with
  | .value _ => none
  | .link target => some target
  | .links _ target => some target

namespace Schema

variable {s : Schema} {ns : Ident}

/-- What a link shows with the given number of levels left. -/
def linkPlan (s : Schema) (ns : Ident) (depth : Nat) (target : LinkTarget) : Nat → LinkPlan
  | 0 => .stub
  | remaining + 1 =>
    match s.targetTable? target with
    | some table => .expand (s.planNode ns remaining (depth + 1) table)
    | none => .stub

/-- How a field is read with the given number of levels left. -/
def planField (s : Schema) (ns : Ident) (remaining depth : Nat) (f : FieldLayout) : PlanField :=
  let column : PlanColumn := ⟨f.fieldId, f.column, f.localized⟩
  match f.placement with
  | .value type => .value column type
  | .link target => .link column (s.linkPlan ns depth target remaining)
  | .links table target => .links column ⟨ns, table⟩ (s.linkPlan ns depth target remaining)

/-- The fields of a node are those of its table. -/
theorem planNode_fields (remaining depth : Nat) (t : TableLayout) :
    (s.planNode ns remaining depth t).fields = t.fields.map (s.planField ns remaining depth) := by
  cases remaining <;> rfl

/-- A field is read under its identity. -/
theorem fieldId_planField (remaining depth : Nat) (f : FieldLayout) :
    (s.planField ns remaining depth f).column.fieldId = f.fieldId := by
  unfold planField
  cases f.placement <;> rfl

/-- A node reads its table. -/
theorem planNode_source (remaining depth : Nat) (t : TableLayout) :
    (s.planNode ns remaining depth t).source = ⟨t.contentType, t.kind, ⟨ns, t.name⟩, depth⟩ := by
  cases remaining <;> rfl

/-- A node of a table with localized fields is localized. -/
theorem planNode_hasLocalized {t : TableLayout} (h : t.hasLocalized = true) (remaining depth : Nat) :
    (s.planNode ns remaining depth t).hasLocalized = true := by
  have hor (b : Bool) : (t.hasLocalized || b) = true := by rw [h, Bool.true_or]
  cases remaining <;> exact hor _

/-- The node that a field embeds is that of its target, one level further. -/
theorem child?_planField {remaining depth : Nat} {f : FieldLayout} {child : PlanNode} :
    (s.planField ns remaining depth f).child? = some child ↔
      ∃ k target table, remaining = k + 1 ∧ f.target? = some target ∧
        s.targetTable? target = some table ∧ child = s.planNode ns k (depth + 1) table := by
  have hlink (target : LinkTarget) :
      s.linkPlan ns depth target remaining = .expand child ↔ ∃ k table, remaining = k + 1 ∧
        s.targetTable? target = some table ∧ child = s.planNode ns k (depth + 1) table := by
    cases remaining with
    | zero => simp [linkPlan]
    | succ k =>
      unfold linkPlan
      cases s.targetTable? target <;> simp [eq_comm]
  have hchild (column : PlanColumn) (target : LinkPlan) :
      (PlanField.link column target).child? = some child ↔ target = .expand child := by
    cases target <;> simp [PlanField.child?]
  have hchildren (column : PlanColumn) (table : QualifiedName) (target : LinkPlan) :
      (PlanField.links column table target).child? = some child ↔ target = .expand child := by
    cases target <;> simp [PlanField.child?]
  unfold planField FieldLayout.target?
  cases f.placement with
  | value type => simp [PlanField.child?]
  | link target => simp [hchild, hlink]
  | links table target => simp [hchildren, hlink]

end Schema

/-! ## Trees -/

namespace PlanNode

/-- The relations that a node and the nodes below it read. -/
def relations (node : PlanNode) : List Ident := node.subtree.flatMap Namespace.nodeRelations

/-- A node below some fields is below the child of one of them. -/
theorem mem_fieldsSubtree {node : PlanNode} :
    ∀ {fields : List PlanField}, node ∈ fieldsSubtree fields ↔
      ∃ field ∈ fields, ∃ child, field.child? = some child ∧ node ∈ child.subtree := by
  intro fields
  induction fields with
  | nil => simp [fieldsSubtree]
  | cons field fields ih =>
    simp only [List.mem_cons, exists_eq_or_imp, ← ih]
    cases field with
    | value column type => simp [fieldsSubtree, PlanField.child?]
    | link column target => cases target <;> simp [fieldsSubtree, PlanField.child?, linkSubtree]
    | links column table target =>
      cases target <;> simp [fieldsSubtree, PlanField.child?, linkSubtree]

/-- The nodes of a tree are its root and those below the children of its fields. -/
theorem mem_subtree {node root : PlanNode} : node ∈ root.subtree ↔
    node = root ∨ ∃ field ∈ root.fields, ∃ child, field.child? = some child ∧
      node ∈ child.subtree := by
  cases root with
  | mk source hasLocalized fields =>
    rw [subtree, List.mem_cons, mem_fieldsSubtree]
    rfl

end PlanNode

/-! ## Reading along references -/

namespace Schema

/-- At most the given number of references lead from one table to another. -/
inductive Reads (s : Schema) : Nat → TableLayout → TableLayout → Prop
  | self (k : Nat) (t : TableLayout) : Reads s k t t
  | step {k : Nat} {t next last : TableLayout} {f : FieldLayout} {target : LinkTarget} :
    f ∈ t.fields → f.target? = some target → s.targetTable? target = some next →
    Reads s k next last → Reads s (k + 1) t last

variable {s : Schema} {ns : Ident}

/-- The target of a link is a table of a content type or of assets. -/
theorem targetTable?_mem {target : LinkTarget} {t : TableLayout}
    (h : s.targetTable? target = some t) : t ∈ s.allTables := by
  cases target with
  | contentType id => exact List.mem_append_left _ (entryTable?_eq_some h).1
  | asset =>
    obtain rfl := Option.some.inj h
    exact List.mem_append_right _ (List.mem_singleton_self _)
  | unresolved reason => cases h

/-- What a table reads is a table of a content type or of assets. -/
theorem Reads.mem_allTables {k : Nat} {t t' : TableLayout} (h : s.Reads k t t')
    (ht : t ∈ s.allTables) : t' ∈ s.allTables := by
  induction h with
  | self => exact ht
  | step _ _ htarget _ ih => exact ih (targetTable?_mem htarget)

/-- The nodes of the plan of a table are those of the tables that it reads; every level takes one from
the levels that are left. -/
theorem mem_subtree_planNode {node : PlanNode} :
    ∀ {remaining depth : Nat} {t : TableLayout},
      node ∈ (s.planNode ns remaining depth t).subtree →
      ∃ k d t', k + d = remaining + depth ∧ s.Reads remaining t t' ∧
        node = s.planNode ns k d t' := by
  intro remaining
  induction remaining with
  | zero =>
    intro depth t h
    rcases PlanNode.mem_subtree.1 h with rfl | ⟨field, hfield, child, hchild, -⟩
    · exact ⟨0, depth, t, rfl, .self 0 t, rfl⟩
    · rw [planNode_fields] at hfield
      obtain ⟨f, -, rfl⟩ := List.mem_map.1 hfield
      obtain ⟨k, target, table, hk, -⟩ := child?_planField.1 hchild
      cases hk
  | succ remaining ih =>
    intro depth t h
    rcases PlanNode.mem_subtree.1 h with rfl | ⟨field, hfield, child, hchild, hnode⟩
    · exact ⟨remaining + 1, depth, t, rfl, .self _ t, rfl⟩
    · rw [planNode_fields] at hfield
      obtain ⟨f, hf, rfl⟩ := List.mem_map.1 hfield
      obtain ⟨k, target, table, hk, htarget, htable, rfl⟩ := child?_planField.1 hchild
      obtain rfl := Nat.succ.inj hk
      obtain ⟨k', d, t', hlevels, hreads, hnode⟩ := ih hnode
      exact ⟨k', d, t', by omega, .step hf htarget htable hreads, hnode⟩

/-- A node reads its table and the link tables of its table. -/
theorem nodeRelations_planNode (remaining depth : Nat) (t : TableLayout) :
    Namespace.nodeRelations (s.planNode ns remaining depth t)
      = t.name :: t.linkTables.map LinkTable.name := by
  unfold Namespace.nodeRelations
  rw [planNode_source, planNode_fields, List.filterMap_map, TableLayout.linkTables,
    List.map_filterMap]
  refine congrArg (t.name :: ·) (List.filterMap_congr fun f _ => ?_)
  unfold Function.comp planField TableLayout.linkTable?
  cases f.placement <;> rfl

/-- The relations of the plan of a table are the tables that it reads and their link tables. -/
theorem mem_relations_planNode {remaining depth : Nat} {t : TableLayout} {name : Ident}
    (h : name ∈ (s.planNode ns remaining depth t).relations) :
    ∃ t', s.Reads remaining t t' ∧ (name = t'.name ∨ name ∈ t'.linkTables.map LinkTable.name) := by
  obtain ⟨node, hnode, hname⟩ := List.mem_flatMap.1 h
  obtain ⟨k, d, t', -, hreads, rfl⟩ := mem_subtree_planNode hnode
  rw [nodeRelations_planNode] at hname
  exact ⟨t', hreads, List.mem_cons.1 hname⟩

/-- The relations of the plan of a table hold content. -/
theorem relations_planNode_content {remaining depth : Nat} {t : TableLayout}
    (ht : t ∈ s.allTables) {name : Ident}
    (h : name ∈ (s.planNode ns remaining depth t).relations) :
    name ∈ s.contentTables.map Prod.fst := by
  obtain ⟨t', hreads, rfl | hname⟩ := mem_relations_planNode h
  · exact List.mem_map_of_mem (mem_contentTables_of_table (hreads.mem_allTables ht))
  · obtain ⟨l, hl, rfl⟩ := List.mem_map.1 hname
    exact List.mem_map_of_mem
      (mem_contentTables_of_link (mem_linkTables (hreads.mem_allTables ht) hl))

end Schema

end ContentReplica
