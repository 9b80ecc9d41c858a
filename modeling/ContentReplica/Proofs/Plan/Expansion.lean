import ContentReplica.Proofs.Replication.LastWriter
import ContentReplica.Proofs.Schema.Sift
import ContentReplica.Proofs.Views.Dependents

/-!
# Plans and dependents

The plan of a content type is unfolded along its references, one level for each; the dependents of a
node are searched against them, one round for each. Both follow the same references as many times:
`Schema.Reads` says which tables they lead to, so a node is in the plan of a content type exactly when
the content type is a dependent of the node (`Schema.mem_plan_iff_mem_dependents`).
-/

namespace ContentReplica.Schema

variable {s : Schema}

/-! ## Every table that is read has a node -/

/-- What is read along some references is read along more. -/
theorem Reads.mono {k k' : Nat} {t t' : TableLayout} (h : s.Reads k t t') (hk : k ≤ k') :
    s.Reads k' t t' := by
  induction h generalizing k' with
  | self k t => exact .self k' t
  | step hf htarget hnext _ ih =>
    obtain ⟨k', rfl⟩ := Nat.exists_eq_add_of_lt hk
    exact .step hf htarget hnext (ih (by omega))

/-- The plan of a table has a node of each table that it reads. -/
theorem Reads.exists_node (ns : Ident) {k : Nat} {t t' : TableLayout} (h : s.Reads k t t') :
    ∀ depth : Nat, ∃ remaining d, s.planNode ns remaining d t' ∈ (s.planNode ns k depth t).subtree := by
  induction h with
  | self k t => exact fun depth => ⟨k, depth, PlanNode.mem_subtree.2 (.inl rfl)⟩
  | @step k t next last f target hf htarget hnext _ ih =>
    intro depth
    obtain ⟨remaining, d, hnode⟩ := ih (depth + 1)
    refine ⟨remaining, d, PlanNode.mem_subtree.2 (.inr
      ⟨s.planField ns (k + 1) depth f, ?_, s.planNode ns k (depth + 1) next, ?_, hnode⟩)⟩
    · rw [planNode_fields]
      exact List.mem_map_of_mem hf
    · exact child?_planField.2 ⟨k, target, next, rfl, htarget, hnext, rfl⟩

/-- The nodes of the plan of a table are of the content types of the tables that it reads. -/
theorem exists_node_iff {ns : Ident} {k depth : Nat} {t : TableLayout} {node : String} :
    (∃ n ∈ (s.planNode ns k depth t).subtree, n.source.contentType = node) ↔
      ∃ t', s.Reads k t t' ∧ t'.contentType = node := by
  constructor
  · rintro ⟨n, hn, rfl⟩
    obtain ⟨remaining, d, t', -, hreads, rfl⟩ := mem_subtree_planNode hn
    refine ⟨t', hreads, ?_⟩
    rw [planNode_source]
  · rintro ⟨t', hreads, rfl⟩
    obtain ⟨remaining, d, hn⟩ := hreads.exists_node ns depth
    refine ⟨_, hn, ?_⟩
    rw [planNode_source]

/-! ## Every dependent reads the node -/

/-- A link of a compiled table to a content type is not one to assets: only the identity of a content
type with a table settles it. -/
theorem Compiled.target_ne_assets (h : s.Compiled) {t : TableLayout} (ht : t ∈ s.tables)
    {f : FieldLayout} (hf : f ∈ t.fields) {id : String}
    (htarget : f.target? = some (.contentType id)) : id ≠ Naming.assetsTable.text := by
  obtain ⟨types, p, htables⟩ := h.exists_sift
  rw [htables] at ht
  obtain ⟨c, -, rfl⟩ := List.mem_map.1 ht
  obtain ⟨g, -, hg⟩ := List.mem_filterMap.1 hf
  have hknown : id ∈ (sift [] types).1.map ContentType.id := by
    have hresolve (scope : LinkScope)
        (he : LinkTarget.resolve ((sift [] types).1.map ContentType.id) scope = .contentType id) :
        id ∈ (sift [] types).1.map ContentType.id := by
      unfold LinkTarget.resolve at he
      split at he
      · cases he
      · cases he
      · split at he
        · next hcontains =>
          cases he
          exact List.contains_iff_mem.1 hcontains
        · cases he
      · cases he
    unfold layoutField? at hg
    split at hg
    · cases hg
    · next shape _ =>
      cases hg
      unfold FieldLayout.target? place at htarget
      cases shape with
      | scalar kind | scalars kind => cases htarget
      | link scope | links scope => exact hresolve scope (Option.some.inj htarget)
  obtain ⟨c', hc', rfl⟩ := List.mem_map.1 hknown
  exact id_ne_assets hc'

/-- A reader of a node has a link to it. -/
theorem Compiled.exists_link_of_mem_readers (h : s.Compiled) {name node : String}
    {next : TableLayout} (hnode : s.table? node = some next)
    (hname : name ∈ Dependents.readers s.references node) :
    ∃ t ∈ s.tables, t.contentType = name ∧ ∃ f ∈ t.fields, ∃ target,
      f.target? = some target ∧ s.targetTable? target = some next := by
  obtain ⟨reference, hreference, rfl⟩ := List.mem_map.1 hname
  obtain ⟨hreference, htargets⟩ := List.mem_filter.1 hreference
  obtain ⟨t, ht, hreference⟩ := List.mem_flatMap.1 hreference
  obtain ⟨f, hf, hreference⟩ := List.mem_filterMap.1 hreference
  obtain ⟨howner, htarget⟩ :
      reference.owner = t.contentType ∧ f.target? = some reference.target := by
    unfold TableLayout.reference? at hreference
    unfold FieldLayout.target?
    cases hplacement : f.placement <;> rw [hplacement] at hreference <;> cases hreference <;>
      exact ⟨rfl, rfl⟩
  refine ⟨t, ht, howner.symm, f, hf, reference.target, htarget, ?_⟩
  have htargets : reference.target.node? = some node := of_decide_eq_true htargets
  cases he : reference.target with
  | contentType id =>
    rw [he] at htarget htargets
    obtain rfl := Option.some.inj htargets
    rwa [table?, if_neg (h.target_ne_assets ht hf htarget)] at hnode
  | asset =>
    rw [he] at htargets
    obtain rfl := Option.some.inj htargets
    exact hnode
  | unresolved reason =>
    rw [he] at htargets
    cases htargets

/-- A dependent of a node within some references reads it along as many. -/
theorem Compiled.reads_of_mem_dependents (h : s.Compiled) {node : String} {last : TableLayout}
    (hnode : s.table? node = some last) :
    ∀ {k : Nat} {name : String}, name ∈ (s.dependents node k).keys →
      ∃ t, s.table? name = some t ∧ s.Reads k t last := by
  intro k name
  rw [dependents, Dependents.closure_eq]
  induction k generalizing name with
  | zero =>
    intro hname
    obtain rfl : name = node := (NameSet.mem_keys_add.1 hname).resolve_right List.not_mem_nil
    exact ⟨last, hnode, .self 0 last⟩
  | succ k ih =>
    intro hname
    rcases Dependents.mem_expand.1 hname with hname | ⟨next, hnext, hname⟩
    · obtain ⟨t, ht, hreads⟩ := ih hname
      exact ⟨t, ht, hreads.mono (Nat.le_succ k)⟩
    · -- The last round found a reader of what was found before.
      obtain ⟨tnext, htnext, hreads⟩ := ih hnext
      obtain ⟨t, ht, rfl, f, hf, target, htarget, hresolved⟩ :=
        h.exists_link_of_mem_readers htnext hname
      exact ⟨t, h.table?_eq_some (List.mem_append_left _ ht), .step hf htarget hresolved hreads⟩

/-! ## The two agree -/

/-- A node is in the plan of a content type exactly when the content type is a dependent of the node
within as many references as the plan follows. -/
theorem mem_plan_iff_mem_dependents (h : s.Compiled) (ns : Ident) (k : Nat) {contentType : String}
    (hcompiled : contentType ∈ s.contentTypes) {node : String}
    (hnode : node ∈ s.contentTypes ∨ node = Naming.assetsTable.text) :
    ∃ plan, s.plan? ns k contentType = .ok plan ∧
      ((∃ n ∈ plan.root.subtree, n.source.contentType = node) ↔
        contentType ∈ (s.dependents node k).keys) := by
  obtain ⟨t, ht, rfl⟩ := List.mem_map.1 hcompiled
  have hall : t ∈ s.allTables := List.mem_append_left _ ht
  obtain ⟨last, hlast, hlastType⟩ : ∃ last ∈ s.allTables, last.contentType = node := by
    rcases hnode with hnode | rfl
    · obtain ⟨last, hlast, rfl⟩ := List.mem_map.1 hnode
      exact ⟨last, List.mem_append_left _ hlast, rfl⟩
    · exact ⟨assetLayout, List.mem_append_right _ (List.mem_singleton_self _), rfl⟩
  refine ⟨s.planOf ns k t, ?_, exists_node_iff.trans ⟨?_, fun hdependent => ?_⟩⟩
  · rw [plan?, h.entryTable?_eq_some ht]
  · rintro ⟨t', hreads, rfl⟩
    exact hreads.mem_dependents hall
  · obtain rfl := hlastType
    obtain ⟨t', ht', hreads⟩ := h.reads_of_mem_dependents (h.table?_eq_some hlast) hdependent
    obtain rfl := Option.some.inj ((h.table?_eq_some hall).symm.trans ht')
    exact ⟨last, hreads, rfl⟩

end ContentReplica.Schema

namespace ContentReplica

open Catalog in
/-- Products refer to tags through a link table alone. -/
theorem Schema.mem_plan_iff_mem_dependents_catalog :
    ∃ plan, schema.plan? namespaceName 1 "product" = .ok plan ∧
      ((∃ n ∈ plan.root.subtree, n.source.contentType = "tag") ↔
        "product" ∈ (schema.dependents "tag" 1).keys) :=
  mem_plan_iff_mem_dependents (.all types rfl) namespaceName 1 (by decide +kernel)
    (.inl (by decide +kernel))

end ContentReplica
