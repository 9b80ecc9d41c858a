import ContentReplica.Proofs.Outcome
import ContentReplica.Proofs.Plan.Nodes

/-!
# Evaluation reads the relations of its plan

The rows of a query function depend on the table of locales and on the relations of its plan, and on
nothing else in the namespace (`Namespace.evaluate_congr`). Where all of these stand, each record has
its document (`Namespace.document_isOk`).

Both are proved along the tree of a plan: for a node, for the fields of a node, and for what a link
shows.
-/

namespace ContentReplica

namespace PlanNode

/-- The relations that some fields read beside the table of their node. -/
def fieldRelations (fields : List PlanField) : List Ident :=
  (fields.filterMap fun
    | .links _ linkTable _ => some linkTable.name
    | _ => none) ++ (fieldsSubtree fields).flatMap Namespace.nodeRelations

/-- The relations that what a link shows is read from. -/
def linkRelations (target : LinkPlan) : List Ident :=
  (linkSubtree target).flatMap Namespace.nodeRelations

/-- A node reads its table and what its fields read. -/
theorem relations_mk (source : NodeSource) (localized : Bool) (fields : List PlanField) :
    (PlanNode.mk source localized fields).relations = source.table.name :: fieldRelations fields := by
  rw [relations, subtree, List.flatMap_cons]
  rfl

/-- A plain field reads no relation of its own. -/
theorem mem_fieldRelations_value {column : PlanColumn} {type : SqlType} {rest : List PlanField}
    {name : Ident} : name ∈ fieldRelations (.value column type :: rest) ↔
      name ∈ fieldRelations rest := by
  simp [fieldRelations, fieldsSubtree]

/-- A link reads what its target does. -/
theorem mem_fieldRelations_link {column : PlanColumn} {target : LinkPlan} {rest : List PlanField}
    {name : Ident} : name ∈ fieldRelations (.link column target :: rest) ↔
      name ∈ linkRelations target ∨ name ∈ fieldRelations rest := by
  simp only [fieldRelations, linkRelations, fieldsSubtree, List.filterMap_cons_none,
    List.flatMap_append, List.mem_append]
  exact or_left_comm

/-- An array of links reads its link table, and what its target does. -/
theorem mem_fieldRelations_links {column : PlanColumn} {table : QualifiedName} {target : LinkPlan}
    {rest : List PlanField} {name : Ident} :
    name ∈ fieldRelations (.links column table target :: rest) ↔
      name = table.name ∨ name ∈ linkRelations target ∨ name ∈ fieldRelations rest := by
  simp only [fieldRelations, linkRelations, fieldsSubtree, List.filterMap_cons,
    List.flatMap_append, List.mem_append, List.mem_cons, List.cons_append]
  exact or_congr_right or_left_comm

end PlanNode

namespace Namespace

open PlanNode

variable {n n' : Namespace} {lc : LocaleContext}

/-! ## Evaluation depends on what is read -/

/-- Two namespaces have the same tables under the given names. -/
def AgreeOn (n n' : Namespace) (names : List Ident) : Prop :=
  ∀ name ∈ names, n.table name = n'.table name

/-- Namespaces that agree on some relations agree on fewer. -/
theorem AgreeOn.mono {names names' : List Ident} (h : n.AgreeOn n' names)
    (hsub : ∀ name ∈ names', name ∈ names) : n.AgreeOn n' names' :=
  fun name hname => h name (hsub name hname)

/-- The row of a record depends on its table alone. -/
theorem findRow?_congr {table : Ident} (h : n.table table = n'.table table) (sysId locale : String) :
    n.findRow? table sysId locale = n'.findRow? table sysId locale := by
  unfold findRow?
  rw [h]

/-- So does the first value of a record in some locales. -/
theorem firstValue?_congr {table : Ident} (h : n.table table = n'.table table) (sysId : String)
    (column : Ident) : ∀ locales,
      n.firstValue? table sysId column locales = n'.firstValue? table sysId column locales
  | [] => rfl
  | locale :: rest => by
    rw [firstValue?, firstValue?, findRow?_congr h, firstValue?_congr h sysId column rest]

/-- So does the value that a field resolves to. -/
theorem resolveValue_congr {table : Ident} (h : n.table table = n'.table table) (localized : Bool)
    (c : PlanColumn) (base : Row) :
    n.resolveValue lc table localized c base = n'.resolveValue lc table localized c base := by
  unfold resolveValue
  simp only [firstValue?_congr h]

/-- The edges of a record depend on their link table alone. -/
theorem edgesOf_congr {linkTable : Ident} (h : n.table linkTable = n'.table linkTable)
    (localized : Bool) (base : Row) :
    n.edgesOf lc linkTable localized base = n'.edgesOf lc linkTable localized base := by
  unfold edgesOf
  rw [h]

mutual

/-- The document of a node depends on the relations of the node. -/
theorem document_congr : ∀ (node : PlanNode) (base : Row), n.AgreeOn n' node.relations →
    n.document lc base node = n'.document lc base node
  | .mk source localized fields, base, h => by
    rw [relations_mk] at h
    have htable := h source.table.name (List.mem_cons_self ..)
    rw [document, document, fieldDocuments_congr htable fields base
      (h.mono fun _ => List.mem_cons_of_mem _)]

/-- The members of fields depend on the table of their node and on what the fields read. -/
theorem fieldDocuments_congr {table : Ident} {localized : Bool}
    (htable : n.table table = n'.table table) :
    ∀ (fields : List PlanField) (base : Row), n.AgreeOn n' (fieldRelations fields) →
      n.fieldDocuments lc table localized base fields
        = n'.fieldDocuments lc table localized base fields
  | [], _, _ => by rw [fieldDocuments, fieldDocuments]
  | .value c type :: rest, base, h => by
    rw [fieldDocuments, fieldDocuments, resolveValue_congr htable,
      fieldDocuments_congr htable rest base (h.mono fun _ => mem_fieldRelations_value.2)]
  | .link c target :: rest, base, h => by
    rw [fieldDocuments, fieldDocuments, resolveValue_congr htable,
      fieldDocuments_congr htable rest base
        (h.mono fun _ hm => mem_fieldRelations_link.2 (.inr hm))]
    simp only [linkDocument?_congr target
      (h.mono fun _ hm => mem_fieldRelations_link.2 (.inl hm))]
  | .links c linkTable target :: rest, base, h => by
    rw [fieldDocuments, fieldDocuments,
      edgesOf_congr (h linkTable.name (mem_fieldRelations_links.2 (.inl rfl))),
      fieldDocuments_congr htable rest base
        (h.mono fun _ hm => mem_fieldRelations_links.2 (.inr (.inr hm)))]
    simp only [linkDocument?_congr target
      (h.mono fun _ hm => mem_fieldRelations_links.2 (.inr (.inl hm)))]

/-- What a link shows depends on the relations of its target. -/
theorem linkDocument?_congr : ∀ (target : LinkPlan), n.AgreeOn n' (linkRelations target) →
    ∀ id, n.linkDocument? lc id target = n'.linkDocument? lc id target
  | .stub, _, id => by rw [linkDocument?, linkDocument?]
  | .expand (.mk source localized fields), h, id => by
    have hnode : n.AgreeOn n' (PlanNode.mk source localized fields).relations := h
    have htable := hnode source.table.name (relations_mk .. ▸ List.mem_cons_self ..)
    rw [linkDocument?, linkDocument?]
    rw [show (PlanNode.mk source localized fields).source = source from rfl,
      findRow?_congr htable]
    simp only [document_congr (.mk source localized fields) _ hnode]

end

/-- The cells of a result depend on the table of the root. -/
theorem fieldCells_congr {table : Ident} {localized : Bool} {base : Row}
    (htable : n.table table = n'.table table) :
    ∀ (fields : List PlanField) (row : Row), n.fieldCells lc table localized base fields row
      = n'.fieldCells lc table localized base fields row
  | [], _ => by rw [fieldCells, fieldCells]
  | f :: rest, row => by
    rw [fieldCells, fieldCells, resolveValue_congr htable]
    simp only [fieldCells_congr htable rest]

/-- A row of a result depends on what the plan reads. -/
theorem resultRow_congr {root : PlanNode} (h : n.AgreeOn n' root.relations) (base : Row) :
    n.resultRow lc root base = n'.resultRow lc root base := by
  have htable : n.table root.source.table.name = n'.table root.source.table.name := by
    cases root
    exact h _ (relations_mk .. ▸ List.mem_cons_self ..)
  unfold resultRow
  simp only [fieldCells_congr htable, document_congr root base h]

/-- The rows of a query function depend on the table of locales and on the relations of its plan. -/
theorem evaluate_congr {plan : Plan} (hlocales : n.table plan.locales.name = n'.table plan.locales.name)
    (h : n.AgreeOn n' plan.root.relations) (locale : String) :
    n.evaluate plan locale = n'.evaluate plan locale := by
  have htable : n.table plan.root.source.table.name = n'.table plan.root.source.table.name := by
    generalize plan.root = root at h ⊢
    cases root
    exact h _ (relations_mk .. ▸ List.mem_cons_self ..)
  have hrow (lc : LocaleContext) : n.resultRow lc plan.root = n'.resultRow lc plan.root :=
    funext fun base => resultRow_congr h base
  unfold evaluate localeContext?
  simp only [hlocales, htable, hrow]

/-! ## Evaluation succeeds where all relations stand -/

/-- The tables of the given names stand. -/
def Stands (n : Namespace) (names : List Ident) : Prop := ∀ name ∈ names, ∃ t, n.table name = .ok t

/-- Where some relations are there, fewer are. -/
theorem Stands.mono {names names' : List Ident} (h : n.Stands names)
    (hsub : ∀ name ∈ names', name ∈ names) : n.Stands names' :=
  fun name hname => h name (hsub name hname)

/-- A record can be looked for in a table that is there. -/
theorem findRow?_isOk {table : Ident} (h : ∃ t, n.table table = .ok t) (sysId locale : String) :
    ∃ row?, n.findRow? table sysId locale = .ok row? := by
  obtain ⟨t, ht⟩ := h
  exact ⟨_, bind_eq_ok.2 ⟨t, ht, rfl⟩⟩

/-- So can its first value in some locales. -/
theorem firstValue?_isOk {table : Ident} (h : ∃ t, n.table table = .ok t) (sysId : String)
    (column : Ident) : ∀ locales, ∃ v?, n.firstValue? table sysId column locales = .ok v?
  | [] => ⟨none, rfl⟩
  | locale :: rest => by
    obtain ⟨row?, hrow⟩ := findRow?_isOk h sysId locale
    obtain ⟨v?, hrest⟩ := firstValue?_isOk h sysId column rest
    rw [firstValue?, hrow]
    cases row? with
    | none => exact ⟨v?, hrest⟩
    | some row =>
      dsimp only [bind, Except.bind]
      split
      · exact ⟨v?, hrest⟩
      · exact ⟨_, rfl⟩

/-- A field resolves to a value where its table is there. -/
theorem resolveValue_isOk {table : Ident} (h : ∃ t, n.table table = .ok t) (localized : Bool)
    (c : PlanColumn) (base : Row) : ∃ v, n.resolveValue lc table localized c base = .ok v := by
  unfold resolveValue
  dsimp only
  split
  · exact ⟨_, rfl⟩
  · split
    · exact ⟨_, rfl⟩
    · next sysId _ =>
      obtain ⟨v?, hv⟩ := firstValue?_isOk h sysId c.column [lc.requested, lc.fallback]
      exact ⟨_, bind_eq_ok.2 ⟨v?, hv, rfl⟩⟩

/-- The edges of a record can be read where their link table is there. -/
theorem edgesOf_isOk {linkTable : Ident} (h : ∃ t, n.table linkTable = .ok t) (localized : Bool)
    (base : Row) : ∃ edges, n.edgesOf lc linkTable localized base = .ok edges := by
  obtain ⟨t, ht⟩ := h
  unfold edgesOf
  rw [ht]
  dsimp only [bind, Except.bind]
  split
  · exact ⟨_, rfl⟩
  · split <;> exact ⟨_, rfl⟩

/-- What succeeds for every element succeeds for a list. -/
theorem filterMapM_isOk {α β : Type} {f : α → Except StoreFault (Option β)}
    (h : ∀ x, ∃ y, f x = .ok y) : ∀ xs : List α, ∃ ys, xs.filterMapM f = .ok ys
  | [] => ⟨[], by rw [List.filterMapM_nil]; rfl⟩
  | x :: xs => by
    obtain ⟨y?, hy⟩ := h x
    obtain ⟨ys, hys⟩ := filterMapM_isOk h xs
    rw [List.filterMapM_cons]
    cases y? with
    | none => exact ⟨ys, bind_eq_ok.2 ⟨none, hy, hys⟩⟩
    | some y => exact ⟨y :: ys, bind_eq_ok.2 ⟨some y, hy, bind_eq_ok.2 ⟨ys, hys, rfl⟩⟩⟩

mutual

/-- A node has a document where its relations stand. -/
theorem document_isOk : ∀ (node : PlanNode) (base : Row), n.Stands node.relations →
    ∃ j, n.document lc base node = .ok j
  | .mk source localized fields, base, h => by
    rw [relations_mk] at h
    obtain ⟨members, hmembers⟩ :=
      fieldDocuments_isOk (h source.table.name (List.mem_cons_self ..)) fields base
        (h.mono fun _ => List.mem_cons_of_mem _)
    rw [document]
    exact ⟨_, bind_eq_ok.2 ⟨members, hmembers, rfl⟩⟩

/-- Fields have members where the table of their node and what they read stand. -/
theorem fieldDocuments_isOk {table : Ident} {localized : Bool} (htable : ∃ t, n.table table = .ok t) :
    ∀ (fields : List PlanField) (base : Row), n.Stands (fieldRelations fields) →
      ∃ members, n.fieldDocuments lc table localized base fields = .ok members
  | [], _, _ => ⟨[], by rw [fieldDocuments]; rfl⟩
  | .value c type :: rest, base, h => by
    obtain ⟨v, hv⟩ : ∃ v, n.resolveValue lc table localized c base = .ok v :=
      resolveValue_isOk htable localized c base
    obtain ⟨members, hrest⟩ := fieldDocuments_isOk htable rest base
      (h.mono fun _ => mem_fieldRelations_value.2)
    rw [fieldDocuments]
    exact ⟨_, bind_eq_ok.2 ⟨v, hv, bind_eq_ok.2 ⟨members, hrest, rfl⟩⟩⟩
  | .link c target :: rest, base, h => by
    obtain ⟨v, hv⟩ : ∃ v, n.resolveValue lc table localized c base = .ok v :=
      resolveValue_isOk htable localized c base
    obtain ⟨members, hrest⟩ := fieldDocuments_isOk htable rest base
      (h.mono fun _ hm => mem_fieldRelations_link.2 (.inr hm))
    have hlink := linkDocument?_isOk target
      (h.mono fun _ hm => mem_fieldRelations_link.2 (.inl hm))
    rw [fieldDocuments, hv]
    dsimp only [bind, Except.bind]
    cases v.toText? with
    | none => exact ⟨_, bind_eq_ok.2 ⟨members, hrest, rfl⟩⟩
    | some id =>
      obtain ⟨j?, hj⟩ := hlink id
      dsimp only
      rw [hj]
      exact ⟨_, bind_eq_ok.2 ⟨members, hrest, rfl⟩⟩
  | .links c linkTable target :: rest, base, h => by
    obtain ⟨edges, hedges⟩ : ∃ edges, n.edgesOf lc linkTable.name c.localized base = .ok edges :=
      edgesOf_isOk (h linkTable.name (mem_fieldRelations_links.2 (.inl rfl))) c.localized base
    obtain ⟨members, hrest⟩ := fieldDocuments_isOk htable rest base
      (h.mono fun _ hm => mem_fieldRelations_links.2 (.inr (.inr hm)))
    have hlink := linkDocument?_isOk target
      (h.mono fun _ hm => mem_fieldRelations_links.2 (.inr (.inl hm)))
    obtain ⟨items, hitems⟩ :=
      filterMapM_isOk hlink (edges.filterMap fun e => e.text? Column.targetSysId)
    rw [fieldDocuments]
    exact ⟨_, bind_eq_ok.2 ⟨edges, hedges, bind_eq_ok.2 ⟨items, hitems,
      bind_eq_ok.2 ⟨members, hrest, rfl⟩⟩⟩⟩

/-- A link shows something where the relations of its target stand. -/
theorem linkDocument?_isOk : ∀ (target : LinkPlan), n.Stands (linkRelations target) →
    ∀ id, ∃ j?, n.linkDocument? lc id target = .ok j?
  | .stub, _, id => ⟨_, by rw [linkDocument?]; rfl⟩
  | .expand (.mk source localized fields), h, id => by
    have hnode : n.Stands (PlanNode.mk source localized fields).relations := h
    have htable := hnode source.table.name (relations_mk .. ▸ List.mem_cons_self ..)
    obtain ⟨row?, hrow⟩ := findRow?_isOk htable id lc.default
    rw [linkDocument?, show (PlanNode.mk source localized fields).source = source from rfl, hrow]
    cases row? with
    | none => exact ⟨none, rfl⟩
    | some row =>
      obtain ⟨j, hj⟩ := document_isOk (.mk source localized fields) row hnode
      exact ⟨some j, map_eq_ok.2 ⟨j, hj, rfl⟩⟩

end

/-- The cells of a result can be made where the table of the root is there. -/
theorem fieldCells_isOk {table : Ident} {localized : Bool} {base : Row}
    (htable : ∃ t, n.table table = .ok t) : ∀ (fields : List PlanField) (row : Row),
      ∃ row', n.fieldCells lc table localized base fields row = .ok row'
  | [], row => ⟨row, by rw [fieldCells]; rfl⟩
  | f :: rest, row => by
    rw [fieldCells]
    split
    · obtain ⟨v, hv⟩ : ∃ v, n.resolveValue lc table localized f.column base = .ok v :=
        resolveValue_isOk htable localized f.column base
      obtain ⟨row', hrest⟩ := fieldCells_isOk htable rest (row.insert f.column.column v)
      exact ⟨row', bind_eq_ok.2 ⟨v, hv, hrest⟩⟩
    · exact fieldCells_isOk htable rest row

end Namespace

end ContentReplica
