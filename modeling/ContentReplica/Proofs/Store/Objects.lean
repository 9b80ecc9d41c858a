import ContentReplica.Proofs.Store.Frame

/-!
# What a batch creates

Inside a namespace only a `createTable` brings a table (`Namespace.applyAll_tables`), and only a
`createIndex` an index: after a batch whose indexes have names of their own, each of them is there and
belongs to its table (`Namespace.applyAll_indexes`).
-/

namespace ContentReplica

namespace Statement

/-- The table that a statement creates unless it is there. -/
def createdTable? : Statement → Option Ident
  | createTable t => some t.name.name
  | _ => none

/-- The index that a statement creates, with its table. -/
def createdIndex? : Statement → Option (Ident × Ident)
  | createIndex i => some (i.name, i.table.name)
  | _ => none

end Statement

namespace Namespace

variable {n n' : Namespace} {name : Ident} {s : Statement} {batch : List Statement}

/-- A table in the place of another brings none. -/
theorem contains_withTable {table table' : Table} (h : n.table name = .ok table) (other : Ident) :
    (n.withTable name table').tables.contains other = n.tables.contains other := by
  have hold : n.tables.get? name = some table := by
    unfold Namespace.table at h
    split at h
    · next hget =>
      obtain rfl := Except.ok.inj h
      exact hget
    · cases h
  rw [Bool.eq_iff_iff, SortedMap.contains_eq_true, SortedMap.contains_eq_true, withTable,
    SortedMap.get?_insert_eq]
  by_cases he : other = name
  · rw [he, if_pos rfl, hold]
    exact ⟨fun _ => ⟨_, rfl⟩, fun _ => ⟨_, rfl⟩⟩
  · rw [if_neg he]

/-- A statement inside a namespace that creates no table leaves the namespace with the same tables by
name, and one that creates no index with the same indexes. -/
theorem apply_data (h : n.apply s = .ok n') :
    (s.createdTable? = none → ∀ name, n'.tables.contains name = n.tables.contains name) ∧
      (s.createdIndex? = none → n'.indexes = n.indexes) := by
  cases s with
  | createTable t =>
    obtain rfl := Except.ok.inj h
    refine ⟨nofun, fun _ => ?_⟩
    unfold createTable
    split <;> rfl
  | createIndex i =>
    obtain ⟨table, -, h⟩ := bind_eq_ok.1 h
    obtain ⟨_, -, h⟩ := bind_eq_ok.1 h
    obtain rfl := pure_eq_ok.1 h
    exact ⟨fun _ _ => rfl, nofun⟩
  | createDeleteTrigger t | createFunction plan =>
    obtain ⟨_, -, h⟩ := bind_eq_ok.1 h
    obtain rfl := pure_eq_ok.1 h
    exact ⟨fun _ _ => rfl, fun _ => rfl⟩
  | upsert table columns rows conflict =>
    obtain ⟨t, ht, h⟩ := bind_eq_ok.1 h
    obtain ⟨_, -, h⟩ := bind_eq_ok.1 h
    split at h
    · cases h
    · obtain ⟨t', -, h⟩ := bind_eq_ok.1 h
      obtain rfl := pure_eq_ok.1 h
      exact ⟨fun _ => contains_withTable ht, fun _ => rfl⟩
  | insert table columns rows | copyIn table columns rows =>
    obtain ⟨t, ht, h⟩ := bind_eq_ok.1 h
    obtain ⟨_, -, h⟩ := bind_eq_ok.1 h
    obtain ⟨t', -, h⟩ := bind_eq_ok.1 h
    obtain rfl := pure_eq_ok.1 h
    exact ⟨fun _ => contains_withTable ht, fun _ => rfl⟩
  | delete table predicate =>
    obtain ⟨t, ht, h⟩ := bind_eq_ok.1 h
    obtain ⟨hcontains, hindexes⟩ := foldlM_preserves
      (P := fun n' => (∀ name, n'.tables.contains name = n.tables.contains name) ∧
        n'.indexes = n.indexes) (fun n₁ link n₂ _ hn₁ hstep => by
          obtain ⟨edges, hedges, hstep⟩ := bind_eq_ok.1 hstep
          obtain rfl := pure_eq_ok.1 hstep
          exact ⟨fun name => (contains_withTable hedges name).trans (hn₁.1 name), hn₁.2⟩)
      ⟨contains_withTable ht, rfl⟩ h
    exact ⟨fun _ => hcontains, fun _ => hindexes⟩
  | saveSyncToken name token =>
    obtain ⟨t, ht, h⟩ := bind_eq_ok.1 h
    obtain rfl := pure_eq_ok.1 h
    exact ⟨fun _ => contains_withTable ht, fun _ => rfl⟩
  | _ =>
    obtain rfl := Except.ok.inj h
    exact ⟨fun _ _ => rfl, fun _ => rfl⟩

/-- After a statement there is the table that it creates, besides those that were there. -/
theorem apply_tables (h : n.apply s = .ok n') : n'.tables.contains name = true ↔
    n.tables.contains name = true ∨ s.createdTable? = some name := by
  cases hcreated : s.createdTable? with
  | none => simp [(apply_data h).1 hcreated]
  | some created =>
    cases s with
    | createTable t =>
      obtain rfl := Except.ok.inj h
      obtain rfl := Option.some.inj hcreated
      unfold createTable
      split
      · next hold =>
        exact (or_iff_left_of_imp fun he => Option.some.inj he ▸ hold).symm
      · rw [SortedMap.contains_eq_true, SortedMap.contains_eq_true, withTable,
          SortedMap.get?_insert_eq, Option.some.injEq]
        by_cases he : name = t.name.name
        · simp [he]
        · simp [he, Ne.symm he]
    | _ => cases hcreated

/-- After a batch there are the tables that its statements create, besides those that were there. -/
theorem applyAll_tables (h : n.applyAll batch = .ok n') : n'.tables.contains name = true ↔
    n.tables.contains name = true ∨ name ∈ batch.filterMap Statement.createdTable? := by
  induction batch generalizing n with
  | nil =>
    obtain rfl := pure_eq_ok.1 h
    simp
  | cons s batch ih =>
    obtain ⟨n₁, hfirst, hrest⟩ := applyAll_cons.1 h
    rw [ih hrest, apply_tables hfirst, or_assoc, List.mem_filterMap, List.mem_filterMap]
    simp

/-- A statement that creates an index enters it with its table. -/
theorem apply_indexes {created : Ident × Ident} (h : n.apply s = .ok n')
    (hcreated : s.createdIndex? = some created) :
    n'.indexes = n.indexes.insert created.1 created.2 := by
  cases s with
  | createIndex i =>
    obtain rfl := Option.some.inj hcreated
    obtain ⟨t, -, h⟩ := bind_eq_ok.1 h
    obtain ⟨_, -, h⟩ := bind_eq_ok.1 h
    obtain rfl := pure_eq_ok.1 h
    rfl
  | _ => cases hcreated

/-- After a batch whose indexes have names of their own, and new ones, there are these indexes with their
tables, besides those that were there. -/
theorem applyAll_indexes (h : n.applyAll batch = .ok n')
    (hnodup : ((batch.filterMap Statement.createdIndex?).map Prod.fst).Nodup)
    (hnew : ∀ i ∈ batch.filterMap Statement.createdIndex?, n.indexes.get? i.1 = none)
    {name table : Ident} : n'.indexes.get? name = some table ↔
      n.indexes.get? name = some table ∨
        (name, table) ∈ batch.filterMap Statement.createdIndex? := by
  induction batch generalizing n with
  | nil =>
    obtain rfl := pure_eq_ok.1 h
    simp
  | cons s batch ih =>
    obtain ⟨n₁, hfirst, hrest⟩ := applyAll_cons.1 h
    cases hcreated : s.createdIndex? with
    | none =>
      rw [List.filterMap_cons_none hcreated] at hnodup hnew ⊢
      have hsame := (apply_data hfirst).2 hcreated
      rw [← hsame] at hnew ⊢
      exact ih hrest hnodup hnew
    | some created =>
      rw [List.filterMap_cons_some hcreated] at hnodup hnew ⊢
      rw [List.map_cons, List.nodup_cons] at hnodup
      have hfree := hnew created (List.mem_cons_self ..)
      have hfirst' := apply_indexes hfirst hcreated
      rw [ih hrest hnodup.2 fun j hj => ?_, hfirst', SortedMap.get?_insert_eq, List.mem_cons,
        Prod.ext_iff]
      · by_cases he : name = created.1
        · rw [he, if_pos rfl, hfree]
          simp [eq_comm]
        · simp [he]
      · -- The rest of the batch does not create the same index again.
        have hne : j.1 ≠ created.1 := fun he => hnodup.1 (he ▸ List.mem_map_of_mem hj)
        rw [hfirst', SortedMap.get?_insert_of_ne _ _ hne]
        exact hnew j (List.mem_cons_of_mem _ hj)

end Namespace

end ContentReplica
