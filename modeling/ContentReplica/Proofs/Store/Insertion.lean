import ContentReplica.Proofs.Store.Contents
import ContentReplica.Proofs.Store.Frame

/-!
# Insertions that went through

An insertion is refused when one of its identities is there already, so one that went through added
its rows to those that were there (`Mirror.of_insert`), whatever these were.
-/

namespace ContentReplica

namespace Table.Holds

variable {t t' : Table} {columns : List ColumnDef} {rows : Row → Prop} {name : String}

/-- A row that was inserted came to those that were there. -/
theorem of_insertRow (h : t.Holds columns rows) (hkey : KeyedById columns) {values : List Value}
    (hfit : FitsColumns columns values) (hrun : t.insertRow name columns values = .ok t') :
    t'.Holds columns fun r => r = Row.ofCells columns values ∨ rows r := by
  obtain ⟨key, hid⟩ := hfit.identity
  by_cases hnew : ∀ r, rows r → r.cell Column.id ≠ (Row.ofCells columns values).cell Column.id
  · obtain ⟨t'', hrun', h'⟩ := h.insertRow hkey name hfit hnew
    rwa [Except.ok.inj (hrun.symm.trans hrun')]
  -- a row with its identity is there, and the insertion is refused
  · push Not at hnew
    obtain ⟨r, hr, he⟩ := hnew
    have hthere : t.rows.contains key = true :=
      SortedMap.contains_eq_true.2 ⟨r, (h.get?_iff key r).2 ⟨hr, he.trans hid⟩⟩
    unfold Table.insertRow at hrun
    rw [fullRow_of_fits h.columns_eq hfit] at hrun
    dsimp only [bind, Except.bind] at hrun
    rw [h.keyOf hkey hid] at hrun
    dsimp only at hrun
    rw [if_pos hthere] at hrun
    cases hrun

/-- Rows that were inserted came to those that were there. -/
theorem of_insertRows (hkey : KeyedById columns) :
    ∀ {values : List (List Value)} {t : Table} {rows : Row → Prop}, t.Holds columns rows →
      (∀ v ∈ values, FitsColumns columns v) →
      values.foldlM (Table.insertRow name columns) t = .ok t' →
      t'.Holds columns fun r => r ∈ values.map (Row.ofCells columns) ∨ rows r
  | [], t, rows, h, _, hrun => by
    obtain rfl := pure_eq_ok.1 hrun
    exact h.congr fun r => by simp
  | v :: values, t, rows, h, hfit, hrun => by
    rw [List.foldlM_cons] at hrun
    obtain ⟨t₁, hfirst, hrest⟩ := bind_eq_ok.1 hrun
    have h₁ := h.of_insertRow hkey (hfit v (List.mem_cons_self ..)) hfirst
    have h' := of_insertRows hkey h₁ (fun v hv => hfit v (List.mem_cons_of_mem _ hv)) hrest
    refine h'.congr fun r => ?_
    rw [List.map_cons, List.mem_cons]
    tauto

end Table.Holds

section
variable {s : Schema} {base n n' : Namespace} {contents : Contents}

/-- Rows that were inserted into a table that holds content came to those that were there. -/
theorem Mirror.of_insert (h : Mirror s base n contents) (hfree : s.CollisionFree)
    (name : QualifiedName) {columns : List ColumnDef} (hx : (name.name, columns) ∈ s.contentTables)
    {values : List (List Value)} (hfit : ∀ v ∈ values, FitsColumns columns v)
    (hrun : n.insert name columns values = .ok n') :
    Mirror s base n' fun name' row =>
      (name' = name.name ∧ row ∈ values.map (Row.ofCells columns)) ∨ contents name' row := by
  obtain ⟨t, ht, hold⟩ := h.table_eq_ok hx
  unfold Namespace.insert at hrun
  rw [ht] at hrun
  dsimp only [bind, Except.bind] at hrun
  rw [Table.checkColumns_self hold.columns_eq] at hrun
  dsimp only at hrun
  obtain ⟨t', hrows, hrun⟩ := bind_eq_ok.1 hrun
  obtain rfl := pure_eq_ok.1 hrun
  have hold' := hold.of_insertRows (Schema.keyedById hx) hfit hrows
  refine (h.withTable hfree hx hold').congr fun name' _ row => ?_
  by_cases hname : name' = name.name
  · subst hname
    rw [Function.update_self, and_iff_right rfl]
  · rw [Function.update_of_ne hname]
    exact (or_iff_right fun he => hname he.1).symm

end

end ContentReplica
