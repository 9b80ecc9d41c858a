import ContentReplica.Proofs.Plan.Nodes
import ContentReplica.Proofs.Schema.Search
import ContentReplica.Views.Definitions

/-!
# Who depends on a table

Where a plan reads a table within some references, the content type of the plan is a dependent of that
of the table within as many (`Schema.Reads.mem_dependents`). So the types that a publication affects
include all whose documents read the published table (`Replica.exists_affectedTypes`).
-/

namespace ContentReplica

namespace Schema

variable {s : Schema}

/-- The content type of a table with a link is a reader of the target of the link. -/
theorem mem_readers {t next : TableLayout} (ht : t ∈ s.allTables) {f : FieldLayout} (hf : f ∈ t.fields)
    {target : LinkTarget} (htarget : f.target? = some target)
    (hnext : s.targetTable? target = some next) :
    t.contentType ∈ Dependents.readers s.references next.contentType := by
  have hnode : target.node? = some next.contentType := by
    cases target with
    | contentType id => exact congrArg some (entryTable?_eq_some hnext).2.symm
    | asset =>
      obtain rfl := Option.some.inj hnext
      rfl
    | unresolved reason => cases hnext
  obtain ⟨reference, hreference, howner, hreferenceTarget⟩ :
      ∃ reference, t.reference? f = some reference ∧ reference.owner = t.contentType ∧
        reference.target = target := by
    unfold FieldLayout.target? at htarget
    unfold TableLayout.reference?
    cases hplacement : f.placement <;> rw [hplacement] at htarget <;> cases htarget <;>
      exact ⟨_, rfl, rfl, rfl⟩
  -- The table of assets has no links, so the reader is a content type.
  have hmem : t ∈ s.tables := by
    rcases List.mem_append.1 ht with ht | ht
    · exact ht
    · obtain rfl := List.mem_singleton.1 ht
      obtain ⟨g, -, rfl⟩ := List.mem_map.1 hf
      cases htarget
  unfold Dependents.readers
  rw [← howner]
  refine List.mem_map_of_mem (List.mem_filter.2 ⟨?_, decide_eq_true (hreferenceTarget ▸ hnode)⟩)
  exact List.mem_flatMap.2 ⟨t, hmem, List.mem_filterMap.2 ⟨f, hf, hreference⟩⟩

/-- The content type of a table that reads another depends on that of the other. -/
theorem Reads.mem_dependents {k : Nat} {t t' : TableLayout} (h : s.Reads k t t')
    (ht : t ∈ s.allTables) : t.contentType ∈ (s.dependents t'.contentType k).keys := by
  rw [dependents, Dependents.closure_eq]
  -- One more round for each reference that is read along.
  induction h with
  | self k t => exact Dependents.self_mem_within k
  | step hf htarget hnext _ ih =>
    exact Dependents.mem_expand.2
      (.inr ⟨_, ih (targetTable?_mem hnext), mem_readers ht hf htarget hnext⟩)

end Schema

/-- A publication affects the content types of all tables that read the published one. -/
theorem Replica.exists_affectedTypes (r : Replica) (depth : Nat) {published : TableLayout}
    (hpublished : published ∈ r.schema.allTables) :
    ∃ types, r.affectedTypes depth published.contentType = .ok types ∧
      ∀ k ≤ depth, ∀ t ∈ r.schema.tables, r.schema.Reads k t published → t.contentType ∈ types := by
  obtain ⟨found, hfound⟩ : ∃ found, r.schema.table? published.contentType = some found := by
    unfold Schema.table?
    split
    · exact ⟨_, rfl⟩
    · next hne =>
      have hmem : published ∈ r.schema.tables := by
        rcases List.mem_append.1 hpublished with h | h
        · exact h
        · obtain rfl := List.mem_singleton.1 h
          exact absurd rfl hne
      exact Option.isSome_iff_exists.1
        (List.find?_isSome.2 ⟨published, hmem, decide_eq_true rfl⟩)
  unfold affectedTypes
  rw [hfound]
  refine ⟨_, rfl, fun k hk t ht hreads => ?_⟩
  have hmem := Dependents.closure_mono hk (hreads.mem_dependents (List.mem_append_left _ ht))
  obtain ⟨v, hv⟩ := SortedMap.mem_keys.1 hmem
  refine SortedMap.mem_keys.2 ⟨v, SortedMap.get?_filter_eq_some.2 ⟨hv, ?_⟩⟩
  exact List.contains_iff_mem.2 (List.mem_map_of_mem ht)

end ContentReplica
