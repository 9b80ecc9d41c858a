import ContentReplica.Proofs.Query.Answers
import ContentReplica.Store.Order
import Mathlib.Data.String.Basic

/-!
# The order of rows

Rows are in order when the first term on which they differ says so, with NULL behind everything in
either direction (`Row.InOrder`). The comparison of the store takes incomparable values for equal ones,
so it can go wrong. On columns that hold one kind of value, or NULL, it does not: sorting puts the rows
in order (`Row.pairwise_inOrder`).
-/

namespace ContentReplica

/-! ## Values -/

namespace Value

/-- A kind of values that have an order. -/
inductive Kind where
  | int
  | text
  | bool
  deriving DecidableEq

/-- The value is of the given kind, or NULL. -/
def isOfKind : Kind → Value → Bool
  | _, null => true
  | .int, int _ | .text, text _ | .bool, bool _ => true
  | _, _ => false

/-- The values are NULL or of one kind. -/
def OneKind (values : List Value) : Prop := ∃ kind, ∀ v ∈ values, v.isOfKind kind = true

/-- The order of values of one kind: of numbers, of texts, and false before true. -/
inductive Less : Value → Value → Prop
  | int {a b : Int} : a < b → Less (int a) (int b)
  | text {a b : String} : a < b → Less (text a) (text b)
  | bool : Less (bool false) (bool true)

/-- The first value comes before the second in one direction, NULL behind everything. -/
def Ahead (descending : Bool) (a b : Value) : Prop :=
  a.isNull = false ∧ (b.isNull = true ∨ if descending then b.Less a else a.Less b)

variable {descending : Bool} {a b c : Value} {kind : Kind}

/-- The order of values is transitive. -/
theorem Less.trans (h : a.Less b) (h' : b.Less c) : a.Less c := by
  cases h with
  | int h =>
    cases h' with
    | int h' => exact .int (Int.lt_trans h h')
  | text h =>
    cases h' with
    | text h' => exact .text (lt_trans h h')
  | bool => cases h'

/-- Coming before is transitive in either direction. -/
theorem Ahead.trans (h : Ahead descending a b) (h' : Ahead descending b c) :
    Ahead descending a c := by
  obtain ⟨ha, hb | hab⟩ := h
  · rw [h'.1] at hb
    cases hb
  · refine ⟨ha, h'.2.imp_right fun hbc => ?_⟩
    cases descending with
    | true => exact Less.trans hbc hab
    | false => exact Less.trans hab hbc

/-- The outcome of a comparison tells which of two values is less. -/
def Tells (a b : Value) : Ordering → Prop
  | .lt => a.Less b
  | .eq => a = b
  | .gt => b.Less a

/-- Values of one kind compare by their order. -/
theorem compare?_tells (ha : a.isOfKind kind = true) (hb : b.isOfKind kind = true)
    (hnull : a.isNull = false) (hnull' : b.isNull = false) :
    ∃ o, a.compare? b = some o ∧ Tells a b o := by
  cases a <;> cases b <;> cases kind <;> try contradiction
  case int.int x y =>
    refine ⟨_, rfl, ?_⟩
    cases h : compare x y with
    | lt => exact .int (compare_lt_iff_lt.1 h)
    | eq => exact congrArg int (compare_eq_iff_eq.1 h)
    | gt => exact .int (compare_gt_iff_gt.1 h)
  case text.text x y =>
    refine ⟨_, rfl, ?_⟩
    cases h : compare x y with
    | lt => exact .text (compare_lt_iff_lt.1 h)
    | eq => exact congrArg text (compare_eq_iff_eq.1 h)
    | gt => exact .text (compare_gt_iff_gt.1 h)
  case bool.bool x y =>
    refine ⟨_, rfl, ?_⟩
    cases x <;> cases y <;> first | exact rfl | exact .bool

/-- Values of one kind, or NULL, compare by their order in one direction, NULL behind everything. -/
theorem compareNullsLast_cases (descending : Bool) (ha : a.isOfKind kind = true)
    (hb : b.isOfKind kind = true) :
    (compareNullsLast descending a b = .lt ∧ Ahead descending a b) ∨
    (compareNullsLast descending a b = .eq ∧ a = b) ∨
    (compareNullsLast descending a b = .gt ∧ Ahead descending b a) := by
  cases hnull : a.isNull <;> cases hnull' : b.isNull <;>
    simp only [compareNullsLast, Ahead, hnull, hnull']
  · obtain ⟨o, ho, htells⟩ := compare?_tells ha hb hnull hnull'
    rw [ho]
    cases o <;> cases descending <;> simp_all [Tells]
  · simp
  · simp
  · cases a <;> cases b <;> simp_all [isNull]

end Value

/-! ## Rows -/

namespace Row

/-- The first row may stand in front of the second: on the first term on which they differ it comes
before. -/
def InOrder : List OrderTerm → Row → Row → Prop
  | [], _, _ => True
  | t :: rest, a, b => Value.Ahead t.descending (a.cell t.column) (b.cell t.column) ∨
      (a.cell t.column = b.cell t.column ∧ InOrder rest a b)

variable {a b c : Row}

/-- The order of rows is transitive. -/
theorem InOrder.trans : ∀ {order : List OrderTerm}, InOrder order a b → InOrder order b c →
    InOrder order a c
  | [], _, _ => trivial
  | _ :: _, .inl h, .inl h' => .inl (h.trans h')
  | _ :: _, .inl h, .inr ⟨he, _⟩ => .inl (he ▸ h)
  | _ :: _, .inr ⟨he, _⟩, .inl h => .inl (he ▸ h)
  | _ :: _, .inr ⟨he, h⟩, .inr ⟨he', h'⟩ => .inr ⟨he.trans he', h.trans h'⟩

/-- Rows whose columns hold one kind of value compare by their order. -/
theorem compareBy_inOrder : ∀ {order : List OrderTerm},
    (∀ t ∈ order, ∃ kind, (a.cell t.column).isOfKind kind = true ∧
      (b.cell t.column).isOfKind kind = true) →
    if compareBy order a b == .lt then InOrder order a b else InOrder order b a
  | [], _ => trivial
  | t :: rest, h => by
    obtain ⟨⟨kind, ha, hb⟩, hrest⟩ := List.forall_mem_cons.1 h
    have ih := compareBy_inOrder hrest
    rw [compareBy]
    rcases Value.compareNullsLast_cases t.descending ha hb with ⟨ho, h⟩ | ⟨ho, he⟩ | ⟨ho, h⟩
    · rw [ho]
      exact .inl h
    · rw [ho, Ordering.eq_then]
      split at ih
      · next hlt =>
        rw [if_pos hlt]
        exact .inr ⟨he, ih⟩
      · next hlt =>
        rw [if_neg hlt]
        exact .inr ⟨he.symm, ih⟩
    · rw [ho]
      exact .inl h

/-- The columns of an order hold one kind of value each, or NULL. -/
def Comparable (order : List OrderTerm) (rows : List Row) : Prop :=
  ∀ t ∈ order, Value.OneKind (rows.map fun row => row.cell t.column)

/-- Sorting puts rows in order whose columns hold one kind of value each, or NULL. -/
theorem pairwise_inOrder {order : List OrderTerm} {rows : List Row} (h : Comparable order rows) :
    (insertionSort (fun a b => compareBy order a b == .lt) rows).Pairwise (InOrder order) := by
  refine pairwise_insertionSort (InOrder order) InOrder.trans fun a ha b hb => ?_
  refine compareBy_inOrder fun t ht => ?_
  obtain ⟨kind, hkind⟩ := h t ht
  exact ⟨kind, hkind _ (List.mem_map_of_mem ha), hkind _ (List.mem_map_of_mem hb)⟩

end Row

end ContentReplica
