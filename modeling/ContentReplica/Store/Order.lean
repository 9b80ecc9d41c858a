import ContentReplica.Sql.Call
import ContentReplica.Store.Condition

/-!
# Sorting rows

`insertionSort` is a stable sort: an element goes behind all earlier ones that it is not smaller
than. `Value.compareNullsLast` is the order of one column, with NULL behind everything in either
direction.
-/

namespace ContentReplica

/-- Put an element into a list in descending order, in front of all it is not smaller than. -/
def sink {α : Type} (lt : α → α → Bool) (x : α) : List α → List α
  | [] => [x]
  | y :: rest => if lt x y then y :: sink lt x rest else x :: y :: rest

/-- Sort a list, keeping the order of equal elements. -/
def insertionSort {α : Type} (lt : α → α → Bool) (xs : List α) : List α :=
  (xs.foldl (fun sorted x => sink lt x sorted) []).reverse

/-- The order of two values in one direction, NULL last and incomparable values equal. -/
def Value.compareNullsLast (descending : Bool) (a b : Value) : Ordering :=
  match a.isNull, b.isNull with
  | true, true => .eq
  | true, false => .gt
  | false, true => .lt
  | false, false =>
    let o := (a.compare? b).getD .eq
    if descending then o.swap else o

/-- The order of two rows by the terms, the first that differs deciding. -/
def Row.compareBy : List OrderTerm → Row → Row → Ordering
  | [], _, _ => .eq
  | t :: rest, a, b =>
    (Value.compareNullsLast t.descending (a.cell t.column) (b.cell t.column)).then
      (compareBy rest a b)

end ContentReplica
