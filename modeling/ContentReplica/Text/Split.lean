/-!
# Pieces of a text

`pieces sep` cuts a list at every occurrence of a separator, as `List.splitOn` does
(`pieces_eq_splitOn`), so a list without one is a single piece.
-/

namespace ContentReplica.Text

variable {α : Type} [DecidableEq α]

/-- The pieces between the separators; always at least one. -/
def pieces (sep : α) : List α → List (List α)
  | [] => [[]]
  | x :: rest =>
    if x = sep then [] :: pieces sep rest
    else
      match pieces sep rest with
      | [] => [[x]]
      | piece :: more => (x :: piece) :: more

/-- There is always a piece. -/
theorem pieces_ne_nil (sep : α) (xs : List α) : pieces sep xs ≠ [] := by
  cases xs with
  | nil => simp [pieces]
  | cons x rest =>
    rw [pieces]
    split
    · simp
    · split <;> simp

/-- The pieces of a list are those of `List.splitOn`. -/
theorem pieces_eq_splitOn (sep : α) (xs : List α) : pieces sep xs = xs.splitOn sep := by
  induction xs with
  | nil => rfl
  | cons x xs ih =>
    rw [pieces, List.splitOn_cons_eq_if_modifyHead, ← ih]
    by_cases hx : x = sep
    · rw [if_pos hx, if_pos (beq_iff_eq.2 hx)]
    · rw [if_neg hx, if_neg (mt beq_iff_eq.1 hx)]
      cases h : pieces sep xs with
      | nil => exact absurd h (pieces_ne_nil sep xs)
      | cons piece more => rfl

/-- The pieces of a text between occurrences of a character. -/
def splitText (sep : Char) (s : String) : List String :=
  (pieces sep s.toList).map String.ofList

end ContentReplica.Text
