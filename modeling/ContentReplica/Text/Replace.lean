/-!
# Replacement in a text

`replaced c cs text` writes `cs` for every `c` of a text and leaves its other characters as they
are.
-/

namespace ContentReplica.Text

/-- A text with a character replaced wherever it stands. -/
def replaced (c : Char) (cs text : List Char) : List Char :=
  text.flatMap fun d => if d = c then cs else [d]

variable {c : Char} {cs : List Char}

@[simp] theorem replaced_nil : replaced c cs [] = [] := rfl

@[simp] theorem replaced_cons_self (text : List Char) :
    replaced c cs (c :: text) = cs ++ replaced c cs text := by
  simp [replaced]

@[simp] theorem replaced_cons_of_ne {d : Char} (h : d ≠ c) (text : List Char) :
    replaced c cs (d :: text) = d :: replaced c cs text := by
  simp [replaced, h]

end ContentReplica.Text
