import ContentReplica.Sql.Template

/-!
# Placeholders of a statement text

`placeholders` reads a text from left to right and gives the number behind every `$`. A template whose
own text has no `$` is rendered with the placeholders 1, 2 and so on, one for each value that is bound
(`Rendered.Numbered`). The text depends on the template's own text and on the types of the values
alone (`Template.sqlFrom_congr`), so no value becomes part of it.
-/

namespace ContentReplica

/-! ## Reading a text -/

/-- The numbers of the placeholders of a text from left to right: behind each `$` the digits that
follow, zero if there are none. -/
def placeholders : List Char → List Nat
  | [] => []
  | c :: cs =>
    if c = '$' then Nat.ofDigitChars 10 (cs.takeWhile Char.isDigit) 0 :: placeholders cs
    else placeholders cs

/-- The placeholders of a text number its values from left to right. -/
def Rendered.Numbered (r : Rendered) : Prop :=
  placeholders r.sql.toList = List.range' 1 r.params.length

/-- A text without placeholders, and without a sign that begins one. -/
def Unnumbered (s : String) : Prop := '$' ∉ s.toList

instance (s : String) : Decidable (Unnumbered s) := inferInstanceAs (Decidable ('$' ∉ s.toList))

/-- In front of a text without placeholders nothing is added. -/
theorem placeholders_append {cs : List Char} (h : '$' ∉ cs) (rest : List Char) :
    placeholders (cs ++ rest) = placeholders rest := by
  induction cs with
  | nil => rfl
  | cons c cs ih =>
    rw [List.mem_cons, not_or] at h
    rw [List.cons_append, placeholders, if_neg fun he => h.1 he.symm, ih h.2]

namespace Unnumbered

variable {s s' : String}

@[simp] theorem append_iff : Unnumbered (s ++ s') ↔ Unnumbered s ∧ Unnumbered s' := by
  simp [Unnumbered, not_or]

/-- Texts with one between them have no placeholders if none of them has. -/
theorem intercalate (h : Unnumbered s) : ∀ {ss : List String}, (∀ s' ∈ ss, Unnumbered s') →
    Unnumbered (s.intercalate ss)
  | [], _ => by simp [Unnumbered]
  | [s'], hs => by simpa using hs
  | s' :: t :: ss, hs => by
    obtain ⟨hs', hss⟩ := List.forall_mem_cons.1 hs
    rw [String.intercalate_cons_cons, append_iff, append_iff]
    exact ⟨⟨hs', h⟩, intercalate h hss⟩

/-- A type is written without placeholders. -/
@[simp] theorem ddl : ∀ t : SqlType, Unnumbered t.ddl
  | .text | .integer | .decimal | .date | .point | .boolean | .jsonb => by decide
  | .array element => append_iff.2 ⟨ddl element, by decide⟩

/-- A number is written in digits. -/
@[simp] theorem repr (n : Nat) : Unnumbered n.repr := by
  unfold Unnumbered
  rw [Nat.toList_repr]
  intro h
  exact absurd (Nat.isDigit_of_mem_toDigits (by decide) (by decide) h) (by decide)

end Unnumbered

/-! ## Rendering -/

namespace Template

/-- The placeholder of a number is read as the number. -/
theorem placeholders_placeholder (n : Nat) (type : SqlType) (rest : List Char) :
    placeholders ((placeholder n type).toList ++ rest) = n :: placeholders rest := by
  have hdigits : ((toString n).toList ++ ("::" ++ type.ddl).toList ++ rest).takeWhile Char.isDigit
      = Nat.toDigits 10 n := by
    rw [Nat.toString_eq_repr, Nat.toList_repr, List.append_assoc, List.takeWhile_append_of_pos
      fun c hc => Nat.isDigit_of_mem_toDigits (by decide) (by decide) hc]
    rw [String.toList_append]
    exact List.append_nil _
  have htext : (placeholder n type).toList
      = '$' :: ((toString n).toList ++ ("::" ++ type.ddl).toList) := by
    unfold placeholder
    rw [String.append_assoc, String.append_assoc, String.toList_append, String.toList_append]
    rfl
  have hrest : Unnumbered (toString n ++ ("::" ++ type.ddl)) := by simp +decide
  rw [htext, List.cons_append, placeholders, if_pos rfl, hdigits, Nat.ofDigitChars_ten_toDigits,
    ← String.toList_append, placeholders_append hrest]

/-- The text of a template has no placeholders of its own. -/
def Fixed (t : Template) : Prop := ∀ s, .text s ∈ t → Unnumbered s

section
variable {t t' : Template} {s : String} {v : Value} {type : SqlType}

@[simp] theorem fixed_nil : Fixed [] := fun _ h => absurd h List.not_mem_nil

@[simp] theorem fixed_text : Fixed (.text s :: t) ↔ Unnumbered s ∧ t.Fixed := by
  simp [Fixed]

@[simp] theorem fixed_bind : Fixed (.bind v type :: t) ↔ t.Fixed := by
  simp [Fixed]

@[simp] theorem fixed_lit : (lit s).Fixed ↔ Unnumbered s := by
  simp [lit]

@[simp] theorem fixed_value : (value v type).Fixed := fixed_bind.2 fixed_nil

@[simp] theorem fixed_append : Fixed (t ++ t') ↔ t.Fixed ∧ t'.Fixed := by
  simp only [Fixed, List.mem_append, or_imp, forall_and]

/-- Templates with a text between them have no placeholders of their own if none of them has. -/
theorem Fixed.join (hs : Unnumbered s) : ∀ {ts : List Template}, (∀ t ∈ ts, t.Fixed) →
    (Template.join s ts).Fixed
  | [], _ => fixed_nil
  | [t], h => h t (List.mem_singleton_self t)
  | t :: t' :: ts, h => by
    obtain ⟨ht, hts⟩ := List.forall_mem_cons.1 h
    exact fixed_append.2 ⟨ht, fixed_text.2 ⟨hs, .join hs hts⟩⟩

/-- The placeholders of a rendered template are numbered in the order of its values. -/
theorem placeholders_sqlFrom : ∀ {t : Template}, t.Fixed → ∀ n,
    placeholders (t.sqlFrom n).toList = List.range' n t.params.length
  | [], _, _ => rfl
  | .text s :: t, h, n => by
    obtain ⟨hs, ht⟩ := fixed_text.1 h
    rw [sqlFrom, params, String.toList_append, placeholders_append hs, placeholders_sqlFrom ht]
  | .bind v type :: t, h, n => by
    rw [sqlFrom, params, String.toList_append, placeholders_placeholder,
      placeholders_sqlFrom (fixed_bind.1 h),
      List.length_cons, List.range'_succ]

/-- A rendered template numbers its values. -/
theorem Fixed.numbered (h : t.Fixed) : t.render.Numbered := placeholders_sqlFrom h 1

end

/-! ## What the text depends on -/

/-- A template with its values taken out. -/
def skeleton (t : Template) : Template :=
  t.map fun
    | .text s => .text s
    | .bind _ type => .bind .null type

section
variable {t t' : Template} {s : String} {v : Value} {type : SqlType}

@[simp] theorem skeleton_text : skeleton (.text s :: t) = .text s :: t.skeleton := rfl

@[simp] theorem skeleton_append : (t ++ t').skeleton = t.skeleton ++ t'.skeleton := List.map_append

/-- Taking the values out goes template by template. -/
theorem skeleton_join (separator : String) :
    ∀ ts : List Template, (join separator ts).skeleton = join separator (ts.map skeleton)
  | [] => rfl
  | [_] => rfl
  | t :: t' :: ts => by
    change (t ++ .text separator :: join separator (t' :: ts)).skeleton = _
    rw [skeleton_append, skeleton_text, skeleton_join separator (t' :: ts)]
    rfl

/-- The text does not depend on the values. -/
theorem sqlFrom_skeleton : ∀ (t : Template) (n : Nat), t.skeleton.sqlFrom n = t.sqlFrom n
  | [], _ => rfl
  | .text s :: t, n => congrArg (s ++ ·) (sqlFrom_skeleton t n)
  | .bind _ type :: t, n => congrArg (placeholder n type ++ ·) (sqlFrom_skeleton t (n + 1))

/-- Templates that differ in their values alone have one text. -/
theorem sqlFrom_congr (h : t.skeleton = t'.skeleton) (n : Nat) : t.sqlFrom n = t'.sqlFrom n := by
  rw [← sqlFrom_skeleton, h, sqlFrom_skeleton]

@[simp] theorem params_text : params (.text s :: t) = t.params := rfl

@[simp] theorem params_bind : params (.bind v type :: t) = v :: t.params := rfl

@[simp] theorem params_lit : (lit s).params = [] := rfl

@[simp] theorem params_value : (value v type).params = [v] := rfl

@[simp] theorem params_append : ∀ {t : Template}, (t ++ t').params = t.params ++ t'.params
  | [] => rfl
  | .text _ :: t => params_append (t := t)
  | .bind v _ :: t => congrArg (v :: ·) (params_append (t := t))

/-- The values of templates with a text between them. -/
theorem params_join (separator : String) :
    ∀ ts : List Template, (join separator ts).params = ts.flatMap params
  | [] => rfl
  | [t] => (List.flatMap_singleton ..).symm
  | t :: t' :: ts => by
    change (t ++ .text separator :: join separator (t' :: ts)).params = _
    rw [params_append, params_text, params_join separator (t' :: ts), ← List.flatMap_cons]

/-- The text of two templates in a row. -/
theorem sqlFrom_append : ∀ (t t' : Template) (n : Nat),
    (t ++ t').sqlFrom n = t.sqlFrom n ++ t'.sqlFrom (n + t.params.length)
  | [], _, _ => (String.empty_append).symm
  | .text s :: t, t', n => by
    rw [List.cons_append, sqlFrom, sqlFrom, params_text, sqlFrom_append t t' n,
      String.append_assoc]
  | .bind v type :: t, t', n => by
    rw [List.cons_append, sqlFrom, sqlFrom, params_bind, sqlFrom_append t t' (n + 1),
      String.append_assoc, List.length_cons, Nat.add_assoc, Nat.add_comm 1]

end

end Template

end ContentReplica
