import ContentReplica.Sql.Value

/-!
# Reading array literals

`ArrayLiteral.parse?` reads the text of an array: elements between braces with commas between them,
each the word NULL or a text between quotes, in which a backslash makes the character behind it
literal. The reader goes from character to character and knows where it stands
(`ArrayLiteral.Place`). It reads a quoted text (`ArrayLiteral.read_escaped`), hence an element
(`ArrayLiteral.read_element`) and the elements of an array (`ArrayLiteral.read_elements`).
-/

namespace ContentReplica.ArrayLiteral

/-! ## The reader -/

/-- Where a reader stands in a literal, and the text of the element so far. -/
inductive Place where
  /-- In front of the opening brace. -/
  | start
  /-- Behind the opening brace. -/
  | opened
  /-- At the beginning of an element behind a comma. -/
  | element
  /-- In an element without quotes. -/
  | word (text : List Char)
  /-- Between quotes. -/
  | quoted (text : List Char)
  /-- Behind a backslash between quotes. -/
  | escaped (text : List Char)
  /-- Behind the closing quote. -/
  | closed (text : List Char)
  /-- Behind the closing brace. -/
  | done

/-- The value of an element that ends here, none if it cannot end here. -/
def Place.value? : Place → Option (Option String)
  | .word text => if text = "NULL".toList then some none else none
  | .closed text => some (some (String.ofList text))
  | _ => none

/-- The place behind a character that does not end an element. -/
def Place.read (c : Char) : Place → Option Place
  | .start => if c = '\x7b' then some .opened else none
  | .opened | .element => some (if c = '"' then .quoted [] else .word [c])
  | .word text => some (.word (text ++ [c]))
  | .quoted text =>
    if c = '"' then some (.closed text)
    else if c = '\\' then some (.escaped text)
    else some (.quoted (text ++ [c]))
  | .escaped text => some (.quoted (text ++ [c]))
  | .closed _ | .done => none

/-- A reader with the elements before the one it reads. -/
structure Reader where
  place : Place
  elements : List (Option String)

/-- A character that does not end an element. -/
def Reader.stay (r : Reader) (c : Char) : Option Reader := do
  return { r with place := ← r.place.read c }

/-- Reads a character. A comma or the closing brace ends an element where it can end; an array
without elements is closed where it was opened. -/
def Reader.read (r : Reader) (c : Char) : Option Reader :=
  match r.place.value?, r.place with
  | some value, _ =>
    if c = ',' then some ⟨.element, r.elements ++ [value]⟩
    else if c = '\x7d' then some ⟨.done, r.elements ++ [value]⟩
    else r.stay c
  | none, .opened => if c = '\x7d' then some ⟨.done, r.elements⟩ else r.stay c
  | none, _ => r.stay c

/-- The elements of an array literal, none if it is not well-formed. -/
def parse? (s : String) : Option (List (Option String)) :=
  match s.toList.foldlM Reader.read ⟨.start, []⟩ with
  | some ⟨.done, elements⟩ => some elements
  | _ => none

/-! ## What is written is read -/

section
variable {elements : List (Option String)}

/-- A text with its backslashes and then its quotes escaped is read as itself: the backslashes that
the second replacement adds are not escaped again. -/
theorem read_escaped (cs text : List Char) :
    (Text.replaced '"' ['\\', '"'] (Text.replaced '\\' ['\\', '\\'] cs)).foldlM Reader.read
        ⟨.quoted text, elements⟩
      = some ⟨.quoted (text ++ cs), elements⟩ := by
  induction cs generalizing text with
  | nil => simp
  | cons c cs ih =>
    by_cases hback : c = '\\'
    · subst hback
      simp [Reader.read, Reader.stay, Place.value?, Place.read, ih]
    · by_cases hquote : c = '"'
      · subst hquote
        simp [Reader.read, Reader.stay, Place.value?, Place.read, ih]
      · simp [Reader.read, Reader.stay, Place.value?, Place.read, hback, hquote, ih]

/-- The text of an element as it stands in a literal. -/
def elementText : Option String → String
  | none => "NULL"
  | some s => Value.quoteElement s

/-- Texts with commas between them. -/
theorem toList_intercalate (s s' : String) (ss : List String) :
    (",".intercalate (s :: s' :: ss)).toList
      = s.toList ++ ',' :: (",".intercalate (s' :: ss)).toList := by
  rw [String.intercalate_cons_cons, String.toList_append, String.toList_append, List.append_assoc]
  rfl

/-- A place where an element may begin. -/
def Place.Begins (p : Place) : Prop := p = .opened ∨ p = .element

/-- An element is read to a place where it can end. -/
theorem read_element {p : Place} (hp : p.Begins) (value : Option String)
    (elements : List (Option String)) :
    ∃ q, (elementText value).toList.foldlM Reader.read ⟨p, elements⟩ = some ⟨q, elements⟩ ∧
      q.value? = some value := by
  cases value with
  | none =>
    refine ⟨.word "NULL".toList, ?_, rfl⟩
    obtain rfl | rfl := hp <;> rfl
  | some s =>
    refine ⟨.closed s.toList, ?_, by simp [Place.value?]⟩
    obtain rfl | rfl := hp <;>
      simp [elementText, Value.quoteElement, Reader.read, Reader.stay, Place.value?, Place.read,
        read_escaped]

/-- The elements that remain are read to the end of the array. -/
theorem read_elements {p : Place} (hp : p.Begins) (v : Option String)
    (values elements : List (Option String)) :
    ((",".intercalate ((v :: values).map elementText)).toList ++ ['\x7d']).foldlM Reader.read
        ⟨p, elements⟩
      = some ⟨.done, elements ++ v :: values⟩ := by
  induction values generalizing p v elements with
  | nil =>
    obtain ⟨q, hread, hvalue⟩ := read_element hp v elements
    simp [hread, Reader.read, hvalue]
  | cons w values ih =>
    obtain ⟨q, hread, hvalue⟩ := read_element hp v elements
    have hcomma : Reader.read ⟨q, elements⟩ ',' = some ⟨.element, elements ++ [v]⟩ := by
      simp [Reader.read, hvalue]
    simp only [List.map_cons] at ih ⊢
    rw [toList_intercalate, List.append_assoc, List.foldlM_append, hread, Option.bind_eq_bind,
      Option.bind_some, List.cons_append, List.foldlM_cons, hcomma, Option.bind_eq_bind,
      Option.bind_some, ih (.inr rfl), List.append_assoc, List.singleton_append]

end

/-- A literal is read back as the texts it was written from. -/
theorem parse?_literal (values : List (Option String)) :
    parse? ("\x7b" ++ ",".intercalate (values.map elementText) ++ "\x7d") = some values := by
  cases values with
  | nil => rfl
  | cons v values =>
    have hopen : "\x7b".toList.foldlM Reader.read ⟨.start, []⟩ = some ⟨.opened, []⟩ := rfl
    have hclose : "\x7d".toList = ['\x7d'] := rfl
    rw [parse?, String.toList_append, String.toList_append, hclose, List.append_assoc,
      List.foldlM_append, hopen, Option.bind_eq_bind, Option.bind_some, read_elements (.inl rfl)]
    rfl

/-- The elements of an array are written one by one. -/
theorem elementTexts_eq : ∀ xs : List Value,
    Value.elementTexts xs = (xs.map Value.toText?).map elementText
  | [] => rfl
  | v :: xs => by
    rw [Value.elementTexts, elementTexts_eq xs, List.map_cons, List.map_cons]
    cases v.toText? <;> rfl

/-- The text of an array is read back as the texts of its elements. -/
theorem parse?_array (xs : List Value) :
    (Value.array xs).toText?.bind parse? = some (xs.map Value.toText?) := by
  rw [Value.toText?, Option.bind_some, elementTexts_eq, parse?_literal]

/-- The text of an array is read back as the texts of its elements, NULL where an element has no
text. So text elements come back unchanged whatever they hold, and an array without elements is told
from an array of one empty text. -/
theorem array_lossless :
    (∀ xs : List Value, (Value.array xs).toText?.bind parse? = some (xs.map Value.toText?)) ∧
    (∀ texts : List String,
      (Value.array (texts.map .text)).toText?.bind parse? = some (texts.map some)) ∧
    (Value.array []).toText? ≠ (Value.array [.text ""]).toText? := by
  refine ⟨parse?_array, fun texts => ?_, fun h => ?_⟩
  · rw [parse?_array, List.map_map]
    rfl
  · have hparsed := congrArg (·.bind parse?) h
    simp [parse?_array] at hparsed

/-- The word NULL as a text is told from NULL, and an array inside an array comes back as its
text. -/
example : (Value.array [.text "NULL", .null, .array [.text "a\"b"]]).toText?.bind parse?
    = some [some "NULL", none, some "\x7b\"a\\\"b\"\x7d"] := by
  rfl

end ContentReplica.ArrayLiteral
