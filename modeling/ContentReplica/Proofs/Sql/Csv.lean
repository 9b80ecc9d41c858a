import ContentReplica.Sql.Csv

/-!
# Reading comma-separated values

`Csv.parse?` reads records of comma-separated fields, each record ended by a newline. A field
between quotes may hold commas and newlines, and a doubled quote in it stands for one; an empty
field without quotes is NULL. The reader goes from character to character and knows where in a field
it stands (`Csv.Place`). It reads what is written between quotes (`Csv.read_replaced`), hence a
field (`Csv.read_field`), a record (`Csv.read_record`) and a list of rows (`Csv.read_rows`).

A record without fields would be read as one NULL, so rows have at least one column.
-/

namespace ContentReplica.Csv

/-! ## The reader -/

/-- Where a reader stands in a field, and the text of the field so far. -/
inductive Place where
  /-- At the beginning. -/
  | start
  /-- In a field without quotes. -/
  | bare (text : List Char)
  /-- Between quotes. -/
  | quoted (text : List Char)
  /-- Behind a quote that ends the field, or that is the first of a doubled quote. -/
  | closed (text : List Char)

/-- The value of a field that ends here, none if it cannot end here. -/
def Place.value? : Place → Option (Option String)
  | .start => some none
  | .bare text | .closed text => some (some (String.ofList text))
  | .quoted _ => none

/-- The place behind a character of the field. -/
def Place.read (c : Char) : Place → Option Place
  | .start => some (if c = '"' then .quoted [] else .bare [c])
  | .bare text => if c = '"' then none else some (.bare (text ++ [c]))
  | .quoted text => some (if c = '"' then .closed text else .quoted (text ++ [c]))
  | .closed text => if c = '"' then some (.quoted (text ++ [c])) else none

/-- A reader with the fields of its record and the records before it. -/
structure Reader where
  place : Place
  fields : List (Option String)
  records : List (List (Option String))

/-- A character inside a field. -/
def Reader.stay (r : Reader) (c : Char) : Option Reader := do
  return { r with place := ← r.place.read c }

/-- Reads a character. A comma or a newline ends the field where it can end. -/
def Reader.read (r : Reader) (c : Char) : Option Reader :=
  match r.place.value? with
  | none => r.stay c
  | some value =>
    if c = ',' then some ⟨.start, r.fields ++ [value], r.records⟩
    else if c = '\n' then some ⟨.start, [], r.records ++ [r.fields ++ [value]]⟩
    else r.stay c

/-- The records of a text, none if it is not well-formed. -/
def parse? (s : String) : Option (List (List (Option String))) :=
  match s.toList.foldlM Reader.read ⟨.start, [], []⟩ with
  | some ⟨.start, [], records⟩ => some records
  | _ => none

/-! ## What is written is read -/

section
variable {fields : List (Option String)} {records : List (List (Option String))}

/-- A text with its quotes doubled is read as itself. -/
theorem read_replaced (cs text : List Char) :
    (Text.replaced '"' ['"', '"'] cs).foldlM Reader.read ⟨.quoted text, fields, records⟩
      = some ⟨.quoted (text ++ cs), fields, records⟩ := by
  induction cs generalizing text with
  | nil => simp
  | cons c cs ih =>
    by_cases hc : c = '"'
    · subst hc
      simp [Reader.read, Reader.stay, Place.value?, Place.read, ih]
    · simp [Reader.read, Reader.stay, Place.value?, Place.read, hc, ih]

/-- A field is read to a place where it can end, with the text of its value. -/
theorem read_field (v : Value) (fields : List (Option String))
    (records : List (List (Option String))) :
    ∃ place,
      (field v).foldlM Reader.read ⟨.start, fields, records⟩ = some ⟨place, fields, records⟩ ∧
      place.value? = some v.toText? := by
  unfold field
  cases hv : v.toText? with
  | none => exact ⟨.start, rfl, rfl⟩
  | some s =>
    refine ⟨.closed s.toList, ?_, by simp [Place.value?]⟩
    simp [quoteField, Reader.read, Reader.stay, Place.value?, Place.read, read_replaced]

/-- A record of one field. -/
theorem record_singleton (v : Value) : record [v] = field v ++ ['\n'] := by
  simp [record]

/-- A record of more fields. -/
theorem record_cons_cons (v w : Value) (row : List Value) :
    record (v :: w :: row) = field v ++ ',' :: record (w :: row) := by
  simp [record, List.intercalate]

/-- The rest of a record is read to its end. -/
theorem read_record (v : Value) (row : List Value) (fields : List (Option String)) :
    (record (v :: row)).foldlM Reader.read ⟨.start, fields, records⟩
      = some ⟨.start, [], records ++ [fields ++ (v :: row).map Value.toText?]⟩ := by
  induction row generalizing v fields with
  | nil =>
    obtain ⟨place, hread, hvalue⟩ := read_field v fields records
    simp [record_singleton, hread, Reader.read, hvalue]
  | cons w row ih =>
    obtain ⟨place, hread, hvalue⟩ := read_field v fields records
    simp [record_cons_cons, hread, Reader.read, hvalue, ih]

/-- Rows are read one after the other. -/
theorem read_rows {rows : List (List Value)} (h : ∀ row ∈ rows, row ≠ []) :
    (rows.flatMap record).foldlM Reader.read ⟨.start, [], records⟩
      = some ⟨.start, [], records ++ rows.map fun row => row.map Value.toText?⟩ := by
  induction rows generalizing records with
  | nil => simp
  | cons row rows ih =>
    obtain ⟨hrow, hrows⟩ := List.forall_mem_cons.1 h
    obtain ⟨v, row, rfl⟩ := List.exists_cons_of_ne_nil hrow
    simp [read_record, ih hrows]

end

/-- Rows that are encoded together are encoded one list after the other. -/
theorem encode_append (rows more : List (List Value)) :
    encode (rows ++ more) = encode rows ++ encode more := by
  simp [encode, String.ofList_append]

/-- What is encoded in parts is what is encoded at once. -/
theorem encode_flatten (parts : List (List (List Value))) :
    String.join (parts.map encode) = encode parts.flatten := by
  induction parts with
  | nil => rfl
  | cons rows parts ih => simp [encode_append, ih]

/-- Encoded rows are read back as the texts of their values, NULL where a value has no text, and
rows that are encoded in parts are encoded as at once. -/
theorem encode_lossless :
    (∀ rows : List (List Value), (∀ row ∈ rows, row ≠ []) →
      parse? (encode rows) = some (rows.map fun row => row.map Value.toText?)) ∧
    (∀ rows more : List (List Value), encode (rows ++ more) = encode rows ++ encode more) ∧
    (∀ parts : List (List (List Value)),
      String.join (parts.map encode) = encode parts.flatten) := by
  refine ⟨fun rows h => ?_, encode_append, encode_flatten⟩
  rw [parse?, encode, String.toList_ofList, read_rows h]
  rfl

/-- A text with quotes, a comma and a newline, an array of texts, an empty text and NULL, also alone
in a record, are told apart. -/
theorem encode_lossless_catalog :
    let rows : List (List Value) :=
      [[.text "say \"hi\",\nok", .null, .text ""], [.array [.text "a\"b", .null]], [.null],
        [.text ""]]
    (∀ row ∈ rows, row ≠ []) ∧
    parse? (encode rows) = some
      [[some "say \"hi\",\nok", none, some ""], [some "\x7b\"a\\\"b\",NULL\x7d"], [none],
        [some ""]] := by
  intro rows
  have hrows : ∀ row ∈ rows, row ≠ [] := by simp [rows]
  refine ⟨hrows, (encode_lossless.1 rows hrows).trans ?_⟩
  rfl

end ContentReplica.Csv
