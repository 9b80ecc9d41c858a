import ContentReplica.Json

/-!
# The tables of a TOML document

A document is built from its lines one after the other. `Item` is what stands under a key, and
remembers how a table came to be (`Origin`), for that decides whether a later line may extend it: a
table has one header at most, and a table with a header is not extended by dotted keys.
-/

namespace ContentReplica.Toml

/-- How a table came to be. -/
inductive Origin where
  /-- By its own header. -/
  | header
  /-- As part of the header of another table. -/
  | path
  /-- As part of a dotted key. -/
  | dottedKey
  deriving DecidableEq

/-- What stands under a key. -/
inductive Item where
  | value (json : Json)
  | table (origin : Origin) (members : List (String × Item))
  /-- The tables of one name, the last one first. -/
  | tables (last : List (String × Item)) (before : List (List (String × Item)))

/-- The members of a table. -/
abbrev Members := List (String × Item)

namespace Members

/-- The item under a key. -/
def find? (m : Members) (key : String) : Option Item :=
  (List.find? (fun e => e.1 == key) m).map Prod.snd

/-- The members with the item under a key replaced. -/
def put (m : Members) (key : String) (item : Item) : Members :=
  (m.filter fun e => e.1 != key) ++ [(key, item)]

/-- Change the table that a header path leads to, from table to table and into the last table of a
name; tables that are missing are made. -/
def within (change : Members → Option Members) : List String → Members → Option Members
  | [], m => change m
  | key :: path, m =>
    match m.find? key with
    | none => (within change path []).map fun inner => m.put key (.table .path inner)
    | some (.table origin inner) =>
      (within change path inner).map fun inner => m.put key (.table origin inner)
    | some (.tables last before) =>
      (within change path last).map fun last => m.put key (.tables last before)
    | some (.value _) => none

/-- Make the table of a header. -/
def openTable (key : String) (m : Members) : Option Members :=
  match m.find? key with
  | none => some (m.put key (.table .header []))
  | some (.table .path inner) => some (m.put key (.table .header inner))
  | _ => none

/-- Make one more table of a name. -/
def addTable (key : String) (m : Members) : Option Members :=
  match m.find? key with
  | none => some (m.put key (.tables [] []))
  | some (.tables last before) => some (m.put key (.tables [] (last :: before)))
  | _ => none

/-- Put a value under a dotted key, in a table that came to be by a dotted key or in the one that
the line belongs to. -/
def assign (value : Json) : List String → String → Members → Option Members
  | [], key, m =>
    match m.find? key with
    | none => some (m.put key (.value value))
    | some _ => none
  | step :: path, key, m =>
    match m.find? step with
    | none => (assign value path key []).map fun inner => m.put step (.table .dottedKey inner)
    | some (.table .dottedKey inner) =>
      (assign value path key inner).map fun inner => m.put step (.table .dottedKey inner)
    | some (.table .path inner) =>
      if path.isEmpty then none
      else (assign value path key inner).map fun inner => m.put step (.table .path inner)
    | some (.tables last before) =>
      if path.isEmpty then none
      else (assign value path key last).map fun last => m.put step (.tables last before)
    | some (.table .header _) | some (.value _) => none

end Members

mutual

/-- The JSON value of an item. -/
def Item.toJson : Item → Json
  | .value json => json
  | .table _ members => .mkObj (membersJson members)
  | .tables last before => .arr ((tablesJson before).reverse ++ [.mkObj (membersJson last)])

/-- The JSON values of the members of a table. -/
def membersJson : List (String × Item) → List (String × Json)
  | [] => []
  | (key, item) :: rest => (key, item.toJson) :: membersJson rest

/-- The JSON values of some tables. -/
def tablesJson : List (List (String × Item)) → List Json
  | [] => []
  | members :: rest => .mkObj (membersJson members) :: tablesJson rest

end

/-! ## Lines -/

/-- A line of a document; a key is the path to it and its last part. -/
inductive Line where
  | header (path : List String) (key : String)
  | arrayHeader (path : List String) (key : String)
  | assignment (path : List String) (key : String) (value : Json)

/-- A document under construction: its members, and the path of the last header. -/
structure Draft where
  members : Members
  current : List String

/-- The document after one more line. -/
def Draft.add (d : Draft) : Line → Option Draft
  | .header path key =>
    (d.members.within (Members.openTable key) path).map fun m => ⟨m, path ++ [key]⟩
  | .arrayHeader path key =>
    (d.members.within (Members.addTable key) path).map fun m => ⟨m, path ++ [key]⟩
  | .assignment path key value =>
    (d.members.within (Members.assign value path key) d.current).map fun m => ⟨m, d.current⟩

/-- The document that some lines make. -/
def document? (lines : List Line) : Option Json :=
  (lines.foldlM Draft.add ⟨[], []⟩).map fun d => .mkObj (membersJson d.members)

/-- The inline table that some assignments make. -/
def inlineTable? (assignments : List (List String × String × Json)) : Option Json :=
  (assignments.foldlM (fun m (path, key, value) => Members.assign value path key m)
    ([] : Members)).map fun m => .mkObj (membersJson m)

end ContentReplica.Toml
