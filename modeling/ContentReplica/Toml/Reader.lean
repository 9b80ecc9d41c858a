import ContentReplica.Toml.Document
import ContentReplica.Toml.Scalar

/-!
# Reading TOML

`Toml.parse?` reads a TOML 1.0 document to a JSON object. Arrays and inline tables may be nested, and
keys may be dotted, below a depth of `maxNesting`.
-/

namespace ContentReplica.Toml

/-- The depth that arrays, inline tables and dotted keys stay below. -/
def maxNesting : Nat := 80

/-! ## Keys -/

/-- Whether a character may stand in a key without quotes. -/
def isBareKey (c : Char) : Bool :=
  ('a' ≤ c && c ≤ 'z') || ('A' ≤ c && c ≤ 'Z') || isDigitChar c || c = '-' || c = '_'

/-- Read one part of a key. -/
def readKeyPart? (cs : List Char) : Option (String × List Char) :=
  let bare := cs.takeWhile isBareKey
  if bare.isEmpty then readPlainString? cs
  else some (String.ofList bare, cs.dropWhile isBareKey)

/-- Read a key: parts separated by points, blanks around each, the last part apart. -/
def readKey? : Nat → List Char → Option (List String × String × List Char)
  | 0, _ => none
  | depth + 1, cs => do
    let (part, rest) ← readKeyPart? (skipBlanks cs)
    match skipBlanks rest with
    | '.' :: rest =>
      let (path, key, rest) ← readKey? depth rest
      return (part :: path, key, rest)
    | rest => return ([], part, rest)

/-! ## Values -/

/-- The text after a comment, if there is one. -/
def skipComment : List Char → List Char
  | '#' :: rest => rest.dropWhile isText
  | cs => cs

/-- The text after blanks, comments and line breaks. -/
def skipSpace : Nat → List Char → List Char
  | 0, cs => cs
  | fuel + 1, cs =>
    let cs := skipBlanks cs
    match lineBreak? (skipComment cs) with
    | some rest => skipSpace fuel rest
    | none => cs

mutual

/-- Read a value; `depth` bounds the nesting and `fuel` the length. -/
def readValue? : Nat → Nat → List Char → Option (Json × List Char)
  | 0, _, _ => none
  | fuel + 1, depth, cs =>
    match cs with
    | '"' :: _ | '\x27' :: _ => (readString? cs).map fun (s, rest) => (.str s, rest)
    | '[' :: rest =>
      if depth = 0 then none
      else (readItems? fuel (depth - 1) rest).map fun (items, rest) => (.arr items, rest)
    | '\x7b' :: rest =>
      if depth = 0 then none
      else
        match skipBlanks rest with
        | '\x7d' :: rest => some (.obj [], rest)
        | rest =>
          (readAssignments? fuel (depth - 1) rest).bind fun (assignments, rest) =>
            (inlineTable? assignments).map fun table => (table, rest)
    | _ => readWord? cs

/-- Read the items of an array and its closing bracket; a comma may follow the last item. -/
def readItems? : Nat → Nat → List Char → Option (List Json × List Char)
  | 0, _, _ => none
  | fuel + 1, depth, cs =>
    match skipSpace cs.length cs with
    | ']' :: rest => some ([], rest)
    | cs =>
      (readValue? fuel depth cs).bind fun (item, rest) =>
        match skipSpace rest.length rest with
        | ',' :: rest =>
          (readItems? fuel depth rest).map fun (items, rest) => (item :: items, rest)
        | ']' :: rest => some ([item], rest)
        | _ => none

/-- Read the assignments of an inline table and its closing brace. -/
def readAssignments? :
    Nat → Nat → List Char → Option (List (List String × String × Json) × List Char)
  | 0, _, _ => none
  | fuel + 1, depth, cs =>
    (readKey? maxNesting cs).bind fun (path, key, rest) =>
      match skipBlanks rest with
      | '=' :: rest =>
        (readValue? fuel depth (skipBlanks rest)).bind fun (value, rest) =>
          match skipBlanks rest with
          | ',' :: rest =>
            (readAssignments? fuel depth rest).map fun (more, rest) =>
              ((path, key, value) :: more, rest)
          | '\x7d' :: rest => some ([(path, key, value)], rest)
          | _ => none
      | _ => none

end

/-! ## Lines -/

/-- Read what stands on a line before its comment. -/
def readLine (cs : List Char) : Option (Line × List Char) :=
  match cs with
  | '[' :: '[' :: rest => do
    let (path, key, rest) ← readKey? maxNesting rest
    match rest with
    | ']' :: ']' :: rest => return (.arrayHeader path key, rest)
    | _ => none
  | '[' :: rest => do
    let (path, key, rest) ← readKey? maxNesting rest
    match rest with
    | ']' :: rest => return (.header path key, rest)
    | _ => none
  | _ => do
    let (path, key, rest) ← readKey? maxNesting cs
    let value ← expect? '=' rest
    let (json, rest) ← readValue? (2 * value.length + 2) (maxNesting - 1) (skipBlanks value)
    return (.assignment path key json, rest)

/-- Read all lines of a document. -/
def readDocument? : Nat → List Char → Option (List Line)
  | 0, _ => none
  | fuel + 1, cs =>
    match skipSpace cs.length cs with
    | [] => some []
    | '#' :: rest => if rest.all isText then some [] else none
    | cs => do
      let (line, rest) ← readLine cs
      match skipComment (skipBlanks rest) with
      | [] => return [line]
      | rest => return line :: (← readDocument? fuel (← lineBreak? rest))

/-- The JSON object of a TOML document. -/
def parse? (text : String) : Option Json :=
  let cs :=
    match text.toList with
    | '\ufeff' :: rest => rest
    | cs => cs
  (readDocument? (cs.length + 1) cs).bind document?

end ContentReplica.Toml
