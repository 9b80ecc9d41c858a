import ContentReplica.Digest.Blake3
import ContentReplica.Error

/-!
# Identifiers

`Ident` names a database object. `Ident.new?` accepts the plain form: a lower-case letter or `_`
followed by lower-case letters, digits and `_`, at most 63 bytes. `Ident.sanitize` turns any text
into that form: camel case becomes snake case, other characters become `_`, and a long name keeps
its beginning and gets a digest of the whole text, so that distinct names stay distinct.
-/

namespace ContentReplica

/-- The name of a database object. -/
structure Ident where
  text : String
  deriving DecidableEq, Inhabited

namespace Ident

instance : Ord Ident := ⟨fun a b => compare a.text b.text⟩

instance : Std.TransOrd Ident where
  eq_swap {a b} := show compare a.text b.text = (compare b.text a.text).swap from
    Std.OrientedCmp.eq_swap
  isLE_trans {a b c} := fun hab hbc => show (compare a.text c.text).isLE from
    Std.TransCmp.isLE_trans (show (compare a.text b.text).isLE from hab)
      (show (compare b.text c.text).isLE from hbc)

instance : Std.LawfulEqOrd Ident where
  compare_self {a} := show compare a.text a.text = .eq from Std.ReflCmp.compare_self
  eq_of_compare {a b} h := by
    cases a
    cases b
    rename_i s t
    exact congrArg Ident.mk (Std.LawfulEqCmp.eq_of_compare (show compare s t = .eq from h))

/-- The longest name that the database keeps as it is, in bytes. -/
def maxLength : Nat := 63

/-- Whether a character is an ASCII lower-case letter. -/
def isLower (c : Char) : Bool := 'a' ≤ c && c ≤ 'z'

/-- Whether a character is an ASCII upper-case letter. -/
def isUpper (c : Char) : Bool := 'A' ≤ c && c ≤ 'Z'

/-- Whether a character may begin a name. -/
def isStart (c : Char) : Bool := isLower c || c = '_'

/-- Whether a character may stand in a name. -/
def isPart (c : Char) : Bool := isLower c || isDigitChar c || c = '_'

/-- The plain form of a name. -/
def isPlain (s : String) : Bool :=
  match s.toList with
  | [] => false
  | c :: rest => isStart c && rest.all isPart && s.utf8ByteSize ≤ maxLength

/-- The identifier of a text in plain form. -/
def new? (name : String) : Except Error Ident :=
  if isPlain name then .ok ⟨name⟩ else .error (.identifier name)

/-! ## Sanitizing -/

/-- The lower-case form of an ASCII upper-case letter. -/
def toLower (c : Char) : Char := Char.ofNat (c.toNat + 32)

/-- Go through a text. `afterWord` tells whether the last character was a lower-case letter or a
digit, `afterBar` whether the last character written is `_`. -/
def snake : (afterWord afterBar : Bool) → List Char → List Char
  | _, _, [] => []
  | afterWord, afterBar, c :: rest =>
    if isUpper c then
      if afterWord then '_' :: toLower c :: snake false false rest
      else toLower c :: snake false false rest
    else if isLower c || isDigitChar c then c :: snake true false rest
    else if c = '_' then '_' :: snake false true rest
    else if afterBar then snake false true rest
    else '_' :: snake false true rest

/-- A name that is not made of `_` alone. -/
def named (cs : List Char) : List Char := if cs.all (· = '_') then ['x'] else cs

/-- A name that does not begin with a digit. -/
def afterDigit (cs : List Char) : List Char :=
  match cs with
  | c :: _ => if isDigitChar c then '_' :: cs else cs
  | [] => []

/-- Eight hexadecimal digits that tell texts apart. -/
def tag (raw : String) : List Char := ((Blake3.hash raw.toUTF8.toList).take 4).flatMap Blake3.hexByte

/-- A name of at most 63 characters; a longer one ends in the tag of the text. -/
def shortened (raw : String) (cs : List Char) : List Char :=
  if maxLength < cs.length then cs.take (maxLength - 8 - 1) ++ '_' :: tag raw else cs

/-- The identifier of any text. -/
def sanitize (raw : String) : Ident :=
  ⟨String.ofList (shortened raw (afterDigit (named (snake false false raw.toList))))⟩

/-- The identifier with a text appended, shortened if needed. -/
def withSuffix (i : Ident) (suffix : String) : Ident := sanitize (i.text ++ suffix)

/-- The name between double quotes. -/
def quoted (i : Ident) : String := "\"" ++ i.text ++ "\""

/-- Names between double quotes, separated by commas. -/
def quotedList (idents : List Ident) : String := ", ".intercalate (idents.map quoted)

end Ident

/-- The name of an object in a namespace. -/
structure QualifiedName where
  namespaceName : Ident
  name : Ident
  deriving DecidableEq, Inhabited

namespace QualifiedName

/-- The name as plain text. -/
def text (q : QualifiedName) : String := q.namespaceName.text ++ "." ++ q.name.text

/-- Both parts between double quotes. -/
def quoted (q : QualifiedName) : String := q.namespaceName.quoted ++ "." ++ q.name.quoted

/-- The object of the same name in another namespace. -/
def within (q : QualifiedName) (namespaceName : Ident) : QualifiedName := ⟨namespaceName, q.name⟩

end QualifiedName

/-- A trusted text as a literal in a definition; a quote inside is written twice. -/
def quoteLiteral (s : String) : String :=
  "'" ++ String.ofList (s.toList.flatMap fun c => if c = '\x27' then [c, c] else [c]) ++ "'"

end ContentReplica
