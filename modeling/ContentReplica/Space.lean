import ContentReplica.Error
import ContentReplica.Json.Decoder

/-!
# Spaces and their locales

A `Space` owns an ordered list of locales, one of them the default. A locale is addressed by its code
or an alias and may name a fallback, the locale consulted when a value is missing; without one the
default is consulted.

`Space.fallbackChain` is the walk from a locale along its fallbacks to the default locale, and
`Space.validate` accepts a space when it has one default locale, no code or alias twice and such a
walk from every locale.
-/

namespace ContentReplica

/-- A locale of a space. -/
structure Locale where
  code : String
  name : String
  isDefault : Bool
  fallback? : Option String
  aliases : List String
  deriving DecidableEq, Inhabited

namespace Locale

/-- A locale without fallback and aliases, named by its code. -/
def new (code : String) (isDefault : Bool) : Locale := ⟨code, code, isDefault, none, []⟩

/-- The code of a locale and its aliases. -/
def codes (l : Locale) : List String := l.code :: l.aliases

/-- Whether a code addresses the locale. -/
def answersTo (l : Locale) (code : String) : Bool := l.codes.contains code

end Locale

/-- A tenant's space. -/
structure Space where
  id : String
  name : String
  locales : List Locale
  deriving DecidableEq, Inhabited

namespace Space

/-! ## Looking up locales -/

/-- The word by which a request asks for the default locale. -/
def defaultKeyword : String := "default"

/-- The default locale. -/
def defaultLocale (s : Space) : Except Error Locale :=
  match s.locales.find? (·.isDefault) with
  | some l => .ok l
  | none => .error (.space .noDefault)

/-- The locale that answers to a code. -/
def locale? (s : Space) (code : String) : Option Locale := s.locales.find? (·.answersTo code)

/-- The canonical code for a code or alias. -/
def canonical? (s : Space) (code : String) : Option String := (s.locale? code).map Locale.code

/-- The canonical codes in the order of the space. -/
def localeCodes (s : Space) : List String := s.locales.map Locale.code

/-- The locale of a request; no code and the word `default` mean the default locale. -/
def resolve (s : Space) : Option String → Except Error Locale
  | none => s.defaultLocale
  | some code =>
    if code = defaultKeyword then s.defaultLocale
    else
      match s.locale? code with
      | some l => .ok l
      | none => .error (.localeNotFound code)

/-- The locale that a locale falls back to: the declared one, or the default locale. -/
def fallbackLocale (s : Space) (l : Locale) : Except Error Locale :=
  match l.fallback? with
  | some code =>
    match s.locale? code with
    | some next => .ok next
    | none => .error (.space (.unknownFallback code))
  | none => s.defaultLocale

/-- The canonical code of the locale that a locale falls back to. -/
def fallbackOf (s : Space) (code : String) : Except Error String := do
  let l ← s.resolve (some code)
  return (← s.fallbackLocale l).code

/-! ## The fallback chain -/

/-- Walk along the fallbacks to the locale with the default code. `visited` holds the codes met so
far, the latest first; meeting one again is a cycle. A walk meets each code of the space once at
most, so as many steps as there are locales, and one more, always settle it. -/
def walk (s : Space) (defaultCode : String) : Nat → List String → Locale →
    Except Error (List String)
  | 0, _, l => .error (.space (.fallbackCycle l.code))
  | fuel + 1, visited, l => do
    if visited.contains l.code then throw (.space (.fallbackCycle l.code))
    if l.code = defaultCode then return (l.code :: visited).reverse
    s.walk defaultCode fuel (l.code :: visited) (← s.fallbackLocale l)

/-- The codes in which a value is looked up for a locale, ending at the default locale. -/
def fallbackChain (s : Space) (code : String) : Except Error (List String) := do
  let default ← s.defaultLocale
  let start ← s.resolve (some code)
  s.walk default.code (s.locales.length + 1) [] start

/-! ## Validity -/

/-- All codes and aliases, in the order of the space. -/
def allCodes (s : Space) : List String := s.locales.flatMap Locale.codes

/-- The first element that occurs again after earlier ones. -/
def firstRepeated? : List String → List String → Option String
  | _, [] => none
  | seen, c :: rest => if seen.contains c then some c else firstRepeated? (c :: seen) rest

/-- Check that there is one default locale, that codes and aliases are distinct, and that every
locale has a fallback chain. -/
def validate (s : Space) : Except Error Unit := do
  let defaults := s.locales.countP (·.isDefault)
  if defaults ≠ 1 then throw (.space (.defaultCount defaults))
  match firstRepeated? [] s.allCodes with
  | some code => throw (.space (.codeTwice code))
  | none => pure ()
  s.locales.forM fun l => do
    let _ ← s.fallbackChain l.code

end Space

/-! ## JSON -/

namespace Locale

/-- A locale from its JSON form. -/
def decode? (j : Json) : Option Locale := do
  let r ← j.record? ["code", "name", "default", "fallbackCode", "aliases"]
  return ⟨← r.field? "code" Json.text?, ← r.fieldD? "name" Json.text? "",
    ← r.fieldD? "default" Json.bool? false, ← r.optional? "fallbackCode" Json.text?,
    ← r.fieldD? "aliases" (Json.list? Json.text?) []⟩

/-- A locale in JSON. -/
def encode (l : Locale) : Json :=
  .obj [("code", .str l.code), ("name", .str l.name), ("default", .bool l.isDefault),
    ("fallbackCode", .ofText? l.fallback?), ("aliases", .arr (l.aliases.map .str))]

end Locale

namespace Space

/-- A space from its JSON form. -/
def decode? (j : Json) : Option Space := do
  let r ← j.record? ["id", "name", "locales"]
  return ⟨← r.field? "id" Json.text?, ← r.fieldD? "name" Json.text? "",
    ← r.field? "locales" (Json.list? Locale.decode?)⟩

/-- A space in JSON. -/
def encode (s : Space) : Json :=
  .obj [("id", .str s.id), ("name", .str s.name), ("locales", .arr (s.locales.map Locale.encode))]

end Space

end ContentReplica
