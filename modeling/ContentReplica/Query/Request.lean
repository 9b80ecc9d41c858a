import ContentReplica.Error
import ContentReplica.Number.Written
import ContentReplica.Text.Blank
import ContentReplica.Text.Split

/-!
# Query requests

`QueryRequest` asks for a page of documents of one content type. It arrives as decoded pairs of key
and value, `content_type=product&fields.price[gt]=15&order=-price` for instance
(`QueryRequest.ofPairs`), or is built term by term (`QueryRequest.new`, `withFilter`, `withOrder`).
A later pair for the same key replaces an earlier one, save that filters add up.
-/

namespace ContentReplica

/-- How a filter compares. -/
inductive Comparator where
  | eq
  | ne
  | «exists»
  | lt
  | lte
  | gt
  | gte
  | «match»
  | all
  | «in»
  | nin
  deriving DecidableEq

namespace Comparator

/-- The comparator of the given name; no name means equality. -/
def ofName (name : String) : Except QueryFault Comparator :=
  match name with
  | "" | "eq" => .ok eq
  | "ne" => .ok ne
  | "exists" => .ok «exists»
  | "lt" => .ok lt
  | "lte" => .ok lte
  | "gt" => .ok gt
  | "gte" => .ok gte
  | "match" => .ok «match»
  | "all" => .ok all
  | "in" => .ok «in»
  | "nin" => .ok nin
  | other => .error (.unknownComparator other)

/-- The name of a comparator. -/
def name : Comparator → String
  | eq => "eq"
  | ne => "ne"
  | «exists» => "exists"
  | lt => "lt"
  | lte => "lte"
  | gt => "gt"
  | gte => "gte"
  | «match» => "match"
  | all => "all"
  | «in» => "in"
  | nin => "nin"

/-- Whether the comparator takes a list of values, separated by commas. -/
def takesList : Comparator → Bool
  | all | «in» | nin => true
  | _ => false

end Comparator

/-- A filter: a path compared with some values. -/
structure FilterTerm where
  path : String
  comparator : Comparator
  values : List String
  deriving DecidableEq

/-- A path to order by. -/
structure OrderPath where
  path : String
  descending : Bool
  deriving DecidableEq

/-- A request for a page of documents. -/
structure QueryRequest where
  contentType : String := ""
  /-- The locale; without one, or for `default`, the default locale. -/
  locale? : Option String := none
  skip : Nat := 0
  limit? : Option Nat := none
  order : List OrderPath := []
  /-- Carried along for those who embed links. -/
  include? : Option Nat := none
  /-- Carried along for those who select fields. -/
  select : List String := []
  filters : List FilterTerm := []
  deriving DecidableEq

/-! ## Reading keys and values -/

namespace QueryRequest

/-- The path of a field without the qualifier `fields.`. -/
def fieldPath (path : String) : String :=
  let qualifier := "fields.".toList
  if qualifier.isPrefixOf path.toList then String.ofList (path.toList.drop qualifier.length)
  else path

/-- The items of a list separated by commas, without blanks around them and without empty items. -/
def listItems (value : String) : List String :=
  ((Text.splitText ',' value).map Text.trim).filter (· ≠ "")

/-- A path to order by, descending after a minus. -/
def orderPath (term : String) : OrderPath :=
  match term.toList with
  | '-' :: path => ⟨String.ofList path, true⟩
  | _ => ⟨term, false⟩

/-- A count of the given width in bits; blanks around it and a plus before it are allowed. -/
def readCount (key value : String) (bits : Nat) : Except QueryFault Nat :=
  let (plain, digits) :=
    match (Text.trim value).toList with
    | '-' :: rest => (false, rest)
    | '+' :: rest => (true, rest)
    | digits => (true, digits)
  if !plain || digits.isEmpty || !digits.all isDigitChar || Nat.pow 2 bits ≤ digitsValue digits then
    .error (.notACount key value)
  else .ok (digitsValue digits)

/-- The path and the name of the comparator in a key such as `path[name]`. -/
def splitKey (key : String) : Except QueryFault (String × String) :=
  let path := key.toList.takeWhile (· ≠ '[')
  match key.toList.dropWhile (· ≠ '[') with
  | [] => .ok (key, "")
  | _ :: rest =>
    if rest.getLast? = some ']' then .ok (String.ofList path, String.ofList rest.dropLast)
    else .error (.malformedKey key)

/-! ## Building requests -/

/-- A request for the documents of a content type. -/
def new (contentType : String) : QueryRequest := { contentType := contentType }

/-- The request with one more filter. -/
def withFilter (r : QueryRequest) (path : String) (comparator : Comparator)
    (values : List String) : QueryRequest :=
  { r with filters := r.filters ++ [⟨fieldPath path, comparator, values⟩] }

/-- The request with one more path to order by. -/
def withOrder (r : QueryRequest) (path : String) (descending : Bool) : QueryRequest :=
  { r with order := r.order ++ [⟨fieldPath path, descending⟩] }

/-- The request in a locale. -/
def withLocale (r : QueryRequest) (locale : String) : QueryRequest :=
  { r with locale? := some locale }

/-- The request for a page. -/
def withPage (r : QueryRequest) (skip limit : Nat) : QueryRequest :=
  { r with skip := skip, limit? := some limit }

/-! ## Limits -/

/-- The page size when the request names none. -/
def defaultLimit : Nat := 100

/-- The largest page size. -/
def maxLimit : Nat := 1000

/-- The largest number of documents that can be skipped. -/
def maxSkip : Nat := 2147483647

/-- Refuse to skip too many documents. -/
def checkSkip (r : QueryRequest) : Except QueryFault Unit :=
  if maxSkip < r.skip then .error (.skipTooLarge maxSkip r.skip) else .ok ()

/-- The page size, at most the largest one. -/
def take (r : QueryRequest) : Nat := min (r.limit?.getD defaultLimit) maxLimit

/-! ## Reading requests -/

/-- The filter that a pair stands for. -/
def readFilter (key value : String) : Except QueryFault FilterTerm := do
  let (path, name) ← splitKey key
  let comparator ← Comparator.ofName name
  return ⟨fieldPath path, comparator,
    if comparator.takesList then listItems value else [value]⟩

/-- The request with one more pair taken into account. -/
def readPair (r : QueryRequest) (pair : String × String) : Except QueryFault QueryRequest :=
  let (key, value) := pair
  match key with
  | "content_type" => .ok { r with contentType := value }
  | "locale" => .ok { r with locale? := some value }
  | "skip" => do
    let r := { r with skip := ← readCount key value 64 }
    r.checkSkip
    return r
  | "limit" => do return { r with limit? := some (← readCount key value 64) }
  | "include" => do return { r with include? := some (← readCount key value 8) }
  | "select" => .ok { r with select := listItems value }
  | "order" => .ok { r with order := (listItems value).map orderPath }
  | _ => do return { r with filters := r.filters ++ [← readFilter key value] }

/-- The request that decoded pairs of key and value stand for. -/
def ofPairs (pairs : List (String × String)) : Except QueryFault QueryRequest := do
  let r ← pairs.foldlM readPair {}
  if r.contentType = "" then throw .noContentType
  return r

end QueryRequest

end ContentReplica
