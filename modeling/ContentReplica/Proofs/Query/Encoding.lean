import ContentReplica.Catalog
import ContentReplica.Proofs.Outcome
import ContentReplica.Query.Request
import Mathlib.Data.List.TakeWhile

/-!
# Requests written as pairs

`RequestParts.pairs` writes the parts of a request as pairs of key and value, and `RequestParts.request`
builds a request of the same parts. Reading the pairs gives the built request, save that a path to order
by keeps the qualifier `fields.`, which is dropped from the paths of filters and by `withOrder`
(`RequestParts.ofPairs_pairs`).
-/

namespace ContentReplica

/-! ## Two ways to make a request -/

/-- A path to order by as it is written. -/
def OrderPath.written (o : OrderPath) : String := if o.descending then "-" ++ o.path else o.path

/-- A filter as it is written. -/
def FilterTerm.written (f : FilterTerm) : String × String :=
  (f.path ++ "[" ++ f.comparator.name ++ "]", ",".intercalate f.values)

/-- The parts that a request is made of. -/
structure RequestParts where
  contentType : String
  locale : String
  skip : Nat
  limit : Nat
  order : List OrderPath
  filters : List FilterTerm

namespace RequestParts

/-- The pairs of key and value that say what the parts are. -/
def pairs (r : RequestParts) : List (String × String) :=
  ("content_type", r.contentType) :: ("locale", r.locale) :: ("skip", toString r.skip) ::
    ("limit", toString r.limit) :: ("order", ",".intercalate (r.order.map OrderPath.written)) ::
    r.filters.map FilterTerm.written

/-- The request that is built of the parts. -/
def request (r : RequestParts) : QueryRequest :=
  let page := ((QueryRequest.new r.contentType).withLocale r.locale).withPage r.skip r.limit
  let ordered := r.order.foldl (fun q o => q.withOrder o.path o.descending) page
  r.filters.foldl (fun q f => q.withFilter f.path f.comparator f.values) ordered

end RequestParts

/-! ## What can be written -/

/-- An item of a list in a text: it is not empty, and has neither a comma nor blanks around it. -/
structure IsItem (item : String) : Prop where
  ne_empty : item ≠ ""
  noComma : ',' ∉ item.toList
  trimmed : Text.trim item = item

instance (item : String) : Decidable (IsItem item) :=
  decidable_of_iff (item ≠ "" ∧ ',' ∉ item.toList ∧ Text.trim item = item)
    ⟨fun ⟨hne, hcomma, htrim⟩ => ⟨hne, hcomma, htrim⟩,
      fun ⟨hne, hcomma, htrim⟩ => ⟨hne, hcomma, htrim⟩⟩

/-- A path that can be written: it is an item of a list, and nothing in it is taken for the beginning of a
comparator or for the sign of the descending order. -/
structure IsPath (path : String) : Prop extends IsItem path where
  noBracket : '[' ∉ path.toList
  noMinus : path.toList.head? ≠ some '-'

instance (path : String) : Decidable (IsPath path) :=
  decidable_of_iff (IsItem path ∧ '[' ∉ path.toList ∧ path.toList.head? ≠ some '-')
    ⟨fun ⟨hitem, hbracket, hminus⟩ => ⟨hitem, hbracket, hminus⟩,
      fun ⟨hitem, hbracket, hminus⟩ => ⟨hitem, hbracket, hminus⟩⟩

/-- The values of a filter are as its comparator takes them: items of a list, or one text of any kind. -/
def FilterTerm.ValuesFit (f : FilterTerm) : Prop :=
  if f.comparator.takesList then f.values ≠ [] ∧ ∀ v ∈ f.values, IsItem v else f.values.length = 1

instance (f : FilterTerm) : Decidable f.ValuesFit :=
  inferInstanceAs (Decidable (if f.comparator.takesList then f.values ≠ [] ∧ ∀ v ∈ f.values, IsItem v
    else f.values.length = 1))

/-- Parts of a request that can be written. -/
structure RequestParts.Writable (r : RequestParts) : Prop where
  contentType : r.contentType ≠ ""
  skip : r.skip ≤ QueryRequest.maxSkip
  limit : r.limit < Nat.pow 2 64
  order : ∀ o ∈ r.order, IsPath o.path
  filters : ∀ f ∈ r.filters, IsPath f.path ∧ f.ValuesFit

/-! ## Lists in a text -/

namespace Text

/-- Texts without a separator are the pieces of the text in which it stands between them. -/
theorem splitText_intercalate {sep : Char} {items : List String} (hne : items ≠ [])
    (h : ∀ item ∈ items, sep ∉ item.toList) :
    splitText sep ((String.singleton sep).intercalate items) = items := by
  have hitems : ∀ cs ∈ items.map String.toList, sep ∉ cs := List.forall_mem_map.2 h
  unfold splitText
  rw [String.toList_intercalate, String.toList_singleton, pieces_eq_splitOn,
    List.splitOn_intercalate sep hitems (mt List.map_eq_nil_iff.1 hne), List.map_map]
  exact List.map_id'' (fun item => String.ofList_toList) items

/-! ## Blanks -/

/-- A list is trimmed if no blank is at its beginning and none at its end. -/
theorem trimChars_eq_self_iff {cs : List Char} : trimChars cs = cs ↔
    cs.dropWhile isBlank = cs ∧ cs.reverse.dropWhile isBlank = cs.reverse := by
  unfold trimChars
  constructor
  · intro h
    -- Both cuts only shorten the list, so none of them took anything.
    have hbegin : cs.dropWhile isBlank = cs := by
      refine (List.dropWhile_suffix isBlank).eq_of_length_le ?_
      have hshorter := (List.dropWhile_suffix (l := (cs.dropWhile isBlank).reverse) isBlank).length_le
      rw [List.length_reverse] at hshorter
      exact (congrArg List.length h).symm.le.trans (by rwa [List.length_reverse])
    rw [hbegin] at h
    exact ⟨hbegin, List.reverse_eq_iff.1 h⟩
  · rintro ⟨hbegin, hend⟩
    rw [hbegin, hend, List.reverse_reverse]

/-- A list without blanks is trimmed. -/
theorem trimChars_of_forall {cs : List Char} (h : ∀ c ∈ cs, isBlank c = false) :
    trimChars cs = cs := by
  refine trimChars_eq_self_iff.2 ⟨List.dropWhile_eq_self_iff.2 fun hl => ?_,
    List.dropWhile_eq_self_iff.2 fun hl => ?_⟩
  · rw [h _ (List.getElem_mem hl)]
    exact Bool.false_ne_true
  · rw [h _ (List.mem_reverse.1 (List.getElem_mem hl))]
    exact Bool.false_ne_true

/-- A list that is trimmed stays so behind a character that is no blank. -/
theorem trimChars_cons {c : Char} {cs : List Char} (hc : isBlank c = false) (hne : cs ≠ [])
    (h : trimChars cs = cs) : trimChars (c :: cs) = c :: cs := by
  obtain ⟨-, hend⟩ := trimChars_eq_self_iff.1 h
  refine trimChars_eq_self_iff.2 ⟨List.dropWhile_cons_of_neg (by rw [hc]; exact Bool.false_ne_true), ?_⟩
  have hl : 0 < cs.reverse.length := List.length_pos_iff.2 (mt List.reverse_eq_nil_iff.1 hne)
  rw [List.reverse_cons]
  refine List.dropWhile_eq_self_iff.2 fun _ => ?_
  rw [List.getElem_append_left hl]
  exact List.dropWhile_eq_self_iff.1 hend hl

/-- A text is trimmed if its characters are. -/
theorem trim_eq_self_iff {s : String} : trim s = s ↔ trimChars s.toList = s.toList := by
  unfold trim
  rw [← String.toList_inj, String.toList_ofList]

end Text

namespace QueryRequest

open Text

/-! ## Lists and counts -/

/-- The items of a list are read back. -/
theorem listItems_intercalate {items : List String} (h : ∀ item ∈ items, IsItem item) :
    listItems (",".intercalate items) = items := by
  unfold listItems
  by_cases hne : items = []
  · rw [hne, String.intercalate_nil]
    decide
  · rw [show "," = String.singleton ',' from rfl,
      splitText_intercalate hne fun item hitem => (h item hitem).noComma]
    have htrim : items.map trim = items :=
      (List.map_congr_left fun item hitem => (h item hitem).trimmed).trans (List.map_id items)
    rw [htrim, List.filter_eq_self]
    exact fun item hitem => decide_eq_true (h item hitem).ne_empty

/-- A digit is a digit, and neither a blank nor a sign. -/
theorem digit_facts {c : Char} (h : c.isDigit = true) :
    isDigitChar c = true ∧ isBlank c = false ∧ c ≠ '-' ∧ c ≠ '+' := by
  have hcode : 48 ≤ c.toNat ∧ c.toNat ≤ 57 := Char.isDigit_iff_toNat.1 h
  refine ⟨?_, ?_, ?_, ?_⟩
  · exact h
  · unfold isBlank
    simp only [Bool.or_eq_false_iff, Bool.and_eq_false_iff, decide_eq_false_iff_not, beq_eq_false_iff_ne]
    omega
  · rintro rfl
    exact absurd h (by decide)
  · rintro rfl
    exact absurd h (by decide)

/-- A count that was written is read back if it fits. -/
theorem readCount_toString {key : String} {n bits : Nat} (h : n < Nat.pow 2 bits) :
    readCount key (toString n) bits = .ok n := by
  have hdigits : ∀ c ∈ Nat.toDigits 10 n, c.isDigit = true := fun c hc =>
    Nat.isDigit_of_mem_toDigits (by decide) (by decide) hc
  have htext : (trim (toString n)).toList = Nat.toDigits 10 n := by
    unfold trim
    rw [Nat.toString_eq_repr, Nat.toList_repr, String.toList_ofList]
    exact trimChars_of_forall fun c hc => (digit_facts (hdigits c hc)).2.1
  have hvalue : digitsValue (Nat.toDigits 10 n) = n := Nat.ofDigitChars_ten_toDigits
  have hall : (Nat.toDigits 10 n).all isDigitChar = true :=
    List.all_eq_true.2 fun c hc => (digit_facts (hdigits c hc)).1
  have hsign : ∀ sign rest, Nat.toDigits 10 n = sign :: rest → sign ≠ '-' ∧ sign ≠ '+' := by
    intro sign rest he
    exact (digit_facts (hdigits sign (he ▸ List.mem_cons_self ..))).2.2
  unfold readCount
  rw [htext]
  split
  next plain digits hread =>
  obtain ⟨rfl, rfl⟩ : plain = true ∧ digits = Nat.toDigits 10 n := by
    split at hread
    · next rest he => exact absurd rfl (hsign _ _ he).1
    · next rest he => exact absurd rfl (hsign _ _ he).2
    · exact ⟨(Prod.mk.inj hread).1.symm, (Prod.mk.inj hread).2.symm⟩
  rw [if_neg, hvalue]
  rw [hall, hvalue, List.isEmpty_eq_false_iff.2 Nat.toDigits_ne_nil, decide_eq_false (Nat.not_le.2 h)]
  exact Bool.false_ne_true

/-! ## Paths and keys -/

/-- The key of a filter is taken apart at its bracket. -/
theorem splitKey_written {path name : String} (h : '[' ∉ path.toList) :
    splitKey (path ++ "[" ++ name ++ "]") = .ok (path, name) := by
  have hkey : (path ++ "[" ++ name ++ "]").toList = path.toList ++ '[' :: (name.toList ++ [']']) := by
    simp
  have hpath : ∀ c ∈ path.toList, decide (c ≠ '[') = true := fun c hc =>
    decide_eq_true fun he => h (he ▸ hc)
  unfold splitKey
  rw [hkey, List.takeWhile_append_of_pos hpath, List.dropWhile_append_of_pos hpath,
    List.takeWhile_cons_of_neg (by decide), List.dropWhile_cons_of_neg (by decide)]
  dsimp only
  rw [List.getLast?_concat, if_pos rfl, List.dropLast_concat, List.append_nil, String.ofList_toList,
    String.ofList_toList]

/-- The comparator of a name is the one of that name. -/
theorem ofName_name (c : Comparator) : Comparator.ofName c.name = .ok c := by
  cases c <;> rfl

/-- A written path to order by is an item of a list. -/
theorem isItem_written {o : OrderPath} (h : IsPath o.path) : IsItem o.written := by
  obtain ⟨path, descending⟩ := o
  cases descending with
  | false => exact h.toIsItem
  | true =>
    have htext : ("-" ++ path).toList = '-' :: path.toList := by simp
    have hne : path.toList ≠ [] := mt String.toList_eq_nil_iff.1 h.ne_empty
    change IsItem ("-" ++ path)
    refine ⟨fun he => ?_, ?_, ?_⟩
    · have hempty := congrArg String.toList he
      rw [htext] at hempty
      cases hempty
    · rw [htext, List.mem_cons, not_or]
      exact ⟨by decide, h.noComma⟩
    · rw [trim_eq_self_iff, htext]
      exact trimChars_cons (by decide) hne (trim_eq_self_iff.1 h.trimmed)

/-- A path to order by is read back as it was written. -/
theorem orderPath_written {o : OrderPath} (h : IsPath o.path) : orderPath o.written = o := by
  obtain ⟨path, descending⟩ := o
  cases descending with
  | true =>
    have htext : ("-" ++ path).toList = '-' :: path.toList := by simp
    change orderPath ("-" ++ path) = _
    unfold orderPath
    rw [htext]
    exact congrArg (OrderPath.mk · true) String.ofList_toList
  | false =>
    change orderPath path = _
    unfold orderPath
    split
    · next rest he => exact absurd (congrArg List.head? he) h.noMinus
    · rfl

/-- The paths to order by are read back as they were written. -/
theorem readPair_order (q : QueryRequest) {order : List OrderPath} (h : ∀ o ∈ order, IsPath o.path) :
    q.readPair ("order", ",".intercalate (order.map OrderPath.written))
      = .ok { q with order := order } := by
  have hitems : ∀ item ∈ order.map OrderPath.written, IsItem item :=
    List.forall_mem_map.2 fun o ho => isItem_written (h o ho)
  have hread : (order.map OrderPath.written).map orderPath = order := by
    rw [List.map_map]
    exact (List.map_congr_left fun o ho => orderPath_written (h o ho)).trans (List.map_id order)
  change Except.ok { q with order := (listItems _).map orderPath } = _
  rw [listItems_intercalate hitems, hread]

/-- The number of documents to skip is read back. -/
theorem readPair_skip (q : QueryRequest) {skip : Nat} (h : skip ≤ maxSkip) :
    q.readPair ("skip", toString skip) = .ok { q with skip := skip } := by
  have hread : readCount "skip" (toString skip) 64 = .ok skip :=
    readCount_toString (Nat.lt_of_le_of_lt h (by decide))
  have hcheck : ({ q with skip := skip } : QueryRequest).checkSkip = .ok () :=
    if_neg (Nat.not_lt.2 h)
  exact bind_eq_ok.2 ⟨skip, hread, bind_eq_ok.2 ⟨(), hcheck, rfl⟩⟩

/-- The page size is read back. -/
theorem readPair_limit (q : QueryRequest) {limit : Nat} (h : limit < Nat.pow 2 64) :
    q.readPair ("limit", toString limit) = .ok { q with limit? := some limit } :=
  bind_eq_ok.2 ⟨limit, readCount_toString h, rfl⟩

/-- A pair whose key has a bracket is read as a filter. -/
theorem readPair_of_bracket (q : QueryRequest) {key value : String} (h : '[' ∈ key.toList) :
    q.readPair (key, value)
      = (readFilter key value).map fun f => { q with filters := q.filters ++ [f] } := by
  unfold readPair
  dsimp only
  split
  case h_8 => cases readFilter key value <;> rfl
  all_goals exact absurd h (by decide)

/-- A written filter is read as the one that is built. -/
theorem readPair_written (q : QueryRequest) {f : FilterTerm} (hpath : IsPath f.path)
    (hvalues : f.ValuesFit) :
    q.readPair f.written = .ok (q.withFilter f.path f.comparator f.values) := by
  have hread : (if f.comparator.takesList then listItems (",".intercalate f.values)
      else [",".intercalate f.values]) = f.values := by
    unfold FilterTerm.ValuesFit at hvalues
    split
    · next hlist =>
      rw [if_pos hlist] at hvalues
      exact listItems_intercalate hvalues.2
    · next hlist =>
      rw [if_neg hlist] at hvalues
      obtain ⟨v, hv⟩ := List.length_eq_one_iff.1 hvalues
      rw [hv, String.intercalate_singleton]
  unfold FilterTerm.written
  rw [readPair_of_bracket q (by simp)]
  unfold readFilter
  rw [splitKey_written hpath.noBracket]
  dsimp only [bind, Except.bind]
  rw [ofName_name]
  dsimp only
  rw [hread]
  rfl

/-- Written filters are read as those that are built. -/
theorem foldlM_readPair_filters {filters : List FilterTerm}
    (h : ∀ f ∈ filters, IsPath f.path ∧ f.ValuesFit) (q : QueryRequest) :
    (filters.map FilterTerm.written).foldlM readPair q
      = .ok (filters.foldl (fun q f => q.withFilter f.path f.comparator f.values) q) := by
  induction filters generalizing q with
  | nil => rfl
  | cons f filters ih =>
    obtain ⟨⟨hpath, hvalues⟩, hrest⟩ := List.forall_mem_cons.1 h
    rw [List.map_cons, List.foldlM_cons, readPair_written q hpath hvalues]
    exact ih hrest _

/-- Filters are added behind those that are there. -/
theorem foldl_withFilter (filters : List FilterTerm) (q : QueryRequest) :
    filters.foldl (fun q f => q.withFilter f.path f.comparator f.values) q
      = { q with filters := q.filters
          ++ filters.map fun f => { f with path := fieldPath f.path } } := by
  induction filters generalizing q with
  | nil => simp
  | cons f filters ih =>
    rw [List.foldl_cons, ih]
    simp [withFilter]

/-- Paths to order by are added behind those that are there. -/
theorem foldl_withOrder (order : List OrderPath) (q : QueryRequest) :
    order.foldl (fun q o => q.withOrder o.path o.descending) q
      = { q with order := q.order ++ order.map fun o => { o with path := fieldPath o.path } } := by
  induction order generalizing q with
  | nil => simp
  | cons o order ih =>
    rw [List.foldl_cons, ih]
    simp [withOrder]

/-- A path stays as it is if it does not begin with the qualifier. -/
theorem fieldPath_eq_self_iff {path : String} :
    fieldPath path = path ↔ ¬ "fields.".toList <+: path.toList := by
  unfold fieldPath
  dsimp only
  split
  · next h =>
    have hprefix := List.isPrefixOf_iff_prefix.1 h
    refine iff_of_false (fun he => ?_) (not_not.2 hprefix)
    have hlength := congrArg (fun p : String => p.toList.length) he
    simp only [String.toList_ofList, List.length_drop] at hlength
    have hle := hprefix.length_le
    have hpos : "fields.".toList.length = 7 := by decide
    omega
  · next h => exact iff_of_true rfl fun hprefix => h (List.isPrefixOf_iff_prefix.2 hprefix)

end QueryRequest

namespace RequestParts

open QueryRequest

variable {r : RequestParts}

/-- The built request has the parts, each path without its qualifier. -/
theorem request_eq (r : RequestParts) : r.request =
    { contentType := r.contentType, locale? := some r.locale, skip := r.skip, limit? := some r.limit,
      order := r.order.map fun o => { o with path := fieldPath o.path },
      filters := r.filters.map fun f => { f with path := fieldPath f.path } } := by
  unfold request
  dsimp only
  rw [foldl_withOrder, foldl_withFilter]
  rfl

/-- The written parts of a request are read as the request that is built of them, with the paths to order
by as they were written. So the two are the same request exactly if none of these paths has the qualifier
`fields.`; the paths of filters may have it. -/
theorem ofPairs_pairs (h : r.Writable) :
    ofPairs r.pairs = .ok { r.request with order := r.order } ∧
      (ofPairs r.pairs = .ok r.request ↔ ∀ o ∈ r.order, ¬ "fields.".toList <+: o.path.toList) := by
  have hfold : r.pairs.foldlM readPair {} = .ok { r.request with order := r.order } := by
    -- The first five pairs set a part each; all others are filters, since their keys have a bracket.
    refine Eq.trans (bind_eq_ok.2 ⟨_, rfl, bind_eq_ok.2 ⟨_, rfl, bind_eq_ok.2 ⟨_, readPair_skip _ h.skip,
      bind_eq_ok.2 ⟨_, readPair_limit _ h.limit, bind_eq_ok.2 ⟨_, readPair_order _ h.order,
        foldlM_readPair_filters h.filters _⟩⟩⟩⟩⟩) ?_
    rw [request_eq, foldl_withFilter]
    rfl
  have hread : ofPairs r.pairs = .ok { r.request with order := r.order } := by
    refine bind_eq_ok.2 ⟨_, hfold, ?_⟩
    rw [request_eq]
    exact if_neg h.contentType
  refine ⟨hread, ?_⟩
  have horder : r.request.order = r.order.map fun o => { o with path := fieldPath o.path } := by
    rw [request_eq]
  calc ofPairs r.pairs = .ok r.request
      ↔ r.order = r.order.map fun o => { o with path := fieldPath o.path } := by
        rw [hread, Except.ok.injEq, ← horder]
        exact ⟨fun he => congrArg QueryRequest.order he, fun he => he ▸ rfl⟩
    _ ↔ ∀ o ∈ r.order, ({ o with path := fieldPath o.path } : OrderPath) = o := by
        rw [eq_comm]
        exact (Iff.of_eq (by rw [List.map_id])).trans (List.map_inj_left (g := id))
    _ ↔ ∀ o ∈ r.order, ¬ "fields.".toList <+: o.path.toList := by
        refine forall₂_congr fun o _ => ?_
        rw [← fieldPath_eq_self_iff]
        exact ⟨congrArg OrderPath.path, fun he => congrArg (OrderPath.mk · o.descending) he⟩

end RequestParts

namespace Catalog

/-- The parts of a request for dear products with some tags, the dearest first. -/
def dearParts : RequestParts :=
  ⟨"product", english, 0, 10, [⟨"price", true⟩, ⟨"sys.id", false⟩],
    [⟨"fields.price", .gt, ["15"]⟩, ⟨"name", .«match», ["a, b"]⟩,
      ⟨"keywords", .«in», ["new", "on sale"]⟩]⟩

end Catalog

/-- The parts of a request for dear products are written and read. -/
theorem RequestParts.ofPairs_pairs_catalog :
    Catalog.dearParts.Writable ∧
      QueryRequest.ofPairs Catalog.dearParts.pairs = .ok Catalog.dearParts.request := by
  have hwritable : Catalog.dearParts.Writable :=
    ⟨by decide, by decide, by decide, by decide +kernel, by decide +kernel⟩
  exact ⟨hwritable, (ofPairs_pairs hwritable).2.2 (by decide +kernel)⟩

/-- A path to order by keeps the qualifier that a path of a filter loses. -/
example : QueryRequest.ofPairs
      [("content_type", "product"), ("fields.price", "3"), ("order", "fields.price")]
    = .ok { contentType := "product", filters := [⟨"price", .eq, ["3"]⟩],
            order := [⟨"fields.price", false⟩] } := by
  decide +kernel

end ContentReplica
