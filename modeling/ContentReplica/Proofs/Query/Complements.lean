import ContentReplica.Proofs.Query.Execution
import ContentReplica.Proofs.Query.Pages

/-!
# Filters and their negations

Three pairs of filters ask for opposite things of one path (`FilterTerm.Opposite`). Their conditions are
made in different branches, for scalars and for arrays, and evaluated by different ones; still no row is
kept by both and none by neither, whatever is stored in it (`TableLayout.filter_opposite`). The only
way to lose a row to both would be a NULL on the side of the request, which a text never stands for
(`Literal.read_ne_null`).
-/

namespace ContentReplica

/-- Two filters of one path that ask for the opposite. -/
inductive FilterTerm.Opposite : FilterTerm → FilterTerm → Prop
  | equality (path : String) (values : List String) : Opposite ⟨path, .eq, values⟩ ⟨path, .ne, values⟩
  | membership (path : String) (values : List String) :
    Opposite ⟨path, .«in», values⟩ ⟨path, .nin, values⟩
  | presence (path : String) (rest rest' : List String) :
    Opposite ⟨path, .«exists», "true" :: rest⟩ ⟨path, .«exists», "false" :: rest'⟩

/-! ## Conditions -/

/-- The text of a query never stands for NULL. -/
theorem Literal.read_ne_null {path raw : String} {type : SqlType} {value : Value}
    (h : Literal.read path raw type = .ok value) : value ≠ .null := by
  induction type with
  | text | date =>
    obtain rfl := Except.ok.inj h
    exact nofun
  | integer | decimal | boolean =>
    unfold Literal.read at h
    split at h <;> cases h <;> exact nofun
  | point | jsonb => cases h
  | array element ih => exact ih h

namespace Predicate

variable {column : ColumnRef}

/-- Every row satisfies exactly one of two conditions. -/
def Complements (p q : Predicate) : Prop := ∀ row : Row, q.holds row = !p.holds row

/-- A value differs from what is stored exactly if it does not equal it, which NULL never does. -/
theorem differs_eq_not_equals {value : Value} (h : value ≠ .null) (actual : Value) :
    differs actual value = !actual.equals value := by
  cases actual with
  | null =>
    cases value with
    | null => exact absurd rfl h
    | _ => rfl
  | _ =>
    cases value with
    | null => exact absurd rfl h
    | _ => rfl

/-- Inequality with a value is the complement of equality. -/
theorem compare_complements {value : Value} (h : value ≠ .null) :
    Complements (.compare column .eq value) (.compare column .ne value) :=
  fun row => differs_eq_not_equals h (row.cell column.name)

/-- To be none of some values is the complement of being one of them; NULL is none. -/
theorem anyOf_complements (values : List Value) :
    Complements (.anyOf column values) (.noneOf column values) := by
  intro row
  rw [holds, holds]
  cases row.cell column.name <;> rfl

/-- To be NULL is the complement of not being NULL. -/
theorem isNotNull_complements : Complements (.isNotNull column) (.isNull column) := by
  intro row
  rw [holds, holds, Bool.not_not]

end Predicate

namespace TableLayout

variable {t : TableLayout} {term opposite : FilterTerm}

/-- Opposite comparators of a column are refused for the same reason, or their conditions are
complements. -/
theorem filterOn_opposite {path first first' : String} {rest rest' : List String}
    {comparator comparator' : Comparator} (column : ColumnRef)
    (h : FilterTerm.Opposite ⟨path, comparator, first :: rest⟩ ⟨path, comparator', first' :: rest'⟩) :
    (∃ fault, filterOn path first (first :: rest) column comparator = .error fault ∧
        filterOn path first' (first' :: rest') column comparator' = .error fault) ∨
      ∃ p q, filterOn path first (first :: rest) column comparator = .ok p ∧
        filterOn path first' (first' :: rest') column comparator' = .ok q ∧ p.Complements q := by
  cases h with
  | equality =>
    simp only [filterOn]
    cases hread : Literal.read path first column.type with
    | error fault => exact .inl ⟨fault, rfl, rfl⟩
    | ok value =>
      refine .inr ⟨_, _, rfl, rfl, ?_⟩
      -- An array column is asked for the membership of the one value instead.
      cases column.type.isArray with
      | true => exact Predicate.anyOf_complements [value]
      | false => exact Predicate.compare_complements (Literal.read_ne_null hread)
  | membership =>
    simp only [filterOn]
    cases (first :: rest).mapM fun raw => Literal.read path raw column.type with
    | error fault => exact .inl ⟨fault, rfl, rfl⟩
    | ok values => exact .inr ⟨_, _, rfl, rfl, Predicate.anyOf_complements values⟩
  | presence => exact .inr ⟨_, _, rfl, rfl, Predicate.isNotNull_complements⟩

/-- Opposite filters are refused for the same reason, or their conditions are complements. -/
theorem filter_opposite_cases (t : TableLayout) (h : term.Opposite opposite) :
    (∃ fault, t.filter term = .error fault ∧ t.filter opposite = .error fault) ∨
      ∃ p q, t.filter term = .ok p ∧ t.filter opposite = .ok q ∧ p.Complements q := by
  have hpath : opposite.path = term.path := by cases h <;> rfl
  unfold filter
  rw [hpath]
  cases t.columnAt term.path with
  | error fault => exact .inl ⟨fault, rfl, rfl⟩
  | ok column =>
    dsimp only [bind, Except.bind]
    obtain ⟨path, comparator, values⟩ := term
    obtain ⟨path', comparator', values'⟩ := opposite
    obtain rfl : path' = path := hpath
    cases values with
    | nil =>
      have hvalues : values' = [] := by cases h <;> rfl
      rw [hvalues]
      exact .inl ⟨_, rfl, rfl⟩
    | cons first rest =>
      obtain ⟨first', rest', rfl⟩ : ∃ first' rest', values' = first' :: rest' := by
        cases h <;> exact ⟨_, _, rfl⟩
      exact filterOn_opposite column h

end TableLayout

/-! ## Counts -/

namespace QueryCall

variable {c : QueryCall} {p q : Predicate} {before after : List Predicate}

/-- The call with other filters. -/
def withFilters (c : QueryCall) (filters : List Predicate) : QueryCall := { c with filters := filters }

/-- One more filter keeps of the rows those that satisfy it. -/
theorem matching_insert (rows : List Row) :
    (c.withFilters (before ++ p :: after)).matching rows
      = ((c.withFilters (before ++ after)).matching rows).filter p.holds := by
  unfold matching withFilters
  rw [List.filter_filter]
  refine List.filter_congr fun row _ => ?_
  dsimp only
  rw [List.all_append, List.all_append, List.all_cons, Bool.and_left_comm]

/-- Complements divide the rows between them. -/
theorem length_matching_complements (h : p.Complements q) (rows : List Row) :
    ((c.withFilters (before ++ p :: after)).matching rows).length
        + ((c.withFilters (before ++ q :: after)).matching rows).length
      = ((c.withFilters (before ++ after)).matching rows).length := by
  rw [matching_insert, matching_insert, funext h, ← List.length_eq_length_filter_add]

end QueryCall

/-- A call that is answered is answered with one more filter too, and the counts with complements add up
to the count without. -/
theorem Store.call_complements {s : Store} {c : QueryCall} {p q : Predicate}
    {before after : List Predicate} (h : p.Complements q) {page : QueryPage}
    (hpage : s.call (c.withFilters (before ++ after)) = .ok page) :
    ∃ kept left, s.call (c.withFilters (before ++ p :: after)) = .ok kept ∧
      s.call (c.withFilters (before ++ q :: after)) = .ok left ∧ kept.count + left.count = page.count := by
  -- The rows of the source are the same for every list of filters.
  obtain ⟨rows, hrows⟩ : ∃ rows, s.database.callRows c = .ok rows := by
    obtain ⟨rows, hrows, -⟩ := bind_eq_ok.1 (mapError_eq_ok.1 hpage)
    exact ⟨rows, hrows⟩
  have hcall (filters : List Predicate) := call_eq (c := c.withFilters filters) hrows
  refine ⟨_, _, hcall _, hcall _, ?_⟩
  obtain rfl := Except.ok.inj ((hcall _).symm.trans hpage)
  exact QueryCall.length_matching_complements h rows

/-- The request with other filters. -/
def QueryRequest.withFilters (r : QueryRequest) (filters : List FilterTerm) : QueryRequest :=
  { r with filters := filters }

namespace Replica

variable {r : Replica} {request : QueryRequest} {target : QueryTarget} {before after : List FilterTerm}

/-- One more filter of a request becomes one more filter of its call, in the same place. -/
theorem resolve_insert {t : TableLayout} (ht : r.schema.entryTable? request.contentType = some t)
    {c : QueryCall} (h : r.resolve (request.withFilters (before ++ after)) target = .ok c) :
    ∃ ps qs, c.filters = ps ++ qs ∧ ∀ {term : FilterTerm} {p : Predicate}, t.filter term = .ok p →
      r.resolve (request.withFilters (before ++ term :: after)) target
        = .ok (c.withFilters (ps ++ p :: qs)) := by
  obtain ⟨hskip, t', ht', l, hlocale, filters, hfilters, order, horder, rfl⟩ := resolve_eq_ok_iff.1 h
  obtain rfl : t = t' := Option.some.inj (ht.symm.trans ht')
  have hsplit : (before ++ after).mapM t.filter = .ok filters := hfilters
  rw [List.mapM_append] at hsplit
  obtain ⟨ps, hbefore, hsplit⟩ := bind_eq_ok.1 hsplit
  obtain ⟨qs, hafter, hsplit⟩ := bind_eq_ok.1 hsplit
  obtain rfl := pure_eq_ok.1 hsplit
  refine ⟨ps, qs, rfl, fun {term p} hterm => ?_⟩
  have hinsert : (before ++ term :: after).mapM t.filter = .ok (ps ++ p :: qs) := by
    refine mapM_append_ok hbefore ?_
    rw [List.mapM_cons]
    exact bind_eq_ok.2 ⟨p, hterm, bind_eq_ok.2 ⟨qs, hafter, rfl⟩⟩
  exact resolve_eq_ok_iff.2 ⟨hskip, t, ht, l, hlocale, _, hinsert, order, horder, rfl⟩

/-- A filter and its opposite. In every table both are refused, for the same reason, or every row satisfies
exactly one of their conditions, whatever is stored in it. A request that is answered is then answered with
either of them too, whatever its other filters are, and the two counts add up to the count without. -/
theorem opposite_filters {term opposite : FilterTerm} (h : term.Opposite opposite) (t : TableLayout) :
    (∃ fault, t.filter term = .error fault ∧ t.filter opposite = .error fault) ∨
      ∃ p q, t.filter term = .ok p ∧ t.filter opposite = .ok q ∧
        (∀ row : Row, q.holds row = !p.holds row) ∧
        ∀ (r : Replica) (s : Store) (request : QueryRequest) (target : QueryTarget)
          (before after : List FilterTerm) (page : QueryPage),
          r.schema.entryTable? request.contentType = some t →
          r.answer s (request.withFilters (before ++ after)) target = .ok page →
          ∃ kept left, r.answer s (request.withFilters (before ++ term :: after)) target = .ok kept ∧
            r.answer s (request.withFilters (before ++ opposite :: after)) target = .ok left ∧
            kept.count + left.count = page.count := by
  refine (t.filter_opposite_cases h).imp_right fun ⟨p, q, hp, hq, hcomplements⟩ =>
    ⟨p, q, hp, hq, hcomplements, ?_⟩
  intro r s request target before after page ht hpage
  obtain ⟨c, hc, hpage⟩ := bind_eq_ok.1 hpage
  obtain ⟨ps, qs, hfilters, hinsert⟩ := resolve_insert ht hc
  have hsame : c.withFilters (ps ++ qs) = c := by
    rw [← hfilters]
    rfl
  rw [← hsame] at hpage
  obtain ⟨kept, left, hkept, hleft, hcount⟩ := Store.call_complements hcomplements hpage
  exact ⟨kept, left, bind_eq_ok.2 ⟨_, hinsert hp, hkept⟩, bind_eq_ok.2 ⟨_, hinsert hq, hleft⟩, hcount⟩

end Replica

/-- Of the four products of the catalog two have a price, and the other two have others. -/
theorem Replica.opposite_filters_catalog :
    ∃ kept left,
      Catalog.replica.answer Catalog.stocked
          ((QueryRequest.new "product").withFilters [⟨"price", .eq, ["4"]⟩]) .function = .ok kept ∧
        Catalog.replica.answer Catalog.stocked
          ((QueryRequest.new "product").withFilters [⟨"price", .ne, ["4"]⟩]) .function = .ok left ∧
        kept.count = 2 ∧ left.count = 2 := by
  obtain ⟨hall, htwo, hfilter⟩ :
      (Catalog.replica.answer Catalog.stocked (QueryRequest.new "product")
          .function).toOption.map QueryPage.count = some 4 ∧
        (Catalog.replica.answer Catalog.stocked ((QueryRequest.new "product").withFilters
          [⟨"price", .eq, ["4"]⟩]) .function).toOption.map QueryPage.count = some 2 ∧
        (Catalog.productTable.filter ⟨"price", .eq, ["4"]⟩).isOk = true := by decide +kernel
  have htable : Catalog.replica.schema.entryTable? (QueryRequest.new "product").contentType
      = some Catalog.productTable := by decide +kernel
  obtain ⟨page, hpage⟩ : ∃ page, Catalog.replica.answer Catalog.stocked
      (QueryRequest.new "product") .function = .ok page := by
    cases hanswer : Catalog.replica.answer Catalog.stocked (QueryRequest.new "product") .function with
    | ok page => exact ⟨page, rfl⟩
    | error e =>
      rw [hanswer] at hall
      cases hall
  rw [hpage] at hall
  have hfour : page.count = 4 := Option.some.inj hall
  rcases opposite_filters (.equality "price" ["4"]) Catalog.productTable with
    ⟨fault, hrefused, -⟩ | ⟨p, q, -, -, -, hanswers⟩
  · rw [hrefused] at hfilter
    cases hfilter
  · obtain ⟨kept, left, hkept, hleft, hsum⟩ := hanswers _ _ _ _ [] [] page htable hpage
    have hcount : kept.count = 2 :=
      Option.some.inj ((congrArg (·.toOption.map QueryPage.count) hkept).symm.trans htwo)
    exact ⟨kept, left, hkept, hleft, hcount, by omega⟩

end ContentReplica
