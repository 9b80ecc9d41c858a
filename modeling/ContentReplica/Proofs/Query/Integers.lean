import ContentReplica.Proofs.Query.Execution
import ContentReplica.Proofs.Replication.Integers

/-!
# The integers of a query

A query binds integers for the filters on columns of integers, and for the page. Those of the page fit
their placeholders, since a request can skip only so many documents and takes a thousand at most. Those
of the filters are the numbers that the literals stand for (`TableLayout.filter_integers`): a literal
that is no number of 64 bits is refused, and any other is bound as it is. So what an accepted request
binds fits exactly when its literals do (`Replica.integers_bound`), and a number beyond the range of the
column reaches the database (`Replica.integers_bound_needs_range`).
-/

namespace ContentReplica

/-! ## What a template binds -/

namespace Template

/-- The values of a template with the types of their placeholders, from left to right. -/
def bindings : Template → List (Value × SqlType)
  | [] => []
  | .text _ :: rest => bindings rest
  | .bind v type :: rest => (v, type) :: bindings rest

variable {s : String} {v : Value} {type : SqlType} {t t' : Template}

@[simp] theorem bindings_nil : bindings [] = [] := rfl

@[simp] theorem bindings_text : bindings (.text s :: t) = t.bindings := rfl

@[simp] theorem bindings_bind : bindings (.bind v type :: t) = (v, type) :: t.bindings := rfl

@[simp] theorem bindings_lit : (lit s).bindings = [] := rfl

@[simp] theorem bindings_value : (value v type).bindings = [(v, type)] := rfl

@[simp] theorem bindings_append : ∀ {t : Template}, (t ++ t').bindings = t.bindings ++ t'.bindings
  | [] => rfl
  | .text _ :: rest => bindings_append (t := rest)
  | .bind v type :: rest => congrArg ((v, type) :: ·) (bindings_append (t := rest))

/-- The values that a template is rendered with are those that it binds. -/
theorem params_eq_bindings : ∀ t : Template, t.params = t.bindings.map Prod.fst
  | [] => rfl
  | .text _ :: rest => params_eq_bindings rest
  | .bind v _ :: rest => congrArg (v :: ·) (params_eq_bindings rest)

end Template

namespace Predicate

variable {qualifier : Option String} {column : ColumnRef} {op : CompareOp} {v : Value}
  {values : List Value} {pattern : String}

@[simp] theorem bindings_compare :
    ((compare column op v).template qualifier).bindings = [(v, column.type)] := rfl

@[simp] theorem bindings_isNull : ((isNull column).template qualifier).bindings = [] := rfl

@[simp] theorem bindings_isNotNull : ((isNotNull column).template qualifier).bindings = [] := rfl

@[simp] theorem bindings_matches :
    ((«matches» column pattern).template qualifier).bindings = [(.text pattern, .text)] := rfl

@[simp] theorem bindings_containsAll : ((containsAll column values).template qualifier).bindings
    = [(.array values, column.type.arrayOf)] := rfl

@[simp] theorem bindings_anyOf : ((anyOf column values).template qualifier).bindings
    = [(.array values, column.type.arrayOf)] := by
  cases harray : column.type.isArray <;> simp [template, harray]

@[simp] theorem bindings_noneOf : ((noneOf column values).template qualifier).bindings
    = [(.array values, column.type.arrayOf)] := by
  cases harray : column.type.isArray <;> simp [template, harray]

/-- Further parts of a conjunction bind what each of them binds. -/
theorem bindings_conjuncts (parts : List Predicate) :
    (conjuncts qualifier parts).bindings = parts.flatMap fun p => (p.template qualifier).bindings := by
  induction parts with
  | nil => rfl
  | cons p parts ih => simp [conjuncts, ih]

/-- A conjunction binds what each of its parts binds. -/
theorem bindings_and (parts : List Predicate) : ((Predicate.and parts).template qualifier).bindings
    = parts.flatMap fun p => (p.template qualifier).bindings := by
  cases parts with
  | nil => simp [template]
  | cons p parts => simp [template, bindings_conjuncts]

end Predicate

namespace QueryCall

/-- What both statements of a call bind, with the types of the placeholders. -/
def bindings (c : QueryCall) : List (Value × SqlType) :=
  c.countTemplate.bindings ++ c.itemsTemplate.bindings

/-- Both statements of a call are rendered with the values that it binds. -/
theorem params_eq_bindings (c : QueryCall) :
    c.count.params ++ c.items.params = c.bindings.map Prod.fst := by
  unfold bindings
  rw [List.map_append, ← Template.params_eq_bindings, ← Template.params_eq_bindings]
  rfl

/-- A call binds its locale, what its filters bind, and its page. -/
theorem mem_bindings {c : QueryCall} {b : Value × SqlType} (hint : b.2.OfIntegers) :
    b ∈ c.bindings ↔ (∃ p ∈ c.filters, b ∈ (p.template (some "t")).bindings) ∨
      b = (.int (min c.skip largestInt64), .integer) ∨
      b = (.int (min c.take largestInt64), .integer) := by
  have hfrom : b ∉ c.fromTemplate.bindings := by
    have htext : b ≠ (.text c.locale, .text) := by
      rintro rfl
      exact hint
    unfold fromTemplate
    cases c.source <;> simp [htext]
  have hcondition : b ∈ c.conditionTemplate.bindings ↔
      ∃ p ∈ c.filters, b ∈ (p.template (some "t")).bindings := by
    rw [conditionTemplate, Predicate.bindings_and, List.mem_flatMap]
  simp only [bindings, countTemplate, itemsTemplate, Template.bindings_text, Template.bindings_append,
    Template.bindings_value, Template.bindings_lit, List.mem_append, hfrom, hcondition, false_or,
    List.mem_singleton, List.not_mem_nil, or_false, or_self_left]

end QueryCall

/-! ## Numbers in literals -/

namespace Literal

/-- The number of 64 bits that a text stands for, if it stands for one. -/
def integer? (raw : String) : Option Int := (readInteger? raw).filter isInt64

/-- A number that a text stands for has 64 bits. -/
theorem integer?_bound {raw : String} {n : Int} (h : integer? raw = some n) :
    -9223372036854775808 ≤ n ∧ n ≤ 9223372036854775807 :=
  isInt64_iff.1 (Option.filter_eq_some_iff.1 h).2

/-- A text looks like an integer if it stands for a number. -/
theorem sniff_eq_int {raw : String} {n : Int} : sniff raw = .int n ↔ integer? raw = some n := by
  unfold sniff
  split
  · next htrue =>
    subst htrue
    exact ⟨nofun, fun h => absurd h (by rw [show integer? "true" = none by decide]; nofun)⟩
  · split
    · next hfalse =>
      subst hfalse
      exact ⟨nofun, fun h => absurd h (by rw [show integer? "false" = none by decide]; nofun)⟩
    · unfold integer?
      cases (readInteger? raw).filter isInt64 with
      | none => cases Double.read? raw <;> simp
      | some k => simp

/-- For a column of integers, a literal has to stand for a number. -/
theorem read_integers {path raw : String} {type : SqlType} (htype : type.OfIntegers) {v : Value} :
    read path raw type = .ok v ↔ ∃ n, integer? raw = some n ∧ v = .int n := by
  induction type with
  | integer =>
    simp only [← sniff_eq_int, read]
    cases sniff raw <;> simp [eq_comm]
  | array element ih => exact ih htype
  | _ => exact htype.elim

/-- For a column of integers, the literals of a list all have to stand for numbers. -/
theorem mapM_read_integers {path : String} {type : SqlType} (htype : type.OfIntegers) :
    ∀ {raws : List String} {values : List Value},
      raws.mapM (fun raw => read path raw type) = .ok values →
      (∀ raw ∈ raws, (integer? raw).isSome = true) ∧ values = (raws.filterMap integer?).map .int := by
  intro raws values h
  have hpairs := mapM_eq_ok.1 h
  clear h
  induction hpairs with
  | nil => exact ⟨nofun, rfl⟩
  | cons hread _ ih =>
    obtain ⟨n, hn, rfl⟩ := (read_integers htype).1 hread
    refine ⟨List.forall_mem_cons.2 ⟨by rw [hn]; rfl, ih.1⟩, ?_⟩
    rw [List.filterMap_cons_some hn, List.map_cons, ih.2]

end Literal

/-! ## The numbers of a filter -/

/-- The literals of a filter that are read as values of its column: none for a test of existence or a
pattern, all for a comparison with a list, and otherwise the first. -/
def FilterTerm.literals (term : FilterTerm) : List String :=
  match term.comparator with
  | .«exists» | .«match» => []
  | .all | .«in» | .nin => term.values
  | .eq | .ne | .lt | .lte | .gt | .gte => term.values.take 1

/-- How numbers are bound for a column of integers: not at all, a single one, or all in one array. -/
inductive IntegerBindings : List Int → List (Value × SqlType) → Prop
  | none : IntegerBindings [] []
  | one (n : Int) : IntegerBindings [n] [(.int n, .integer)]
  | many (ns : List Int) : IntegerBindings ns [(.array (ns.map .int), .array .integer)]

section
variable {ns : List Int} {bs : List (Value × SqlType)} {n : Int}

/-- An array of integers holds those that it was made of. -/
@[simp] theorem Value.holdsInt_array : (Value.array (ns.map .int)).HoldsInt n ↔ n ∈ ns := by
  constructor
  · rintro (_ | ⟨hv, hn⟩)
    obtain ⟨k, hk, rfl⟩ := List.mem_map.1 hv
    exact Value.holdsInt_int.1 hn ▸ hk
  · intro hn
    exact .element (List.mem_map_of_mem hn) .self

/-- An integer is a value of its type if it is within the range. -/
theorem Value.conforms_int : Value.Conforms .integer (.int n) ↔ Fits32 n :=
  ⟨fun | .integer hlow hhigh => ⟨hlow, hhigh⟩, fun h => .integer h.1 h.2⟩

/-- Everything that is bound for a column of integers is bound as integers. -/
theorem IntegerBindings.ofIntegers (h : IntegerBindings ns bs) : ∀ b ∈ bs, b.2.OfIntegers := by
  cases h with
  | none => exact nofun
  | one | many => exact List.forall_mem_singleton.2 trivial

/-- What is bound for a column of integers holds the numbers. -/
theorem IntegerBindings.holdsInt (h : IntegerBindings ns bs) :
    (∃ b ∈ bs, b.1.HoldsInt n) ↔ n ∈ ns := by
  cases h <;> simp

/-- What is bound for a column of integers is of the types of the placeholders if all numbers are within
the range. -/
theorem IntegerBindings.conforms (h : IntegerBindings ns bs) :
    (∀ b ∈ bs, b.1.Conforms b.2) ↔ ∀ n ∈ ns, Fits32 n := by
  cases h with
  | none => exact ⟨fun _ => nofun, fun _ => nofun⟩
  | one n => simp only [List.forall_mem_singleton, Value.conforms_int]
  | many =>
    rw [List.forall_mem_singleton]
    constructor
    · intro hconforms n hn
      exact hconforms.fits32 trivial (Value.holdsInt_array.2 hn)
    · intro hfits
      refine .array fun v hv _ => ?_
      obtain ⟨n, hn, rfl⟩ := List.mem_map.1 hv
      exact Value.conforms_int.2 (hfits n hn)

end

/-! ## The columns of integers -/

/-- The array type over a type is one of integers if the type is. -/
theorem SqlType.ofIntegers_arrayOf {type : SqlType} : type.arrayOf.OfIntegers ↔ type.OfIntegers := by
  cases type <;> exact Iff.rfl

/-- The columns of a compiled table that are of integers are plain columns or arrays. -/
theorem Schema.Compiled.integer_column {s : Schema} (h : s.Compiled) {t : TableLayout}
    (ht : t ∈ s.tables) {path : String} {column : ColumnRef} (hcolumn : t.columnAt path = .ok column)
    (hint : column.type.OfIntegers) : column.type = .integer ∨ column.type = .array .integer := by
  have hscalar : ∀ kind : ScalarKind, kind.columnType.OfIntegers → kind.columnType = .integer := by
    intro kind hkind
    cases kind <;> first | rfl | exact hkind.elim
  rcases TableLayout.columnAt_cases hcolumn with ⟨p, rfl⟩ | ⟨f, hf, hdef⟩
  · cases p <;> first | exact .inl rfl | exact hint.elim
  · obtain ⟨known, c, rfl⟩ := h.layout t ht
    obtain ⟨type, htype, hoptional⟩ := Option.map_eq_some_iff.1 hdef
    obtain rfl : type = column.type := congrArg ColumnDef.type hoptional
    obtain ⟨g, -, hg⟩ := List.mem_filterMap.1 hf
    unfold layoutField? at hg
    split at hg
    · cases hg
    · next shape _ =>
      obtain rfl := Option.some.inj hg
      dsimp only at htype
      cases shape with
      | scalar kind =>
        rw [← Option.some.inj htype] at hint ⊢
        exact .inl (hscalar kind hint)
      | scalars kind =>
        rw [← Option.some.inj htype] at hint ⊢
        exact .inr (congrArg SqlType.array (hscalar kind hint))
      | link scope =>
        rw [← Option.some.inj htype] at hint
        exact hint.elim
      | links scope => cases htype

/-! ## What a filter binds -/

/-- What a filter binds for the literals that it reads: nothing, or its pattern; the value of a single
one, if its column is no array; or the values of all in one array. -/
inductive FilterBinds (path : String) (column : ColumnRef) :
    List String → List (Value × SqlType) → Prop
  | nothing : FilterBinds path column [] []
  | pattern (s : String) (htext : column.type = .text ∨ column.type = .array .text) :
      FilterBinds path column [] [(.text s, .text)]
  | single {raw : String} {v : Value} (hread : Literal.read path raw column.type = .ok v)
      (hplain : column.type.isArray = false) : FilterBinds path column [raw] [(v, column.type)]
  | list {raws : List String} {values : List Value}
      (hread : raws.mapM (fun raw => Literal.read path raw column.type) = .ok values) :
      FilterBinds path column raws [(.array values, column.type.arrayOf)]

section
variable {path first : String} {raws : List String} {column : ColumnRef}
  {bs : List (Value × SqlType)}

/-- For a column of integers, the literals stand for numbers, and these are bound. -/
theorem FilterBinds.integers (h : FilterBinds path column raws bs)
    (htype : column.type = .integer ∨ column.type = .array .integer) :
    (∀ raw ∈ raws, (Literal.integer? raw).isSome = true) ∧
      IntegerBindings (raws.filterMap Literal.integer?) bs := by
  have hint : column.type.OfIntegers := by
    rcases htype with htype | htype <;> rw [htype] <;> trivial
  cases h with
  | nothing => exact ⟨nofun, .none⟩
  | pattern s htext =>
    rcases htype with htype | htype <;> rw [htype] at htext <;> rcases htext with htext | htext <;>
      cases htext
  | @single raw v hread hplain =>
    have hscalar : column.type = .integer := htype.resolve_right fun harray => by
      rw [harray] at hplain
      cases hplain
    obtain ⟨n, hn, rfl⟩ := (Literal.read_integers hint).1 hread
    rw [List.filterMap_cons_some hn, hscalar]
    exact ⟨List.forall_mem_singleton.2 (by rw [hn]; rfl), .one n⟩
  | list hread =>
    have harray : column.type.arrayOf = .array .integer := by
      rcases htype with htype | htype <;> rw [htype] <;> rfl
    obtain ⟨hsome, rfl⟩ := Literal.mapM_read_integers hint hread
    rw [harray]
    exact ⟨hsome, .many _⟩

/-- For any other column, no integers are bound. -/
theorem FilterBinds.others (h : FilterBinds path column raws bs)
    (hother : ¬ column.type.OfIntegers) : ∀ b ∈ bs, ¬ b.2.OfIntegers := by
  cases h with
  | nothing => exact nofun
  | pattern => exact List.forall_mem_singleton.2 id
  | single => exact List.forall_mem_singleton.2 hother
  | list => exact List.forall_mem_singleton.2 fun hint => hother (SqlType.ofIntegers_arrayOf.1 hint)

end

namespace TableLayout

variable {t : TableLayout} {path first : String} {values : List String} {column : ColumnRef}
  {comparator : Comparator} {qualifier : Option String} {p : Predicate}

/-- A comparison by order binds its literal. -/
theorem orderFilter_binds {op : CompareOp} (h : orderFilter path first column op = .ok p) :
    FilterBinds path column [first] (p.template qualifier).bindings := by
  unfold orderFilter at h
  split at h
  · next horderable =>
    obtain ⟨v, hread, h⟩ := bind_eq_ok.1 h
    obtain rfl := pure_eq_ok.1 h
    refine .single hread ?_
    cases htype : column.type with
    | array element =>
      rw [htype] at horderable
      cases horderable
    | _ => rfl
  · cases h

/-- A comparison with one literal binds it as it is, or in an array for an array. -/
theorem equality_binds {v : Value} (hread : Literal.read path first column.type = .ok v)
    (hplain : column.type.isArray = false →
      (p.template qualifier).bindings = [(v, column.type)])
    (harray : column.type.isArray = true →
      (p.template qualifier).bindings = [(.array [v], column.type.arrayOf)]) :
    FilterBinds path column [first] (p.template qualifier).bindings := by
  cases hkind : column.type.isArray with
  | false =>
    rw [hplain hkind]
    exact .single hread hkind
  | true =>
    rw [harray hkind]
    refine .list ?_
    rw [List.mapM_cons, hread, List.mapM_nil]
    rfl

/-- A filter binds the literals that it reads. -/
theorem filterOn_binds (h : filterOn path first (first :: values) column comparator = .ok p) :
    FilterBinds path column (FilterTerm.literals ⟨path, comparator, first :: values⟩)
      (p.template qualifier).bindings := by
  cases comparator with
  | eq | ne =>
    obtain ⟨v, hread, h⟩ := bind_eq_ok.1 h
    obtain rfl := pure_eq_ok.1 h
    exact equality_binds hread (fun hplain => by simp [hplain]) (fun harray => by simp [harray])
  | lt | lte | gt | gte => exact orderFilter_binds h
  | «exists» =>
    dsimp only [filterOn] at h
    split at h
    · obtain rfl := Except.ok.inj h
      exact .nothing
    · obtain rfl := Except.ok.inj h
      exact .nothing
    · cases h
  | «match» =>
    dsimp only [filterOn] at h
    split at h
    · next htext =>
      obtain rfl := Except.ok.inj h
      exact .pattern _ htext
    · cases h
  | all =>
    dsimp only [filterOn] at h
    split at h
    · obtain ⟨given, hread, h⟩ := bind_eq_ok.1 h
      obtain rfl := pure_eq_ok.1 h
      exact .list hread
    · cases h
  | «in» | nin =>
    obtain ⟨given, hread, h⟩ := bind_eq_ok.1 h
    obtain rfl := pure_eq_ok.1 h
    simp only [Predicate.bindings_anyOf, Predicate.bindings_noneOf]
    exact .list hread

/-- A filter that is accepted binds the literals that it reads, for the column that its path names. -/
theorem filter_binds (qualifier : Option String) {term : FilterTerm} (h : t.filter term = .ok p) :
    ∃ column, t.columnAt term.path = .ok column ∧
      FilterBinds term.path column term.literals (p.template qualifier).bindings := by
  obtain ⟨path, comparator, values⟩ := term
  obtain ⟨column, hcolumn, h⟩ := bind_eq_ok.1 h
  dsimp only at h
  cases values with
  | nil => cases h
  | cons first values => exact ⟨column, hcolumn, filterOn_binds h⟩

/-- A filter asks for a number: one of its literals stands for it, and its column is of integers. -/
def Asks (t : TableLayout) (term : FilterTerm) (n : Int) : Prop :=
  ∃ column, t.columnAt term.path = .ok column ∧ column.type.OfIntegers ∧
    ∃ raw ∈ term.literals, Literal.integer? raw = some n

section
variable {s : Schema} (hs : s.Compiled) (ht : t ∈ s.tables) {term : FilterTerm}

include hs ht

/-- The integers that a filter binds are those that it asks for. -/
theorem holdsInt_iff_asks (h : t.filter term = .ok p) {n : Int} :
    (∃ b ∈ (p.template qualifier).bindings, b.2.OfIntegers ∧ b.1.HoldsInt n) ↔ t.Asks term n := by
  obtain ⟨column, hcolumn, hbinds⟩ := filter_binds qualifier h
  constructor
  · rintro ⟨b, hb, hint, hn⟩
    have hof : column.type.OfIntegers := by
      by_contra hother
      exact hbinds.others hother b hb hint
    obtain ⟨-, hbindings⟩ := hbinds.integers (hs.integer_column ht hcolumn hof)
    exact ⟨column, hcolumn, hof, List.mem_filterMap.1 (hbindings.holdsInt.1 ⟨b, hb, hn⟩)⟩
  · rintro ⟨column', hcolumn', hof, hraw⟩
    obtain rfl := Except.ok.inj (hcolumn.symm.trans hcolumn')
    obtain ⟨-, hbindings⟩ := hbinds.integers (hs.integer_column ht hcolumn hof)
    obtain ⟨b, hb, hn⟩ := hbindings.holdsInt.2 (List.mem_filterMap.2 hraw)
    exact ⟨b, hb, hbindings.ofIntegers b hb, hn⟩

/-- What a filter binds as integers is of the types of the placeholders exactly when the numbers that it
asks for are within the range. -/
theorem conforms_iff_asks (h : t.filter term = .ok p) :
    (∀ b ∈ (p.template qualifier).bindings, b.2.OfIntegers → b.1.Conforms b.2) ↔
      ∀ n, t.Asks term n → Fits32 n := by
  constructor
  · intro hconforms n hn
    obtain ⟨b, hb, hint, hholds⟩ := (holdsInt_iff_asks hs ht h).2 hn
    exact (hconforms b hb hint).fits32 hint hholds
  · intro hfits b hb hint
    obtain ⟨column, hcolumn, hbinds⟩ := filter_binds qualifier h
    have hof : column.type.OfIntegers := by
      by_contra hother
      exact hbinds.others hother b hb hint
    obtain ⟨-, hbindings⟩ := hbinds.integers (hs.integer_column ht hcolumn hof)
    refine hbindings.conforms.2 (fun n hn => hfits n ?_) b hb
    exact ⟨column, hcolumn, hof, List.mem_filterMap.1 hn⟩

/-- A filter on a column of integers whose literal stands for no number of 64 bits is refused. -/
theorem filter_refused {column : ColumnRef} (hcolumn : t.columnAt term.path = .ok column)
    (hint : column.type.OfIntegers) {raw : String} (hraw : raw ∈ term.literals)
    (hnone : Literal.integer? raw = none) : ∃ fault, t.filter term = .error fault := by
  cases hresult : t.filter term with
  | error fault => exact ⟨fault, rfl⟩
  | ok p =>
    obtain ⟨column', hcolumn', hbinds⟩ := filter_binds none hresult
    obtain rfl := Except.ok.inj (hcolumn.symm.trans hcolumn')
    have hsome := (hbinds.integers (hs.integer_column ht hcolumn hint)).1 raw hraw
    rw [hnone] at hsome
    cases hsome

end

end TableLayout

/-! ## The whole -/

namespace Replica

variable {r : Replica} {t : TableLayout} {request : QueryRequest} {target : QueryTarget}

/-- The page of an accepted request fits, and is not cut. -/
theorem page_fits (hskip : request.checkSkip = .ok ()) :
    Fits32 request.skip ∧ Fits32 request.take ∧
      min (request.skip : Int) QueryCall.largestInt64 = request.skip ∧
      min (request.take : Int) QueryCall.largestInt64 = request.take := by
  have hlargest : QueryCall.largestInt64 = 9223372036854775807 := by decide
  have htake : request.take ≤ 1000 := Nat.min_le_right ..
  unfold QueryRequest.checkSkip QueryRequest.maxSkip at hskip
  split at hskip
  · cases hskip
  · next hle =>
    refine ⟨⟨?_, ?_⟩, ⟨?_, ?_⟩, ?_, ?_⟩ <;> omega

/-- What an accepted request binds as integers: what its filters bind, and its page. -/
theorem mem_bindings_of_resolve (ht : r.schema.entryTable? request.contentType = some t)
    {c : QueryCall} (hc : r.resolve request target = .ok c) {b : Value × SqlType}
    (hint : b.2.OfIntegers) :
    b ∈ c.bindings ↔
      (∃ term ∈ request.filters, ∃ p, t.filter term = .ok p ∧ b ∈ (p.template (some "t")).bindings) ∨
        b = (.int request.skip, .integer) ∨ b = (.int request.take, .integer) := by
  obtain ⟨hskip, t', ht', l, -, filters, hfilters, order, -, rfl⟩ := resolve_eq_ok_iff.1 hc
  obtain rfl := Option.some.inj (ht.symm.trans ht')
  obtain ⟨-, -, hskipKept, htakeKept⟩ := page_fits hskip
  have hpairs := mapM_eq_ok.1 hfilters
  rw [QueryCall.mem_bindings hint]
  dsimp only
  rw [hskipKept, htakeKept]
  refine or_congr_left ⟨?_, ?_⟩
  · rintro ⟨p, hp, hb⟩
    obtain ⟨term, hterm, hfilter⟩ := exists_left_of_forall₂ hpairs hp
    exact ⟨term, hterm, p, hfilter, hb⟩
  · rintro ⟨term, hterm, p, hfilter, hb⟩
    obtain ⟨p', hp', hfilter'⟩ := exists_right_of_forall₂ hpairs hterm
    obtain rfl := Except.ok.inj (hfilter.symm.trans hfilter')
    exact ⟨p, hp', hb⟩

/-- The filters of an accepted request are accepted. -/
theorem exists_filter_of_resolve (ht : r.schema.entryTable? request.contentType = some t)
    {c : QueryCall} (hc : r.resolve request target = .ok c) {term : FilterTerm}
    (hterm : term ∈ request.filters) : ∃ p, t.filter term = .ok p := by
  obtain ⟨-, t', ht', l, -, filters, hfilters, order, -, rfl⟩ := resolve_eq_ok_iff.1 hc
  obtain rfl := Option.some.inj (ht.symm.trans ht')
  obtain ⟨p, -, hfilter⟩ := exists_right_of_forall₂ (mapM_eq_ok.1 hfilters) hterm
  exact ⟨p, hfilter⟩

/-- A request for a content type that has a table in a locale of the space is refused as a fault of the
query if one of its filters is. -/
theorem resolve_refused (ht : r.schema.entryTable? request.contentType = some t) {l : Locale}
    (hl : r.space.resolve request.locale? = .ok l) {term : FilterTerm}
    (hterm : term ∈ request.filters) {fault : QueryFault} (hfault : t.filter term = .error fault) :
    ∃ fault, r.resolve request target = .error (.query fault) := by
  have hquery {α : Type} {x : Except QueryFault α} {e : Error}
      (h : x.mapError Error.query = .error e) : ∃ fault, e = .query fault := by
    cases x with
    | ok a => cases h
    | error fault => exact ⟨fault, (Except.error.inj h).symm⟩
  cases hresult : r.resolve request target with
  | ok c =>
    obtain ⟨p, hfilter⟩ := exists_filter_of_resolve ht hresult hterm
    rw [hfault] at hfilter
    cases hfilter
  | error e =>
    suffices hfaulty : ∃ fault, e = .query fault by
      obtain ⟨fault, rfl⟩ := hfaulty
      exact ⟨fault, rfl⟩
    unfold resolve at hresult
    rcases bind_eq_error.1 hresult with hskip | ⟨_, -, hresult⟩
    · exact hquery hskip
    · rw [ht] at hresult
      rcases bind_eq_error.1 hresult with hlocale | ⟨l', -, hresult⟩
      · rw [hl] at hlocale
        cases hlocale
      · rcases bind_eq_error.1 hresult with hfilters | ⟨filters, -, hresult⟩
        · exact hquery hfilters
        · rcases bind_eq_error.1 hresult with horder | ⟨order, -, hresult⟩
          · exact hquery horder
          · cases hresult

/-- The integers that an accepted request binds are those that its filters ask for and its page. -/
theorem holdsInt_of_resolve (hschema : r.schema.Compiled)
    (ht : r.schema.entryTable? request.contentType = some t) {c : QueryCall}
    (hc : r.resolve request target = .ok c) (n : Int) :
    (∃ b ∈ c.bindings, b.2.OfIntegers ∧ b.1.HoldsInt n) ↔
      (∃ term ∈ request.filters, t.Asks term n) ∨ n = request.skip ∨ n = request.take := by
  have hmem : t ∈ r.schema.tables := (Schema.entryTable?_eq_some ht).1
  have hmemBindings {b : Value × SqlType} (hint : b.2.OfIntegers) :=
    mem_bindings_of_resolve ht hc hint
  constructor
  · rintro ⟨b, hb, hint, hn⟩
    rcases (hmemBindings hint).1 hb with ⟨term, hterm, p, hfilter, hb⟩ | rfl | rfl
    · exact .inl ⟨term, hterm, (TableLayout.holdsInt_iff_asks hschema hmem hfilter).1
        ⟨b, hb, hint, hn⟩⟩
    · exact .inr (.inl (Value.holdsInt_int.1 hn))
    · exact .inr (.inr (Value.holdsInt_int.1 hn))
  · rintro (⟨term, hterm, hasks⟩ | rfl | rfl)
    · obtain ⟨p, hfilter⟩ := exists_filter_of_resolve ht hc hterm
      obtain ⟨b, hb, hint, hn⟩ := (TableLayout.holdsInt_iff_asks hschema hmem hfilter).2 hasks
      exact ⟨b, (hmemBindings hint).2 (.inl ⟨term, hterm, p, hfilter, hb⟩), hint, hn⟩
    · have hbound := (hmemBindings (b := (.int request.skip, .integer)) trivial).2
        (.inr (.inl rfl))
      exact ⟨_, hbound, trivial, .self⟩
    · have hbound := (hmemBindings (b := (.int request.take, .integer)) trivial).2
        (.inr (.inr rfl))
      exact ⟨_, hbound, trivial, .self⟩

/-- The page of an accepted request fits, so its integers fit where its filters ask for numbers that
do. -/
theorem conforms_of_resolve (hschema : r.schema.Compiled)
    (ht : r.schema.entryTable? request.contentType = some t) {c : QueryCall}
    (hc : r.resolve request target = .ok c) :
    (∀ b ∈ c.bindings, b.2.OfIntegers → b.1.Conforms b.2) ↔
      ∀ term ∈ request.filters, ∀ n, t.Asks term n → Fits32 n := by
  have hmem : t ∈ r.schema.tables := (Schema.entryTable?_eq_some ht).1
  obtain ⟨hskipFits, htakeFits, -⟩ := page_fits (resolve_eq_ok_iff.1 hc).1
  constructor
  · intro hconforms term hterm n hasks
    obtain ⟨b, hb, hint, hn⟩ := (holdsInt_of_resolve hschema ht hc n).2 (.inl ⟨term, hterm, hasks⟩)
    exact (hconforms b hb hint).fits32 hint hn
  · intro hfits b hb hint
    rcases (mem_bindings_of_resolve ht hc hint).1 hb with ⟨term, hterm, p, hfilter, hb⟩ | rfl | rfl
    · exact (TableLayout.conforms_iff_asks hschema hmem hfilter).2 (hfits term hterm) b hb hint
    · exact Value.conforms_int.2 hskipFits
    · exact Value.conforms_int.2 htakeFits

/-- What an accepted request binds as integers. Both statements are rendered with what the call binds. The
integers among that are those that the filters ask for and the page, and the latter fits. So everything that is bound as an integer or an
array of integers lies within the range of its placeholder exactly when the filters ask for numbers
within the range. The numbers that they ask for have 64 bits: any other literal is refused as a fault of
the query. -/
theorem integers_bound (hschema : r.schema.Compiled)
    (ht : r.schema.entryTable? request.contentType = some t) :
    (∀ c, r.resolve request target = .ok c →
      c.count.params ++ c.items.params = c.bindings.map Prod.fst ∧
      (∀ n, (∃ b ∈ c.bindings, b.2.OfIntegers ∧ b.1.HoldsInt n) ↔
        (∃ term ∈ request.filters, t.Asks term n) ∨ n = request.skip ∨ n = request.take) ∧
      Fits32 request.skip ∧ Fits32 request.take ∧
      ((∀ b ∈ c.bindings, b.2.OfIntegers → b.1.Conforms b.2) ↔
        ∀ term ∈ request.filters, ∀ n, t.Asks term n → Fits32 n)) ∧
      (∀ term n, t.Asks term n → -9223372036854775808 ≤ n ∧ n ≤ 9223372036854775807) ∧
      ∀ l, r.space.resolve request.locale? = .ok l → ∀ term ∈ request.filters, ∀ column,
        t.columnAt term.path = .ok column → column.type.OfIntegers → ∀ raw ∈ term.literals,
        Literal.integer? raw = none → ∃ fault, r.resolve request target = .error (.query fault) := by
  have hmem : t ∈ r.schema.tables := (Schema.entryTable?_eq_some ht).1
  refine ⟨fun c hc => ?_, fun term n => ?_, fun l hl term hterm column hcolumn hint raw hraw hnone => ?_⟩
  · obtain ⟨hskipFits, htakeFits, -⟩ := page_fits (resolve_eq_ok_iff.1 hc).1
    exact ⟨c.params_eq_bindings, holdsInt_of_resolve hschema ht hc, hskipFits, htakeFits,
      conforms_of_resolve hschema ht hc⟩
  · rintro ⟨column, -, -, raw, -, hn⟩
    exact Literal.integer?_bound hn
  · obtain ⟨fault, hfault⟩ := TableLayout.filter_refused hschema hmem hcolumn hint hraw hnone
    exact resolve_refused ht hl hterm hfault

end Replica

namespace Catalog

/-- A request for the products at a price beyond the range of its column. -/
def hugePrice : QueryRequest := (QueryRequest.new "product").withFilter "fields.price" .eq ["2147483648"]

/-- A request for the products at a price that is no whole number. -/
def halfPrice : QueryRequest := (QueryRequest.new "product").withFilter "fields.price" .eq ["2.5"]

end Catalog

/-- All integers of the request for dear products fit, and the request for products at half a price is
refused. -/
theorem Replica.integers_bound_catalog :
    (∃ c, Catalog.replica.resolve Catalog.dearProducts .view = .ok c ∧
      ∀ b ∈ c.bindings, b.2.OfIntegers → b.1.Conforms b.2) ∧
    ∃ fault, Catalog.replica.resolve Catalog.halfPrice .function = .error (.query fault) := by
  have hschema : Catalog.replica.schema.Compiled := .all Catalog.types rfl
  have htable : Catalog.replica.schema.entryTable? "product" = some Catalog.productTable := by
    decide +kernel
  have hprice : Catalog.productTable.columnAt "price" = .ok ⟨⟨"price"⟩, .integer⟩ := by
    decide +kernel
  constructor
  · obtain ⟨c, hc⟩ := exists_of_isOk
      (show (Catalog.replica.resolve Catalog.dearProducts .view).isOk = true by decide +kernel)
    refine ⟨c, hc, ((integers_bound hschema htable).1 c hc).2.2.2.2.2 fun term hterm n => ?_⟩
    obtain rfl : term = ⟨"price", .gt, ["2"]⟩ := List.mem_singleton.1 hterm
    rintro ⟨column, -, -, raw, hraw, hn⟩
    obtain rfl : raw = "2" := List.mem_singleton.1 hraw
    obtain rfl : 2 = n := Option.some.inj ((show Literal.integer? "2" = some 2 by decide).symm.trans hn)
    exact ⟨by decide, by decide⟩
  · obtain ⟨l, hl⟩ := exists_of_isOk
      (show (Catalog.replica.space.resolve none).isOk = true by decide +kernel)
    exact (integers_bound hschema htable).2.2 l hl
      ⟨"price", .eq, ["2.5"]⟩ (List.mem_singleton.2 (by decide +kernel)) _ hprice trivial "2.5"
      (List.mem_singleton.2 rfl) (by decide)

/-- The request for products at a huge price is accepted, and binds an integer beyond the range. -/
theorem Replica.integers_bound_needs_range :
    ∃ c, Catalog.replica.resolve Catalog.hugePrice .function = .ok c ∧
      ∃ b ∈ c.bindings, b.2.OfIntegers ∧ ¬ b.1.Conforms b.2 := by
  have htable : Catalog.replica.schema.entryTable? "product" = some Catalog.productTable := by
    decide +kernel
  obtain ⟨c, hc⟩ := exists_of_isOk
    (show (Catalog.replica.resolve Catalog.hugePrice .function).isOk = true by decide +kernel)
  obtain ⟨p, hfilter⟩ := exists_filter_of_resolve htable hc (List.mem_singleton.2 rfl)
  have hasks : Catalog.productTable.Asks ⟨"price", .eq, ["2147483648"]⟩ 2147483648 :=
    ⟨⟨⟨"price"⟩, .integer⟩, by decide +kernel, trivial, "2147483648", List.mem_singleton.2 rfl,
      by decide⟩
  obtain ⟨b, hb, hint, hn⟩ := (TableLayout.holdsInt_iff_asks (.all Catalog.types rfl)
    (Schema.entryTable?_eq_some htable).1 hfilter).2 hasks
  refine ⟨c, hc, b, (mem_bindings_of_resolve htable hc hint).2
    (.inl ⟨_, List.mem_singleton.2 rfl, p, hfilter, hb⟩), hint, fun hconforms => ?_⟩
  exact absurd (hconforms.fits32 hint hn).2 (by decide)

end ContentReplica
