import ContentReplica.Proofs.Number.Rounding
import ContentReplica.Proofs.Query.Pages
import ContentReplica.Proofs.Replication.Conversion

/-!
# The order of numbers

A decimal column holds integers and other numbers side by side. Two integers compare exactly, and an
integer compares with a number as the number that it is rounded to. Any two of them compare, opposite
ways round, and being at most another is transitive but for one case: two different integers on both
sides of the number that both are rounded to (`Value.Blurred`). Where a column has no such integers, a
call sorts its rows by a consistent order (`Store.numbers_consistent`); otherwise the greater integer
can come first (`Database.selectRows_blurred`).
-/

namespace ContentReplica

namespace Value

variable {a b c : Value} {values : List Value}

/-! ## Comparing -/

/-- The values compare, and the first is not greater. -/
def AtMost (a b : Value) : Prop := ∃ o, a.compare? b = some o ∧ o.isLE = true

/-- The number that an integer or a number is compared as, unless both are integers. -/
def rounded : Value → Int
  | int n => (Double.ofInt n).scaled
  | float x => x.scaled
  | _ => 0

/-- Two different integers, the greater one first, on both sides of the number that both are rounded
to. -/
inductive Blurred : Value → Value → Value → Prop
  | around {m n : Int} {x : Double} (hlt : n < m) (hm : (Double.ofInt m).scaled = x.scaled)
      (hn : (Double.ofInt n).scaled = x.scaled) : Blurred (int m) (float x) (int n)

/-- Integers compare by their values. -/
theorem atMost_int {m n : Int} : AtMost (int m) (int n) ↔ m ≤ n := by
  simp [AtMost, compare?, Std.isLE_compare]

/-- Integers of decimal columns keep their order when they are rounded. -/
theorem rounded_mono {m n : Int} (hm : Conforms .decimal (int m)) (hn : Conforms .decimal (int n))
    (h : m ≤ n) : (int m).rounded ≤ (int n).rounded := by
  cases hm with | decimalInt hmlow hmhigh =>
  cases hn with | decimalInt hnlow hnhigh =>
  exact Double.scaled_ofInt_mono (by omega) (by omega) h

/-- Numbers of decimal columns compare as what they are rounded to, unless both are integers. -/
theorem compare?_cases (ha : Conforms .decimal a) (hb : Conforms .decimal b) :
    (∃ m n, a = int m ∧ b = int n) ∨ a.compare? b = some (compare a.rounded b.rounded) := by
  cases ha with
  | decimalInt =>
    cases hb with
    | decimalInt => exact .inl ⟨_, _, rfl, rfl⟩
    | decimalFloat => exact .inr rfl
  | decimalFloat => cases hb <;> exact .inr rfl

/-- Values compare opposite ways round. -/
theorem compare?_swap (a b : Value) : b.compare? a = (a.compare? b).map Ordering.swap := by
  cases a <;> cases b <;> first | rfl | exact congrArg some Std.OrientedOrd.eq_swap

/-- Any two numbers of decimal columns compare, opposite ways round. -/
theorem exists_compare? (ha : Conforms .decimal a) (hb : Conforms .decimal b) :
    ∃ o, a.compare? b = some o ∧ b.compare? a = some o.swap := by
  rcases compare?_cases ha hb with ⟨m, n, rfl, rfl⟩ | hab
  · exact ⟨_, rfl, compare?_swap _ _⟩
  · exact ⟨_, hab, by rw [compare?_swap a, hab, Option.map_some]⟩

/-- Equality is being at most the other both ways round. -/
theorem equals_iff_atMost (ha : Conforms .decimal a) (hb : Conforms .decimal b) :
    a.equals b = true ↔ a.AtMost b ∧ b.AtMost a := by
  have hequals : a.equals b = true ↔ a.compare? b = some .eq := by
    cases ha <;> cases hb <;> simp [equals, compare?, Double.same, Double.order]
  obtain ⟨o, hab, hba⟩ := exists_compare? ha hb
  rw [hequals, AtMost, AtMost, hab, hba]
  cases o <;> simp

/-! ## Transitivity -/

/-- A number that is at most another is not rounded to a greater one. -/
theorem AtMost.rounded_le (h : a.AtMost b) (ha : Conforms .decimal a) (hb : Conforms .decimal b) :
    a.rounded ≤ b.rounded := by
  rcases compare?_cases ha hb with ⟨m, n, rfl, rfl⟩ | hab
  · exact rounded_mono ha hb (atMost_int.1 h)
  · obtain ⟨o, ho, hle⟩ := h
    obtain rfl := Option.some.inj (hab.symm.trans ho)
    exact Std.isLE_compare.1 hle

/-- Of two integers that are rounded to one number the greater is not at most the other. -/
theorem Blurred.not_atMost (h : Blurred a b c) : ¬ a.AtMost c := by
  cases h with
  | around hlt => exact fun h => absurd (atMost_int.1 h) (Int.not_le.2 hlt)

/-- One of two integers that are rounded to one number is beyond 2^53. -/
theorem Blurred.beyond {m n : Int} (h : Blurred (int m) b (int n)) :
    2 ^ 53 < m.natAbs ∨ 2 ^ 53 < n.natAbs := by
  cases h with
  | around hlt hm hn =>
    by_contra hsmall
    obtain ⟨hmsmall, hnsmall⟩ := not_or.1 hsmall
    rw [← hn, Double.scaled_ofInt_of_small (Nat.le_of_not_lt hmsmall),
      Double.scaled_ofInt_of_small (Nat.le_of_not_lt hnsmall)] at hm
    have hunit : (Double.unit : Int) ≠ 0 := Int.natCast_ne_zero.2 Double.unit_pos.ne'
    exact absurd (Int.eq_of_mul_eq_mul_right hunit hm) (Int.ne_of_gt hlt)

/-- Being at most another is transitive, except between integers that are rounded to one number. -/
theorem AtMost.trans (hab : a.AtMost b) (hbc : b.AtMost c) (ha : Conforms .decimal a)
    (hb : Conforms .decimal b) (hc : Conforms .decimal c) : a.AtMost c ∨ Blurred a b c := by
  have hroundedAb := hab.rounded_le ha hb
  have hroundedBc := hbc.rounded_le hb hc
  rcases compare?_cases ha hc with ⟨m, n, rfl, rfl⟩ | hac
  · by_cases hmn : m ≤ n
    · exact .inl (atMost_int.2 hmn)
    · -- The integers descend, so there is a number between them, and nothing between their values.
      have hroundedCa := rounded_mono hc ha (Int.le_of_not_le hmn)
      cases hb with
      | decimalInt => exact absurd (Int.le_trans (atMost_int.1 hab) (atMost_int.1 hbc)) hmn
      | decimalFloat x =>
        exact .inr (.around (Int.not_le.1 hmn)
          (Int.le_antisymm hroundedAb (Int.le_trans hroundedBc hroundedCa))
          (Int.le_antisymm (Int.le_trans hroundedCa hroundedAb) hroundedBc))
  · exact .inl ⟨_, hac, Std.isLE_compare.2 (Int.le_trans hroundedAb hroundedBc)⟩

/-- The exact condition for transitivity. -/
theorem atMost_iff_not_blurred (hab : a.AtMost b) (hbc : b.AtMost c) (ha : Conforms .decimal a)
    (hb : Conforms .decimal b) (hc : Conforms .decimal c) : a.AtMost c ↔ ¬ Blurred a b c :=
  ⟨fun h hblurred => hblurred.not_atMost h, (hab.trans hbc ha hb hc).resolve_right⟩

/-! ## Columns -/

/-- The values of a column compare consistently: those that are not NULL compare, opposite ways round,
and being at most another is transitive. -/
structure Coherent (values : List Value) : Prop where
  compares : ∀ a ∈ values, ∀ b ∈ values, a.isNull = false → b.isNull = false →
    ∃ o, a.compare? b = some o ∧ b.compare? a = some o.swap
  trans : ∀ a ∈ values, ∀ b ∈ values, ∀ c ∈ values, a.AtMost b → b.AtMost c → a.AtMost c

/-- NULL or numbers, without different integers around a number that they are rounded to. -/
structure Sharp (values : List Value) : Prop where
  null_or_conforms : ∀ v ∈ values, v = null ∨ Conforms .decimal v
  not_blurred : ∀ a ∈ values, ∀ b ∈ values, ∀ c ∈ values, ¬ Blurred a b c

/-- NULL, an integer up to 2^53 or another number. -/
def isSmall : Value → Bool
  | null | float _ => true
  | int n => n.natAbs ≤ 2 ^ 53
  | _ => false

/-- Integers up to 2^53 and other numbers are sharp. -/
theorem Sharp.of_small (h : ∀ v ∈ values, v.isSmall = true) : Sharp values := by
  constructor
  · intro v hv
    have hsmall := h v hv
    cases v with
    | null => exact .inl rfl
    | int n =>
      have hn : n.natAbs ≤ 2 ^ 53 := of_decide_eq_true hsmall
      exact .inr (.decimalInt (by omega) (by omega))
    | float x => exact .inr (.decimalFloat x)
    | _ => cases hsmall
  · intro a ha b _ c hc hblurred
    obtain ⟨m, n, rfl, rfl⟩ : ∃ m n, a = int m ∧ c = int n := by
      cases hblurred
      exact ⟨_, _, rfl, rfl⟩
    rcases hblurred.beyond with hbeyond | hbeyond
    · exact absurd (of_decide_eq_true (h _ ha)) (Nat.not_le.2 hbeyond)
    · exact absurd (of_decide_eq_true (h _ hc)) (Nat.not_le.2 hbeyond)

/-- A value that compares with another is not NULL. -/
theorem AtMost.isNull (h : a.AtMost b) : a.isNull = false ∧ b.isNull = false := by
  obtain ⟨o, ho, -⟩ := h
  cases a <;> cases b <;> first | exact ⟨rfl, rfl⟩ | cases ho

/-- Numbers that are not blurred compare consistently. -/
theorem Sharp.coherent (h : Sharp values) : Coherent values := by
  have hconforms (v : Value) (hv : v ∈ values) (hnull : v.isNull = false) : Conforms .decimal v :=
    (h.null_or_conforms v hv).resolve_left fun he => by rw [he] at hnull; cases hnull
  constructor
  · exact fun a ha b hb hnull hnull' => exists_compare? (hconforms a ha hnull) (hconforms b hb hnull')
  · intro a ha b hb c hc hab hbc
    exact (hab.trans hbc (hconforms a ha hab.isNull.1) (hconforms b hb hab.isNull.2)
      (hconforms c hc hbc.isNull.2)).resolve_right (h.not_blurred a ha b hb c hc)

/-- A value that is less than another is at most that. -/
theorem Less.atMost (h : a.Less b) : a.AtMost b := by
  cases h with
  | int h => exact atMost_int.2 (Int.le_of_lt h)
  | text h => exact ⟨.lt, congrArg some (compare_lt_iff_lt.2 h), rfl⟩
  | bool => exact ⟨.lt, rfl, rfl⟩

/-- Of values of one kind, one that is at most another is equal to it or less. -/
theorem AtMost.eq_or_less {kind : Kind} (h : a.AtMost b) (ha : a.isOfKind kind = true)
    (hb : b.isOfKind kind = true) : a = b ∨ a.Less b := by
  obtain ⟨o, ho, htells⟩ := compare?_tells ha hb h.isNull.1 h.isNull.2
  obtain ⟨o', ho', hle⟩ := h
  obtain rfl := Option.some.inj (ho.symm.trans ho')
  cases o with
  | lt => exact .inr htells
  | eq => exact .inl htells
  | gt => cases hle

/-- Values of one kind compare consistently. -/
theorem OneKind.coherent (h : OneKind values) : Coherent values := by
  obtain ⟨kind, hkind⟩ := h
  constructor
  · intro a ha b hb hnull hnull'
    obtain ⟨o, hab, -⟩ := compare?_tells (hkind a ha) (hkind b hb) hnull hnull'
    exact ⟨o, hab, by rw [compare?_swap a, hab, Option.map_some]⟩
  · intro a ha b hb c hc hab hbc
    rcases hab.eq_or_less (hkind a ha) (hkind b hb) with rfl | hless
    · exact hbc
    · rcases hbc.eq_or_less (hkind b hb) (hkind c hc) with rfl | hless'
      · exact hab
      · exact (hless.trans hless').atMost

/-- In one direction a value is not behind another if that is NULL, or both are not and compare so. -/
theorem Coherent.compareNullsLast_isLE (h : Coherent values) (ha : a ∈ values) (hb : b ∈ values)
    (descending : Bool) : (compareNullsLast descending a b).isLE = true ↔
      b.isNull = true ∨ if descending then b.AtMost a else a.AtMost b := by
  cases hnull : a.isNull <;> cases hnull' : b.isNull
  · obtain ⟨o, hab, hba⟩ := h.compares a ha b hb hnull hnull'
    cases descending <;> cases o <;> simp [compareNullsLast, AtMost, hnull, hnull', hab, hba]
  · simp [compareNullsLast, hnull, hnull']
  · have hab : ¬ a.AtMost b := fun h => by simp [h.isNull.1] at hnull
    have hba : ¬ b.AtMost a := fun h => by simp [h.isNull.2] at hnull
    cases descending <;> simp [compareNullsLast, hnull, hnull', hab, hba]
  · simp [compareNullsLast, hnull, hnull']

/-- Coherent values compare consistently in either direction with NULL behind everything. -/
theorem Coherent.transCmp (h : Coherent values) (descending : Bool) :
    Std.TransCmp fun a b : {v // v ∈ values} => compareNullsLast descending a.1 b.1 where
  eq_swap := by
    rintro ⟨a, ha⟩ ⟨b, hb⟩
    dsimp only
    cases hnull : a.isNull <;> cases hnull' : b.isNull <;>
      simp only [compareNullsLast, hnull, hnull', Ordering.swap]
    obtain ⟨o, hab, hba⟩ := h.compares a ha b hb hnull hnull'
    rw [hab, hba]
    cases descending <;> cases o <;> rfl
  isLE_trans := by
    rintro ⟨a, ha⟩ ⟨b, hb⟩ ⟨c, hc⟩
    dsimp only
    rw [h.compareNullsLast_isLE ha hb, h.compareNullsLast_isLE hb hc, h.compareNullsLast_isLE ha hc]
    rintro hab (hnull | hbc)
    · exact .inl hnull
    · cases descending with
      | false => exact .inr (h.trans a ha b hb c hc (hab.resolve_left (by simp [hbc.isNull.1])) hbc)
      | true => exact .inr (h.trans c hc b hb a ha hbc (hab.resolve_left (by simp [hbc.isNull.2])))

end Value

/-! ## Rows -/

/-- A list that a comparison orders consistently is sorted by it. -/
theorem pairwise_isLE_insertionSort {α : Type} {cmp : α → α → Ordering} {xs : List α}
    (h : Std.TransCmp fun a b : {x // x ∈ xs} => cmp a.1 b.1) :
    (insertionSort (fun a b => cmp a b == .lt) xs).Pairwise fun a b => (cmp a b).isLE = true := by
  -- The comparison is transitive on the elements of the list, so the order keeps to them.
  let le (a b : α) : Prop := a ∈ xs ∧ b ∈ xs ∧ (cmp a b).isLE = true
  have htrans {a b c : α} : le a b → le b c → le a c := by
    rintro ⟨ha, hb, hab⟩ ⟨-, hc, hbc⟩
    exact ⟨ha, hc, h.isLE_trans (a := ⟨a, ha⟩) (b := ⟨b, hb⟩) (c := ⟨c, hc⟩) hab hbc⟩
  refine (pairwise_insertionSort le htrans fun a ha b hb => ?_).imp fun hab => hab.2.2
  have hswap : cmp b a = (cmp a b).swap := h.eq_swap (a := ⟨b, hb⟩) (b := ⟨a, ha⟩)
  cases hab : cmp a b with
  | lt => exact ⟨ha, hb, by rw [hab]; rfl⟩
  | eq => exact ⟨hb, ha, by rw [hswap, hab]; rfl⟩
  | gt => exact ⟨hb, ha, by rw [hswap, hab]; rfl⟩

namespace Row

/-- The columns of an order hold numbers that are not blurred, or one kind of value, or NULL. -/
def Sortable (order : List OrderTerm) (rows : List Row) : Prop :=
  ∀ t ∈ order, Value.Sharp (rows.map fun row => row.cell t.column) ∨
    Value.OneKind (rows.map fun row => row.cell t.column)

variable {order : List OrderTerm} {rows : List Row}

/-- Rows with sortable columns compare consistently. -/
theorem Sortable.transCmp (h : Sortable order rows) :
    Std.TransCmp fun a b : {row // row ∈ rows} => compareBy order a.1 b.1 := by
  induction order with
  | nil => exact { eq_swap := rfl, isLE_trans := fun _ _ => rfl }
  | cons t order ih =>
    obtain ⟨hcolumn, hrest⟩ := List.forall_mem_cons.1 h
    have hvalues := (hcolumn.elim Value.Sharp.coherent Value.OneKind.coherent).transCmp t.descending
    let cell (row : {row // row ∈ rows}) : {v // v ∈ rows.map fun row => row.cell t.column} :=
      ⟨row.1.cell t.column, List.mem_map_of_mem row.2⟩
    have hcells : Std.TransCmp fun a b : {row // row ∈ rows} =>
        Value.compareNullsLast t.descending (cell a).1 (cell b).1 :=
      { eq_swap := hvalues.eq_swap, isLE_trans := hvalues.isLE_trans }
    have hrows := ih hrest
    exact inferInstanceAs (Std.TransCmp (compareLex _ _))

/-- Rows with sortable columns are sorted by the order. -/
theorem Sortable.pairwise (h : Sortable order rows) :
    (insertionSort (fun a b => compareBy order a b == .lt) rows).Pairwise
      fun a b => (compareBy order a b).isLE = true :=
  pairwise_isLE_insertionSort h.transCmp

end Row

/-! ## Calls -/

/-- Where the other terms of the order do not decide otherwise, a greater integer stays in front of a
smaller one that is rounded to the same number, if the number stands between them. -/
theorem Database.selectRows_blurred {c : QueryCall} {column : Ident} {rest : List OrderTerm}
    {rows : List Row} {first second third : Row} (hrows : c.matching rows = [first, second, third])
    (horder : c.effectiveOrder = ⟨column, false⟩ :: rest)
    (hblurred : Value.Blurred (first.cell column) (second.cell column) (third.cell column))
    (hsecond : Row.compareBy rest second first ≠ .lt)
    (hthird : Row.compareBy rest third second ≠ .lt) :
    selectRows c rows = [first, second, third] ∧
      Row.compareBy c.effectiveOrder third first = .lt := by
  rw [Store.selectRows_eq, hrows, horder]
  generalize hfirstCell : first.cell column = a at hblurred
  generalize hsecondCell : second.cell column = b at hblurred
  generalize hthirdCell : third.cell column = c at hblurred
  cases hblurred with
  | @around m n x hlt hm hn =>
    have hsecondFirst : Row.compareBy (⟨column, false⟩ :: rest) second first
        = Row.compareBy rest second first := by
      simp [Row.compareBy, hfirstCell, hsecondCell, Value.compareNullsLast, Value.isNull,
        Value.compare?, Double.order, hm]
    have hthirdSecond : Row.compareBy (⟨column, false⟩ :: rest) third second
        = Row.compareBy rest third second := by
      simp [Row.compareBy, hthirdCell, hsecondCell, Value.compareNullsLast, Value.isNull,
        Value.compare?, Double.order, hn]
    have hthirdFirst : Row.compareBy (⟨column, false⟩ :: rest) third first = .lt := by
      simp [Row.compareBy, hthirdCell, hfirstCell, Value.compareNullsLast, Value.isNull,
        Value.compare?, compare_lt_iff_lt.2 hlt]
    refine ⟨?_, hthirdFirst⟩
    simp [insertionSort, sink, hsecondFirst, hthirdSecond, hsecond, hthird]

namespace Store

/-- Comparing numbers. Any two values of decimal columns compare, opposite ways round, and equality is
symmetric. Being at most another and equality are transitive exactly where the values are not two
different integers around a number that both are rounded to, and of two such integers one is beyond
2^53. So if the columns of the order of a call hold numbers without such integers, or one kind of value,
or NULL, the rows that satisfy its filters compare consistently, there is one sorted list of them, and
every page is a window of it. -/
theorem numbers_consistent (a b c : Value) (s : Store) (q : QueryCall) :
    (a.Conforms .decimal → b.Conforms .decimal → c.Conforms .decimal →
      (∃ o, a.compare? b = some o ∧ b.compare? a = some o.swap) ∧
      a.equals b = b.equals a ∧
      (a.AtMost b → b.AtMost c → (a.AtMost c ↔ ¬ Value.Blurred a b c)) ∧
      (a.equals b = true → b.equals c = true →
        (a.equals c = true ↔ ¬ Value.Blurred a b c ∧ ¬ Value.Blurred c b a)) ∧
      ∀ m n : Int, a = .int m → c = .int n → Value.Blurred a b c →
        2 ^ 53 < m.natAbs ∨ 2 ^ 53 < n.natAbs) ∧
    ∀ rows, s.database.callRows q = .ok rows → Row.Sortable q.effectiveOrder (q.matching rows) →
      (Std.TransCmp fun a b : {row // row ∈ q.matching rows} =>
        Row.compareBy q.effectiveOrder a.1 b.1) ∧
      ∃ sorted : List Row, sorted.Perm (q.matching rows) ∧
        sorted.Pairwise (fun a b => (Row.compareBy q.effectiveOrder a b).isLE = true) ∧
        ∀ skip take, s.call { q with skip := skip, take := take }
          = .ok ⟨(q.matching rows).length,
              .arr (((sorted.drop skip).take take).map Row.document)⟩ := by
  refine ⟨fun ha hb hc => ⟨Value.exists_compare? ha hb, ?_, fun hab hbc => ?_, ?_, ?_⟩,
    fun rows hrows hsortable => ?_⟩
  · rw [Bool.eq_iff_iff, Value.equals_iff_atMost ha hb, Value.equals_iff_atMost hb ha, and_comm]
  · exact Value.atMost_iff_not_blurred hab hbc ha hb hc
  · rw [Value.equals_iff_atMost ha hb, Value.equals_iff_atMost hb hc, Value.equals_iff_atMost ha hc]
    rintro ⟨hab, hba⟩ ⟨hbc, hcb⟩
    rw [Value.atMost_iff_not_blurred hab hbc ha hb hc, Value.atMost_iff_not_blurred hcb hba hc hb ha]
  · rintro m n rfl rfl hblurred
    exact hblurred.beyond
  · refine ⟨hsortable.transCmp, Database.selectRows q rows, selectRows_perm q rows, ?_,
      fun skip take => call_eq (c := { q with skip := skip, take := take }) hrows⟩
    rw [selectRows_eq]
    exact hsortable.pairwise

end Store

namespace Catalog

/-- Gauges, each with a level. -/
def gauges : Replica :=
  ⟨.compile [.new "gauge" [.new "level" .number]], space, namespaceName⟩

/-- A page with a gauge for each level. -/
def gaugePage (levels : List (String × Json)) : SyncPage :=
  levels.foldl (fun p (id, level) => p.withEntry ((Entry.new id "gauge").withField "level" english level))
    (.empty (.done "first"))

/-- A store with the gauges of a page. -/
def gauged (levels : List (String × Json)) : Store :=
  match gauges.schema.ddl namespaceName space, gauges.pageBatch (gaugePage levels) with
  | .ok ddl, .ok batch =>
    (Store.empty.execute (ddl ++ gauges.schema.functionStatements namespaceName 1 ++ batch)).2
  | _, _ => .empty

/-- The gauges, the lowest first. -/
def lowest : QueryCall :=
  ⟨.function ⟨namespaceName, ⟨"q_gauge"⟩⟩, english, [], [⟨⟨"level"⟩, false⟩], 0, 10⟩

/-- Integers, a number and no level. -/
def mixedLevels : List (String × Json) :=
  [("g1", .int 3), ("g2", .num (.double ((Double.nearest? 5 2).getD .zero))), ("g3", .null),
    ("g4", .int 2)]

/-- The integer behind 2^53, the number 2^53, and the integer 2^53. -/
def blurredLevels : List (String × Json) :=
  [("g1", .int 9007199254740993), ("g2", .num (.double (Double.ofInt 9007199254740992))),
    ("g3", .int 9007199254740992)]

end Catalog

/-- The integer behind 2^53 equals the number 2^53, and so does the integer 2^53, but neither are the
integers equal nor is the first at most the second. The gauges with mixed levels are sorted. -/
theorem Store.numbers_consistent_catalog :
    (Value.equals (.int 9007199254740993) (.float (Double.ofInt 9007199254740992)) = true ∧
      Value.equals (.float (Double.ofInt 9007199254740992)) (.int 9007199254740992) = true ∧
      Value.equals (.int 9007199254740993) (.int 9007199254740992) ≠ true ∧
      ¬ Value.AtMost (.int 9007199254740993) (.int 9007199254740992) ∧
      (2 ^ 53 < (9007199254740993 : Int).natAbs ∨ 2 ^ 53 < (9007199254740992 : Int).natAbs)) ∧
    ∃ rows, (Catalog.gauged Catalog.mixedLevels).database.callRows Catalog.lowest = .ok rows ∧
      Row.Sortable Catalog.lowest.effectiveOrder (Catalog.lowest.matching rows) ∧
      (Catalog.lowest.matching rows).length = 4 ∧
      ∃ sorted : List Row, sorted.Perm (Catalog.lowest.matching rows) ∧
        sorted.Pairwise
          (fun a b => (Row.compareBy Catalog.lowest.effectiveOrder a b).isLE = true) := by
  obtain ⟨hnumbers, hcalls⟩ := numbers_consistent (.int 9007199254740993)
    (.float (Double.ofInt 9007199254740992)) (.int 9007199254740992)
    (Catalog.gauged Catalog.mixedLevels) Catalog.lowest
  constructor
  · have hblurred : Value.Blurred (.int 9007199254740993) (.float (Double.ofInt 9007199254740992))
        (.int 9007199254740992) := .around (by decide) (by decide +kernel) rfl
    have hequals : Value.equals (.int 9007199254740993) (.float (Double.ofInt 9007199254740992)) = true ∧
        Value.equals (.float (Double.ofInt 9007199254740992)) (.int 9007199254740992) = true := by
      decide +kernel
    obtain ⟨-, -, hatMost, hequal, hbeyond⟩ := hnumbers (.decimalInt (by decide) (by decide))
      (.decimalFloat _) (.decimalInt (by decide) (by decide))
    refine ⟨hequals.1, hequals.2, fun h => ((hequal hequals.1 hequals.2).1 h).1 hblurred,
      fun h => (hatMost ?_ ?_).1 h hblurred, hbeyond _ _ rfl rfl hblurred⟩
    · exact ⟨.eq, by decide +kernel, rfl⟩
    · exact ⟨.eq, by decide +kernel, rfl⟩
  · have hlevels : ((Catalog.gauged Catalog.mixedLevels).database.callRows
        Catalog.lowest).toOption.any (fun rows => (Catalog.lowest.matching rows).length == 4 &&
          (Catalog.lowest.matching rows).all fun row =>
            (row.cell ⟨"level"⟩).isSmall && (row.cell Column.sysId).isOfKind .text) = true := by
      decide +kernel
    obtain ⟨rows, hrows, hlevels⟩ := exists_of_toOption_any hlevels
    simp only [Bool.and_eq_true, List.all_eq_true, beq_iff_eq] at hlevels
    obtain ⟨hlength, hcells⟩ := hlevels
    have hsortable : Row.Sortable Catalog.lowest.effectiveOrder (Catalog.lowest.matching rows) := by
      have horder : Catalog.lowest.effectiveOrder = [⟨⟨"level"⟩, false⟩, ⟨Column.sysId, false⟩] := by
        decide
      rw [horder]
      refine List.forall_mem_cons.2 ⟨.inl (.of_small (List.forall_mem_map.2 fun row hrow => ?_)),
        List.forall_mem_singleton.2 (.inr ⟨.text, List.forall_mem_map.2 fun row hrow => ?_⟩)⟩
      · exact (hcells row hrow).1
      · exact (hcells row hrow).2
    obtain ⟨-, sorted, hperm, hsorted, -⟩ := hcalls rows hrows hsortable
    exact ⟨rows, hrows, hsortable, hlength, sorted, hperm, hsorted⟩

/-- The gauges with blurred levels, the lowest first, begin with the highest level. -/
theorem Store.numbers_consistent_needs_sharp :
    ∃ rows, (Catalog.gauged Catalog.blurredLevels).database.callRows Catalog.lowest = .ok rows ∧
      (Database.selectRows Catalog.lowest rows).map (fun row => (row.cell ⟨"level"⟩).toText?)
        = [some "9007199254740993", some "9007199254740992", some "9007199254740992"] := by
  have hlevels : ((Catalog.gauged Catalog.blurredLevels).database.callRows
      Catalog.lowest).toOption.any (fun rows =>
        (Database.selectRows Catalog.lowest rows).map (fun row => (row.cell ⟨"level"⟩).toText?)
          == [some "9007199254740993", some "9007199254740992", some "9007199254740992"]) = true := by
    decide +kernel
  obtain ⟨rows, hrows, hlevels⟩ := exists_of_toOption_any hlevels
  exact ⟨rows, hrows, beq_iff_eq.1 hlevels⟩

end ContentReplica
