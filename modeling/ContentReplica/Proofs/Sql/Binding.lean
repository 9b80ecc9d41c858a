import ContentReplica.Proofs.Query.Columns
import ContentReplica.Proofs.Sql.Placeholders
import ContentReplica.Proofs.Sql.Suffix
import ContentReplica.Sql.Call

/-!
# Values are bound, never written

Statements that change rows and calls of query functions are written with a placeholder for every value.
Two of them that differ in their values alone have the same texts, and the placeholders of a text number
the values that go with it from left to right (`values_stay_bound`). `Predicate.blank`,
`Statement.blank` and `QueryCall.blank` take out what may differ.
-/

namespace ContentReplica

open Template

/-! ## Names -/

/-- A plain name has no placeholders. -/
theorem Unnumbered.of_isPlain {s : String} (h : Ident.isPlain s = true) : Unnumbered s := fun hm =>
  absurd ((Ident.isPlain_spec h).2.1 _ hm) (by decide)

/-- The name is in plain form. -/
def Ident.Plain (i : Ident) : Prop := isPlain i.text = true

/-- A plain name between quotes has no placeholders. -/
theorem Ident.Plain.quoted {i : Ident} (h : i.Plain) : Unnumbered i.quoted := by
  simp +decide [Ident.quoted, Unnumbered.of_isPlain h]

/-- Plain names between quotes with commas between them have no placeholders. -/
theorem Ident.Plain.quotedList {idents : List Ident} (h : ∀ i ∈ idents, i.Plain) :
    Unnumbered (quotedList idents) := by
  refine .intercalate (by decide) fun s hs => ?_
  obtain ⟨i, hi, rfl⟩ := List.mem_map.1 hs
  exact (h i hi).quoted

/-- Both parts of the name are in plain form. -/
def QualifiedName.Plain (q : QualifiedName) : Prop := q.namespaceName.Plain ∧ q.name.Plain

/-- Plain names between quotes have no placeholders. -/
theorem QualifiedName.Plain.quoted {q : QualifiedName} (h : q.Plain) : Unnumbered q.quoted := by
  simp +decide [QualifiedName.quoted, h.1.quoted, h.2.quoted]

/-! ## Conditions -/

namespace Predicate

mutual

/-- A condition with its values and patterns taken out. -/
def blank : Predicate → Predicate
  | compare column op _ => compare column op .null
  | isNull column => isNull column
  | isNotNull column => isNotNull column
  | «matches» column _ => «matches» column ""
  | containsAll column _ => containsAll column []
  | anyOf column _ => anyOf column []
  | noneOf column _ => noneOf column []
  | and parts => and (blankAll parts)

/-- Conditions with their values and patterns taken out. -/
def blankAll : List Predicate → List Predicate
  | [] => []
  | p :: rest => p.blank :: blankAll rest

end

mutual

/-- The values that a condition binds, from left to right. -/
def values : Predicate → List Value
  | compare _ _ value => [value]
  | isNull _ | isNotNull _ => []
  | «matches» _ pattern => [.text pattern]
  | containsAll _ values | anyOf _ values | noneOf _ values => [.array values]
  | and parts => valuesAll parts

/-- The values that a list of conditions binds, from left to right. -/
def valuesAll : List Predicate → List Value
  | [] => []
  | p :: rest => p.values ++ valuesAll rest

end

section
variable (qualifier : Option String)

mutual

/-- The template of a condition is settled by the condition without its values, but for these. -/
theorem skeleton_template : ∀ p : Predicate,
    (p.blank.template qualifier).skeleton = (p.template qualifier).skeleton
  | compare .. | isNull _ | isNotNull _ | «matches» .. | containsAll .. => rfl
  | anyOf column _ => by
    rw [blank, template, template]
    split <;> rfl
  | noneOf column _ => by
    rw [blank, template, template]
    split <;> rfl
  | and [] => rfl
  | and (p :: rest) => by
    simp [blank, blankAll, template, skeleton_template p, skeleton_conjuncts rest]

/-- The template of further parts is settled by the parts without their values, but for these. -/
theorem skeleton_conjuncts : ∀ parts : List Predicate,
    (conjuncts qualifier (blankAll parts)).skeleton = (conjuncts qualifier parts).skeleton
  | [] => rfl
  | p :: rest => by
    simp [blankAll, conjuncts, skeleton_template p, skeleton_conjuncts rest]

end

mutual

/-- The template of a condition binds its values in their order. -/
theorem params_template : ∀ p : Predicate, (p.template qualifier).params = p.values
  | compare .. | isNull _ | isNotNull _ | «matches» .. | containsAll .. => rfl
  | anyOf column _ => by
    rw [template]
    split <;> rfl
  | noneOf column _ => by
    rw [template]
    split <;> rfl
  | and [] => rfl
  | and (p :: rest) => by
    simp [template, values, valuesAll, params_template p, params_conjuncts rest]

/-- The template of further parts binds their values in their order. -/
theorem params_conjuncts : ∀ parts : List Predicate,
    (conjuncts qualifier parts).params = valuesAll parts
  | [] => rfl
  | p :: rest => by
    simp [conjuncts, valuesAll, params_template p, params_conjuncts rest]

end

mutual

/-- A condition on plain columns is written with the placeholders of its values alone. -/
theorem fixed_template (hq : ∀ c : ColumnRef, c.name.Plain → Unnumbered (c.sql qualifier)) :
    ∀ {p : Predicate}, (∀ c ∈ p.columns, c.name.Plain) → (p.template qualifier).Fixed
  | compare column op _, h => by
    have hop : Unnumbered op.sql := by cases op <;> decide
    simp +decide [template, hq column (h column (by simp [columns])), hop]
  | isNull column, h | isNotNull column, h | containsAll column _, h => by
    simp +decide [template, hq column (h column (by simp [columns]))]
  | «matches» column _, h | anyOf column _, h | noneOf column _, h => by
    have hcolumn := hq column (h column (by simp [columns]))
    rw [template]
    split <;> simp +decide [hcolumn]
  | and [], _ => by simp +decide [template]
  | and (p :: rest), h => by
    simp only [columns, partColumns, List.forall_mem_append] at h
    simp +decide [template, fixed_template hq h.1, fixed_conjuncts hq h.2]

/-- Further conditions on plain columns are written with the placeholders of their values alone. -/
theorem fixed_conjuncts (hq : ∀ c : ColumnRef, c.name.Plain → Unnumbered (c.sql qualifier)) :
    ∀ {parts : List Predicate}, (∀ c ∈ partColumns parts, c.name.Plain) →
      (conjuncts qualifier parts).Fixed
  | [], _ => fixed_nil
  | p :: rest, h => by
    simp only [partColumns, List.forall_mem_append] at h
    simp +decide [conjuncts, fixed_template hq h.1, fixed_conjuncts hq h.2]

end

end

end Predicate

/-! ## Chunks -/

namespace Plan

variable {α β : Type} {size : Nat}

/-- The parts of a list make up the list. -/
theorem flatten_chunks (h : 0 < size) (xs : List α) : (chunks size xs).flatten = xs := by
  suffices hgo : ∀ fuel xs, xs.length ≤ fuel → (chunks.go size fuel xs).flatten = (xs : List α) from
    hgo xs.length xs le_rfl
  intro fuel
  induction fuel with
  | zero => intro xs hfuel; simp_all [chunks.go]
  | succ fuel ih =>
    intro xs hfuel
    rw [chunks.go]
    split
    · simp_all
    · rw [List.flatten_cons, ih _ (by grind), List.take_append_drop]

/-- No part is empty or greater than asked for. -/
theorem length_of_mem_chunks (h : 0 < size) {xs chunk : List α} (hc : chunk ∈ chunks size xs) :
    0 < chunk.length ∧ chunk.length ≤ size := by
  suffices hgo : ∀ fuel xs, chunk ∈ chunks.go size fuel xs →
      0 < chunk.length ∧ chunk.length ≤ size from hgo xs.length xs hc
  intro fuel
  induction fuel with
  | zero => intro xs hmem; simp [chunks.go] at hmem
  | succ fuel ih =>
    intro xs hmem
    rw [chunks.go] at hmem
    split at hmem
    · simp at hmem
    · rcases List.mem_cons.1 hmem with rfl | hmem
      · grind
      · exact ih _ hmem

/-- Cutting goes by the places alone. -/
theorem chunks_map (f : α → β) (xs : List α) :
    chunks size (xs.map f) = (chunks size xs).map (List.map f) := by
  suffices hgo : ∀ fuel xs, chunks.go size fuel (xs.map f)
      = (chunks.go size fuel xs).map (List.map f) by
    simpa [chunks] using hgo xs.length xs
  intro fuel
  induction fuel with
  | zero => intro xs; rfl
  | succ fuel ih =>
    intro xs
    rw [chunks.go, chunks.go, List.isEmpty_map]
    split
    · rfl
    · rw [← List.map_drop, ih, List.map_cons, List.map_take]

end Plan

/-! ## Statements -/

namespace Statement

/-- A statement that binds its values: it changes rows, and is no bulk copy. -/
def bindsValues : Statement → Bool
  | upsert .. | insert .. | delete .. | saveSyncToken .. => true
  | _ => false

/-- Rows with their values taken out. -/
def blankRows (rows : List (List Value)) : List (List Value) :=
  rows.map fun row => List.replicate row.length .null

/-- A statement with its values, patterns and token taken out. -/
def blank : Statement → Statement
  | upsert table columns rows conflict => upsert table columns (blankRows rows) conflict
  | insert table columns rows => insert table columns (blankRows rows)
  | delete table predicate => delete table predicate.blank
  | saveSyncToken name _ => saveSyncToken name ""
  | s => s

/-- The names in a statement that binds its values are plain. -/
def Plain : Statement → Prop
  | upsert table columns _ conflict =>
    table.Plain ∧ (∀ c ∈ columns, c.name.Plain) ∧ conflict.Plain
  | insert table columns _ => table.Plain ∧ ∀ c ∈ columns, c.name.Plain
  | delete table predicate => table.Plain ∧ ∀ c ∈ predicate.columns, c.name.Plain
  | saveSyncToken name _ => name.Plain
  | _ => True

/-- The values that a statement binds, for each of its texts: those of its rows that have a column,
row by row, those of its condition, or its token. -/
def boundValues : Statement → List (List Value)
  | upsert _ columns rows _ | insert _ columns rows =>
    (Plan.chunks rowsPerStatement rows).map (List.flatMap (List.take columns.length))
  | delete _ predicate => [predicate.values]
  | saveSyncToken _ token => [[.text token]]
  | _ => []

section
variable {table : QualifiedName} {columns : List ColumnDef} {rows : List (List Value)}
  {ending : String}

/-- The values of a tuple have columns. -/
theorem params_tuple (columns : List ColumnDef) (row : List Value) :
    (tuple columns row).params = row.take columns.length := by
  have hvalues : (row.zip columns).map Prod.fst = row.take columns.length := by
    induction row generalizing columns with
    | nil => simp
    | cons v row ih => cases columns <;> simp_all
  rw [← hvalues, List.map_eq_flatMap]
  simp [tuple, Template.params_join, List.flatMap_map]

/-- The text of a tuple does not depend on its values. -/
theorem skeleton_tuple (columns : List ColumnDef) (row : List Value) :
    (tuple columns (List.replicate row.length .null)).skeleton = (tuple columns row).skeleton := by
  have hvalues : ((List.replicate row.length Value.null).zip columns).map
      (fun vc => (Template.value vc.1 vc.2.type).skeleton)
      = (row.zip columns).map fun vc => (Template.value vc.1 vc.2.type).skeleton := by
    induction row generalizing columns with
    | nil => rfl
    | cons v row ih =>
      cases columns with
      | nil => rfl
      | cons c columns => exact congrArg (_ :: ·) (ih columns)
  simp [tuple, Template.skeleton_join, Function.comp_def, hvalues]

/-- A tuple is written with the placeholders of its values alone. -/
theorem fixed_tuple (columns : List ColumnDef) (row : List Value) : (tuple columns row).Fixed := by
  have hvalues : (Template.join ", "
      ((row.zip columns).map fun vc => Template.value vc.1 vc.2.type)).Fixed := by
    refine .join (by decide) fun t ht => ?_
    obtain ⟨vc, -, rfl⟩ := List.mem_map.1 ht
    exact fixed_value
  simp +decide [tuple, hvalues]

/-- An insertion binds the values of its rows that have columns. -/
theorem params_insertTemplate :
    (insertTemplate table columns ending rows).params = rows.flatMap (·.take columns.length) := by
  simp [insertTemplate, Template.params_join, List.flatMap_map, params_tuple]

/-- The text of an insertion does not depend on the values of its rows. -/
theorem skeleton_insertTemplate :
    (insertTemplate table columns ending (blankRows rows)).skeleton
      = (insertTemplate table columns ending rows).skeleton := by
  simp [insertTemplate, blankRows, Template.skeleton_join, Function.comp_def, skeleton_tuple]

/-- An insertion into plain columns is written with the placeholders of its values alone. -/
theorem fixed_insertTemplate (ht : table.Plain) (hc : ∀ c ∈ columns, c.name.Plain)
    (he : Unnumbered ending) : (insertTemplate table columns ending rows).Fixed := by
  have hnames : Unnumbered (Ident.quotedList (columns.map ColumnDef.name)) :=
    Ident.Plain.quotedList (List.forall_mem_map.2 hc)
  have htuples : (Template.join ", " (rows.map (tuple columns))).Fixed :=
    .join (by decide) (List.forall_mem_map.2 fun row _ => fixed_tuple columns row)
  simp +decide [insertTemplate, ht.quoted, hnames, htuples, he]

/-- What an upsert does with a row whose key is there has no placeholders. -/
theorem unnumbered_conflictClause {conflict : Ident} (hc : ∀ c ∈ columns, c.name.Plain)
    (hk : conflict.Plain) : Unnumbered (conflictClause columns conflict) := by
  have hupdates : Unnumbered (", ".intercalate ((columns.filter fun c => c.name ≠ conflict).map
      fun c => c.name.quoted ++ " = EXCLUDED." ++ c.name.quoted)) := by
    refine .intercalate (by decide) (List.forall_mem_map.2 fun c hmem => ?_)
    have hname := (hc c (List.mem_of_mem_filter hmem)).quoted
    simp +decide [hname]
  unfold conflictClause
  dsimp only
  split
  · simp +decide [hk.quoted]
  · simp +decide only [Unnumbered.append_iff, hk.quoted, hupdates]

/-- The texts of insertions do not depend on the values of their rows. -/
theorem sql_renderInsert :
    (renderInsert table columns (blankRows rows) ending).map Rendered.sql
      = (renderInsert table columns rows ending).map Rendered.sql := by
  rw [renderInsert, blankRows, Plan.chunks_map, renderInsert, List.map_map, List.map_map,
    List.map_map]
  exact List.map_congr_left fun _ _ => Template.sqlFrom_congr skeleton_insertTemplate 1

/-- Insertions bind the values of their rows that have columns, chunk by chunk. -/
theorem params_renderInsert :
    (renderInsert table columns rows ending).map Rendered.params
      = (Plan.chunks rowsPerStatement rows).map (List.flatMap (List.take columns.length)) := by
  rw [renderInsert, List.map_map]
  exact List.map_congr_left fun rows _ => @params_insertTemplate table columns rows ending

/-- Insertions into plain columns number their values. -/
theorem numbered_renderInsert (ht : table.Plain) (hc : ∀ c ∈ columns, c.name.Plain)
    (he : Unnumbered ending) : ∀ r ∈ renderInsert table columns rows ending, r.Numbered :=
  List.forall_mem_map.2 fun _ _ => (fixed_insertTemplate ht hc he).numbered

end

/-- The texts of a statement do not depend on its values. -/
theorem sql_blank (s : Statement) : s.blank.render.map Rendered.sql = s.render.map Rendered.sql := by
  cases s with
  | upsert | insert => exact sql_renderInsert
  | delete table predicate =>
    exact congrArg (fun sql => [_ ++ sql])
      (Template.sqlFrom_congr (predicate.skeleton_template none) 1)
  | _ => rfl

/-- A statement binds its values in their order. -/
theorem params_render {s : Statement} (h : s.bindsValues = true) :
    s.render.map Rendered.params = s.boundValues := by
  cases s with
  | upsert | insert => exact params_renderInsert
  | delete table predicate => exact congrArg ([·]) (predicate.params_template none)
  | saveSyncToken => rfl
  | _ => cases h

/-- A statement with plain names numbers its values. -/
theorem numbered_render {s : Statement} (h : s.bindsValues = true) (hp : s.Plain) :
    ∀ r ∈ s.render, r.Numbered := by
  cases s with
  | upsert =>
    exact numbered_renderInsert hp.1 hp.2.1 (unnumbered_conflictClause hp.2.1 hp.2.2)
  | insert => exact numbered_renderInsert hp.1 hp.2 (by decide)
  | delete table predicate =>
    refine List.forall_mem_singleton.2 (Template.Fixed.numbered ?_)
    have hcondition := Predicate.fixed_template none (fun _ hc => hc.quoted) hp.2
    simp +decide [hp.1.quoted, hcondition]
  | saveSyncToken name token =>
    refine List.forall_mem_singleton.2 (Template.Fixed.numbered ?_)
    simp +decide [Ident.Plain.quoted hp]
  | _ => cases h

end Statement

/-! ## Calls -/

namespace QueryCall

/-- A call with its values, patterns, locale and page taken out. -/
def blank (c : QueryCall) : QueryCall :=
  { c with locale := "", filters := Predicate.blankAll c.filters, skip := 0, take := 0 }

/-- The names in a call are plain. -/
def Plain (c : QueryCall) : Prop :=
  (match c.source with
    | .function name | .view name => name.Plain) ∧
    (∀ column ∈ Predicate.partColumns c.filters, column.name.Plain) ∧
    ∀ term ∈ c.order, term.column.Plain

/-- The values that both statements of a call bind: the locale of a function, and the values of the
filters. -/
def values (c : QueryCall) : List Value :=
  (match c.source with
    | .function _ => [.text c.locale]
    | .view _ => []) ++ Predicate.valuesAll c.filters

/-- The text of the source of a call, in both of its statements. -/
def sourceSql (c : QueryCall) : String := c.fromTemplate.sqlFrom 1

/-- The text of the condition of a call, in both of its statements. -/
def conditionSql (c : QueryCall) : String :=
  c.conditionTemplate.sqlFrom (1 + c.fromTemplate.params.length)

variable {c : QueryCall}

/-- The text of the source does not depend on the locale. -/
theorem skeleton_fromTemplate : c.blank.fromTemplate.skeleton = c.fromTemplate.skeleton := by
  unfold fromTemplate blank
  cases c.source <;> rfl

/-- The text of the condition does not depend on the values of the filters. -/
theorem skeleton_conditionTemplate :
    c.blank.conditionTemplate.skeleton = c.conditionTemplate.skeleton :=
  (Predicate.and c.filters).skeleton_template (some "t")

/-- A plain source is written with the placeholder of the locale alone. -/
theorem fixed_fromTemplate (h : c.Plain) : c.fromTemplate.Fixed := by
  have hname := h.1
  unfold fromTemplate
  split at hname <;> simp_all +decide [QualifiedName.Plain.quoted]

/-- A condition on plain columns is written with the placeholders of its values alone. -/
theorem fixed_conditionTemplate (h : c.Plain) : c.conditionTemplate.Fixed := by
  refine Predicate.fixed_template (some "t") (fun column hc => ?_) h.2.1
  have halias : Unnumbered ("t" ++ ".") := by decide
  exact Unnumbered.append_iff.2 ⟨halias, hc.quoted⟩

/-- The terms of an order by plain columns are written without placeholders. -/
theorem unnumbered_orderSql (h : c.Plain) {qualifier : String} (hq : Unnumbered qualifier) :
    Unnumbered (c.orderSql qualifier) := by
  have hplain : ∀ term ∈ c.effectiveOrder, term.column.Plain := by
    intro term hterm
    unfold effectiveOrder at hterm
    split at hterm
    · exact h.2.2 term hterm
    · rcases List.mem_append.1 hterm with hterm | hterm
      · exact h.2.2 term hterm
      · obtain rfl := List.mem_singleton.1 hterm
        exact show Ident.isPlain "sys_id" = true by decide
  refine .intercalate (by decide) (List.forall_mem_map.2 fun term hterm => ?_)
  have hcolumn := (hplain term hterm).quoted
  cases term.descending <;> simp +decide [hq, hcolumn]

/-- The two statements of a call bind the same values, and the second the page. -/
theorem params_call : c.count.params = c.values ∧ c.items.params = c.values ++
    [.int (min c.skip largestInt64), .int (min c.take largestInt64)] := by
  have hfrom : c.fromTemplate.params
      = match c.source with | .function _ => [.text c.locale] | .view _ => [] := by
    unfold fromTemplate
    cases c.source <;> rfl
  have hcondition : c.conditionTemplate.params = Predicate.valuesAll c.filters :=
    (Predicate.and c.filters).params_template (some "t")
  constructor <;>
    simp [count, items, countTemplate, itemsTemplate, Template.render, values, hfrom, hcondition,
      Template.params]

/-- A call with plain names numbers its values in both statements. -/
theorem numbered_call (h : c.Plain) : c.count.Numbered ∧ c.items.Numbered := by
  have hinner := unnumbered_orderSql h (show Unnumbered "t" by decide)
  have houter := unnumbered_orderSql h (show Unnumbered "p" by decide)
  constructor <;> refine Template.Fixed.numbered ?_ <;>
    simp +decide [countTemplate, itemsTemplate, fixed_fromTemplate h, fixed_conditionTemplate h,
      hinner, houter]

/-- The texts of both statements do not depend on the values. -/
theorem sql_call_blank : c.blank.count.sql = c.count.sql ∧ c.blank.items.sql = c.items.sql := by
  constructor <;> refine Template.sqlFrom_congr ?_ 1 <;>
    simp only [countTemplate, itemsTemplate, Template.skeleton_text, Template.skeleton_append,
      skeleton_fromTemplate, skeleton_conditionTemplate]
  rfl

/-- Both statements have the text of the source and that of the condition in them. -/
theorem sql_call :
    c.count.sql = "SELECT count(*) FROM " ++ c.sourceSql ++ " WHERE " ++ c.conditionSql ∧
    c.items.sql = "SELECT COALESCE(jsonb_agg(p.\"_data\" ORDER BY " ++ c.orderSql "p"
      ++ "), '[]'::jsonb) FROM (SELECT t.* FROM " ++ c.sourceSql ++ " WHERE " ++ c.conditionSql
      ++ " ORDER BY " ++ c.orderSql "t"
      ++ " OFFSET " ++ Template.placeholder (c.count.params.length + 1) .integer
      ++ " LIMIT " ++ Template.placeholder (c.count.params.length + 2) .integer ++ ") AS p" := by
  have hlength : 1 + c.fromTemplate.params.length + c.conditionTemplate.params.length
      = c.count.params.length + 1 := by
    simp only [count, countTemplate, Template.render, Template.params_text, Template.params_append,
      List.length_append]
    omega
  constructor
  · simp only [count, countTemplate, Template.render, Template.sqlFrom, Template.sqlFrom_append,
      sourceSql, conditionSql, String.append_assoc]
  · simp only [items, itemsTemplate, Template.render, Template.sqlFrom, Template.sqlFrom_append,
      sourceSql, conditionSql, Template.value, Template.lit, Template.params, List.length_singleton, hlength,
      String.append_assoc, String.append_empty]

/-- A call for a page behind the greatest number that fits 64 bits with a sign. -/
def deepPage : QueryCall where
  source := .view ⟨⟨"content"⟩, ⟨"mv_product__en_us"⟩⟩
  locale := "en-US"
  filters := []
  order := []
  skip := Nat.pow 2 63
  take := 10

/-- Behind that number the page that is bound is not the one that was asked for. -/
theorem deepPage_items_params :
    deepPage.items.params ≠ deepPage.count.params ++ [.int deepPage.skip, .int deepPage.take] := by
  rw [params_call.1, params_call.2]
  intro h
  have hskip := (List.cons.inj (List.append_cancel_left h)).1
  exact absurd (Value.int.inj hskip) (by decide)

end QueryCall

/-! ## Texts and values -/

/-- Values never reach the text of a statement that changes rows, or of a call. Where only values
differ the texts are the same. The placeholders of a text number its values from left to right, and
the values are those of the statement or call in their order. Insertions go through all rows, chunk
by chunk. Both statements of a call read the same source under the same condition and bind the same
values; the second also binds how many rows to pass over and to take, numbers that do not fit 64 bits
with a sign cut to the greatest that does. -/
theorem values_stay_bound :
    (∀ s s' : Statement, s.blank = s'.blank →
      s.render.map Rendered.sql = s'.render.map Rendered.sql) ∧
    (∀ c c' : QueryCall, c.blank = c'.blank →
      c.count.sql = c'.count.sql ∧ c.items.sql = c'.items.sql) ∧
    (∀ s : Statement, s.bindsValues = true →
      s.render.map Rendered.params = s.boundValues ∧ (s.Plain → ∀ r ∈ s.render, r.Numbered)) ∧
    (∀ table columns rows, ∃ chunks : List (List (List Value)),
      chunks.flatten = rows ∧
      (∀ chunk ∈ chunks, 0 < chunk.length ∧ chunk.length ≤ rowsPerStatement) ∧
      (Statement.insert table columns rows).render
        = chunks.map (fun chunk => (Statement.insertTemplate table columns "" chunk).render) ∧
      ∀ conflict, (Statement.upsert table columns rows conflict).render
        = chunks.map fun chunk => (Statement.insertTemplate table columns
            (Statement.conflictClause columns conflict) chunk).render) ∧
    (∀ c : QueryCall,
      (c.Plain → c.count.Numbered ∧ c.items.Numbered) ∧
      c.count.params = c.values ∧
      c.items.params = c.count.params ++ [.int (min c.skip QueryCall.largestInt64),
        .int (min c.take QueryCall.largestInt64)] ∧
      c.count.sql = "SELECT count(*) FROM " ++ c.sourceSql ++ " WHERE " ++ c.conditionSql ∧
      c.items.sql = "SELECT COALESCE(jsonb_agg(p.\"_data\" ORDER BY " ++ c.orderSql "p"
        ++ "), '[]'::jsonb) FROM (SELECT t.* FROM " ++ c.sourceSql ++ " WHERE " ++ c.conditionSql
        ++ " ORDER BY " ++ c.orderSql "t"
        ++ " OFFSET " ++ Template.placeholder (c.count.params.length + 1) .integer
        ++ " LIMIT " ++ Template.placeholder (c.count.params.length + 2) .integer ++ ") AS p") := by
  refine ⟨fun s s' h => ?_, fun c c' h => ?_, fun s hs => ?_, fun table columns rows => ?_,
    fun c => ?_⟩
  · rw [← s.sql_blank, h, s'.sql_blank]
  · rw [← c.sql_call_blank.1, ← c.sql_call_blank.2, h]
    exact c'.sql_call_blank
  · exact ⟨Statement.params_render hs, Statement.numbered_render hs⟩
  · have hsize : 0 < rowsPerStatement := by decide
    exact ⟨Plan.chunks rowsPerStatement rows, Plan.flatten_chunks hsize rows,
      fun _ hchunk => Plan.length_of_mem_chunks hsize hchunk, rfl, fun _ => rfl⟩
  · refine ⟨c.numbered_call, c.params_call.1, ?_, c.sql_call⟩
    rw [c.params_call.1]
    exact c.params_call.2

/-- A deletion by a text that would end the statement, and a search for it: the text of the first is
that of any deletion by `sys_id`, and both statements of the second number what they bind. -/
theorem values_stay_bound_catalog :
    let table : QualifiedName := ⟨⟨"content"⟩, ⟨"product"⟩⟩
    let delete (id : String) : Statement := .delete table (.textEq "sys_id" id)
    let call (text : String) : QueryCall :=
      ⟨.function ⟨⟨"content"⟩, ⟨"q_product"⟩⟩, "en-US", [.matches ⟨⟨"name"⟩, .text⟩ text],
        [⟨⟨"price"⟩, true⟩], 0, 10⟩
    (delete "x'; DROP TABLE product; --").render.map Rendered.sql
      = (delete "x").render.map Rendered.sql ∧
    (delete "x'; DROP TABLE product; --").render.map Rendered.params
      = [[.text "x'; DROP TABLE product; --"]] ∧
    (∀ r ∈ (delete "x'; DROP TABLE product; --").render, r.Numbered) ∧
    (call "%').*--").items.sql = (call "").items.sql ∧
    (call "%').*--").count.Numbered ∧ (call "%').*--").items.Numbered := by
  intro table delete call
  obtain ⟨hstatements, hcalls, hvalues, -, hpages⟩ := values_stay_bound
  have hname : ∀ s, Ident.isPlain s = true → Ident.Plain ⟨s⟩ := fun _ h => h
  have hbound := hvalues (delete "x'; DROP TABLE product; --") rfl
  have hplain : (delete "x'; DROP TABLE product; --").Plain :=
    ⟨⟨hname _ (by decide), hname _ (by decide)⟩,
      List.forall_mem_singleton.2 (hname _ (by decide))⟩
  have hnumbered := (hpages (call "%').*--")).1
    ⟨⟨hname _ (by decide), hname _ (by decide)⟩,
      List.forall_mem_singleton.2 (hname _ (by decide)),
      List.forall_mem_singleton.2 (hname _ (by decide))⟩
  exact ⟨hstatements _ _ rfl, hbound.1, hbound.2 hplain, (hcalls _ _ rfl).2, hnumbered⟩

end ContentReplica
