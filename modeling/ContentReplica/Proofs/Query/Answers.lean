import ContentReplica.Proofs.Lookup
import ContentReplica.Proofs.Query.Relations
import ContentReplica.Proofs.Store.Frame
import ContentReplica.Proofs.Store.Table
import ContentReplica.Store
import Mathlib.Data.List.Forall2

/-!
# The answer to a call

A call without filters that takes all rows gives the documents of all records that have a row in the
default locale, in some order. If one record has the identity that is asked for, one document of the
page shows it (`Store.call_document`). A document is read by `Json.sys?` and `Json.field?`.
-/

namespace ContentReplica

/-! ## Reading documents -/

namespace Json

/-- A member of the system part of a document. -/
def sys? (document : Json) (key : String) : Option Json :=
  (document.get? "sys").bind fun sys => sys.get? key

/-- A member of the fields of a document. -/
def field? (document : Json) (fieldId : String) : Option Json :=
  (document.get? "fields").bind fun fields => fields.get? fieldId

/-- The identity of the record that a document shows. -/
def recordId? (document : Json) : Option String := (document.sys? "id").bind text?

/-- A member of an object is found under its key if no other has it. -/
theorem get?_mkObj {members : List (String × Json)} {key : String} {value : Json}
    (hnodup : (members.map Prod.fst).Nodup) (h : (key, value) ∈ members) :
    (mkObj members).get? key = some value := by
  suffices ∀ acc, Entries.get? (members.foldl (fun acc e => Entries.insert e.1 e.2 acc) acc) key
      = some value from this []
  induction members with
  | nil => exact absurd h List.not_mem_nil
  | cons member members ih =>
    rw [List.map_cons, List.nodup_cons] at hnodup
    intro acc
    rw [List.foldl_cons]
    rcases List.mem_cons.1 h with rfl | h
    · suffices ∀ acc, Entries.get? acc key = some value →
          Entries.get? (members.foldl (fun acc e => Entries.insert e.1 e.2 acc) acc) key
            = some value from this _ (by simp [Entries.get?_insert])
      clear ih h
      induction members with
      | nil => exact fun _ h => h
      | cons member members ih =>
        rw [List.map_cons, List.mem_cons, not_or, List.nodup_cons] at hnodup
        intro acc hacc
        refine ih ⟨hnodup.1.2, hnodup.2.2⟩ _ ?_
        rw [Entries.get?_insert, if_neg fun he => hnodup.1.1 (Std.LawfulEqCmp.eq_of_compare he)]
        exact hacc
    · exact ih hnodup.2 h _

/-- A field of a document is found under its identity if no other has it. -/
theorem field?_mkObj {sys value : Json} {members : List (String × Json)} {fieldId : String}
    (hnodup : (members.map Prod.fst).Nodup) (h : (fieldId, value) ∈ members) :
    (mkObj [("sys", sys), ("fields", .mkObj members)]).field? fieldId = some value := by
  have hfields : (mkObj [("sys", sys), ("fields", .mkObj members)]).get? "fields"
      = some (.mkObj members) := get?_mkObj (by simp) (by simp)
  unfold field?
  rw [hfields]
  exact get?_mkObj hnodup h

end Json

/-! ## Sorting and selecting -/

/-- An element that is put into a list is in it, beside what was there. -/
theorem sink_perm {α : Type} (lt : α → α → Bool) (x : α) :
    ∀ sorted : List α, (sink lt x sorted).Perm (x :: sorted)
  | [] => .refl _
  | y :: rest => by
    rw [sink]
    split
    · exact ((sink_perm lt x rest).cons y).trans (.swap x y rest)
    · exact .refl _

/-- Sorting keeps the elements. -/
theorem insertionSort_perm {α : Type} (lt : α → α → Bool) (xs : List α) :
    (insertionSort lt xs).Perm xs := by
  suffices ∀ sorted : List α,
      (xs.foldl (fun sorted x => sink lt x sorted) sorted).Perm (xs.reverse ++ sorted) by
    have hperm := this []
    rw [List.append_nil] at hperm
    exact (List.reverse_perm _).trans (hperm.trans (List.reverse_perm _))
  induction xs with
  | nil => exact fun _ => .refl _
  | cons x xs ih =>
    intro sorted
    rw [List.foldl_cons, List.reverse_cons, List.append_assoc]
    exact (ih _).trans ((sink_perm lt x sorted).append_left _)

section
variable {α : Type} {lt : α → α → Bool} (le : α → α → Prop)

/-- An element that is put into a descending list goes to its place. -/
theorem pairwise_sink (htrans : ∀ {a b c}, le a b → le b c → le a c) {x : α} :
    ∀ {sorted : List α}, (∀ y ∈ sorted, if lt x y then le x y else le y x) →
      sorted.Pairwise (fun a b => le b a) → (sink lt x sorted).Pairwise fun a b => le b a
  | [], _, _ => List.pairwise_singleton _ x
  | y :: rest, hlt, h => by
    obtain ⟨hy, hrest⟩ := List.pairwise_cons.1 h
    obtain ⟨hxy, hlt⟩ := List.forall_mem_cons.1 hlt
    rw [sink]
    split at hxy
    · next hless =>
      rw [if_pos hless]
      refine List.pairwise_cons.2 ⟨fun z hz => ?_, pairwise_sink htrans hlt hrest⟩
      rcases List.mem_cons.1 ((sink_perm lt x rest).mem_iff.1 hz) with rfl | hz
      · exact hxy
      · exact hy z hz
    · next hless =>
      rw [if_neg hless]
      refine List.pairwise_cons.2 ⟨fun z hz => ?_, h⟩
      rcases List.mem_cons.1 hz with rfl | hz
      · exact hxy
      · exact htrans (hy z hz) hxy

/-- A sorted list ascends. -/
theorem pairwise_insertionSort (htrans : ∀ {a b c}, le a b → le b c → le a c) {xs : List α}
    (hlt : ∀ a ∈ xs, ∀ b ∈ xs, if lt a b then le a b else le b a) :
    (insertionSort lt xs).Pairwise le := by
  suffices ∀ ys sorted : List α, (∀ a ∈ ys, a ∈ xs) → (∀ a ∈ sorted, a ∈ xs) →
      sorted.Pairwise (fun a b => le b a) →
      (ys.foldl (fun sorted x => sink lt x sorted) sorted).Pairwise fun a b => le b a from
    List.pairwise_reverse.2 (this xs [] (fun _ h => h) nofun .nil)
  intro ys
  induction ys with
  | nil => exact fun _ _ _ h => h
  | cons x ys ih =>
    intro sorted hys hsorted h
    obtain ⟨hx, hys⟩ := List.forall_mem_cons.1 hys
    have hsink : (sink lt x sorted).Pairwise fun a b => le b a :=
      pairwise_sink le htrans (fun y hy => hlt x hx y (hsorted y hy)) h
    refine ih _ hys (fun a ha => ?_) hsink
    rcases List.mem_cons.1 ((sink_perm lt x sorted).mem_iff.1 ha) with rfl | ha
    · exact hx
    · exact hsorted a ha

end

/-- One element alone passes a test. -/
theorem filter_eq_singleton {α : Type} {p : α → Bool} {xs : List α} {a : α} (hnodup : xs.Nodup)
    (ha : a ∈ xs) (hpa : p a = true) (hunique : ∀ x ∈ xs, p x = true → x = a) :
    xs.filter p = [a] := by
  refine List.perm_singleton.1 ((List.perm_ext_iff_of_nodup (hnodup.filter _)
    (List.nodup_singleton a)).2 fun x => ?_)
  rw [List.mem_filter, List.mem_singleton]
  exact ⟨fun h => hunique x h.1 h.2, fun h => h ▸ ⟨ha, hpa⟩⟩

/-! ## Documents of rows -/

namespace Namespace

variable {n : Namespace} {lc : LocaleContext}

/-- The document of a row has the metadata of the row. -/
theorem sys?_document {root : PlanNode} {base : Row} {doc : Json}
    (h : n.document lc base root = .ok doc) :
    doc.sys? "id" = some (base.cell Column.sysId).toJson ∧
      doc.sys? "locale" = some (.str lc.requested) := by
  cases root with
  | mk source localized fields =>
    rw [document] at h
    obtain ⟨members, -, h⟩ := bind_eq_ok.1 h
    obtain rfl := pure_eq_ok.1 h
    unfold Json.sys?
    rw [Json.get?_mkObj (by simp) (List.mem_cons_self ..)]
    dsimp only [Option.bind]
    unfold sysDocument
    cases source.kind <;>
      exact ⟨Json.get?_mkObj (by simp) (by simp), Json.get?_mkObj (by simp) (by simp)⟩

/-- The result row of a record holds its document. -/
theorem data_resultRow {root : PlanNode} {base row : Row} (h : n.resultRow lc root base = .ok row) :
    ∃ doc, n.document lc base root = .ok doc ∧ row.cell Column.data = .json doc := by
  unfold resultRow at h
  obtain ⟨cells, -, h⟩ := bind_eq_ok.1 h
  obtain ⟨doc, hdoc, h⟩ := bind_eq_ok.1 h
  obtain rfl := pure_eq_ok.1 h
  refine ⟨doc, hdoc, ?_⟩
  unfold Row.cell
  rw [SortedMap.get?_insert_self]
  rfl

/-- A record has a result row where the relations of the plan stand. -/
theorem resultRow_isOk {root : PlanNode} (h : n.Stands root.relations) (base : Row) :
    ∃ row, n.resultRow lc root base = .ok row := by
  have htable : ∃ t, n.table root.source.table.name = .ok t := by
    cases root
    exact h _ (PlanNode.relations_mk .. ▸ List.mem_cons_self ..)
  obtain ⟨doc, hdoc⟩ : ∃ doc, n.document lc base root = .ok doc := document_isOk root base h
  unfold resultRow
  dsimp only
  obtain ⟨cells, hcells⟩ : ∃ cells, n.fieldCells lc root.source.table.name root.hasLocalized base
      root.fields _ = .ok cells := fieldCells_isOk htable root.fields _
  exact ⟨_, bind_eq_ok.2 ⟨cells, hcells, bind_eq_ok.2 ⟨doc, hdoc, rfl⟩⟩⟩

end Namespace

/-- A plan has a row for each record that has a row in the default locale. -/
theorem Namespace.exists_evaluate {n : Namespace} {plan : Plan} {lc : LocaleContext} {t : Table}
    {locale : String} (hcontext : n.localeContext? plan locale = .ok (some lc))
    (hstands : n.Stands plan.root.relations)
    (ht : n.table plan.root.source.table.name = .ok t) :
    ∃ rows, n.evaluate plan locale = .ok rows ∧
      (t.rows.values.filter fun row => row.text? Column.locale == some lc.default).mapM
        (n.resultRow lc plan.root) = .ok rows := by
  obtain ⟨rows, hrows⟩ := mapM_isOk fun base _ => resultRow_isOk hstands base
  refine ⟨rows, ?_, hrows⟩
  unfold evaluate
  rw [hcontext]
  dsimp only [bind, Except.bind]
  rw [ht]
  exact hrows

/-! ## Calls -/

/-- The call asks for all rows of a query function in a locale. -/
structure QueryCall.AsksAll (c : QueryCall) (function : QualifiedName) (locale : String)
    (count : Nat) : Prop where
  source : c.source = .function function
  locale : c.locale = locale
  filters : c.filters = []
  skip : c.skip = 0
  take : count ≤ c.take

/-- A call for all rows sorts them and leaves none out. -/
theorem QueryCall.AsksAll.selectRows_perm {c : QueryCall} {function : QualifiedName}
    {locale : String} {count : Nat} (h : c.AsksAll function locale count) (rows : List Row) :
    (Database.selectRows c rows).Perm rows := by
  have hall : rows.filter (Predicate.and c.filters).holds = rows := by
    rw [h.filters]
    exact List.filter_eq_self.2 fun _ _ => rfl
  unfold Database.selectRows
  rw [hall]
  exact insertionSort_perm _ _

namespace Store

variable {s : Store} {ns name : Ident} {n : Namespace} {plan : Plan} {lc : LocaleContext}
  {t : Table} {c : QueryCall} {locale id : String}

/-- A call for all rows gives the documents of the records that have a row in the default locale. -/
theorem call_documents (hn : s.namespace? ns = some n) (hplan : n.functions.get? name = some plan)
    (hcontext : n.localeContext? plan locale = .ok (some lc))
    (hstands : n.Stands plan.root.relations)
    (ht : n.table plan.root.source.table.name = .ok t)
    (hc : c.AsksAll ⟨ns, name⟩ locale t.rows.values.length) :
    ∃ page docs, s.call c = .ok page ∧ page.itemList.Perm docs ∧
      List.Forall₂ (fun base doc => n.document lc base plan.root = .ok doc)
        (t.rows.values.filter fun row => row.text? Column.locale == some lc.default) docs := by
  obtain ⟨rows, hevaluate, hrows⟩ := Namespace.exists_evaluate hcontext hstands ht
  have hcallRows : s.database.callRows c = .ok rows := by
    have hns : s.database.namespace ns = .ok n := Database.namespace_eq_ok.2 hn
    unfold Database.callRows
    rw [hc.source]
    dsimp only
    rw [hns]
    dsimp only [bind, Except.bind]
    rw [hplan, hc.locale]
    exact hevaluate
  have hlength : rows.length ≤ c.take := by
    rw [← (mapM_eq_ok.1 hrows).length_eq]
    exact Nat.le_trans (List.length_filter_le _ _) hc.take
  have hselect := hc.selectRows_perm rows
  have hdocs : List.Forall₂ (fun base doc => n.document lc base plan.root = .ok doc)
      (t.rows.values.filter fun row => row.text? Column.locale == some lc.default)
      (rows.map fun row => (row.cell Column.data).toJson) := by
    rw [List.forall₂_map_right_iff]
    refine (mapM_eq_ok.1 hrows).imp fun base row hrow => ?_
    obtain ⟨doc, hdoc, hdata⟩ := Namespace.data_resultRow hrow
    rw [hdata]
    exact hdoc
  have hcall : s.call c = .ok ⟨(Database.selectRows c rows).length,
      .arr ((((Database.selectRows c rows).drop c.skip).take c.take).map fun row =>
        (row.cell Column.data).toJson)⟩ := by
    unfold call Database.call
    rw [hcallRows]
    rfl
  refine ⟨_, _, hcall, ?_, hdocs⟩
  unfold QueryPage.itemList
  dsimp only
  rw [hc.skip, List.drop_zero, List.take_of_length_le (hselect.length_eq ▸ hlength)]
  exact hselect.map _

/-- Of the documents of a page one shows a record that has a row in the default locale. -/
theorem call_document (hn : s.namespace? ns = some n) (hplan : n.functions.get? name = some plan)
    (hcontext : n.localeContext? plan locale = .ok (some lc))
    (hstands : n.Stands plan.root.relations)
    (ht : n.table plan.root.source.table.name = .ok t) (hnodup : t.rows.values.Nodup)
    (hids : ∀ row ∈ t.rows.values, ∃ id, row.cell Column.sysId = .text id)
    {base : Row} (hbase : base ∈ t.rows.values) (hid : base.cell Column.sysId = .text id)
    (hdefault : base.cell Column.locale = .text lc.default)
    (hunique : ∀ row ∈ t.rows.values, row.cell Column.sysId = .text id →
      row.cell Column.locale = .text lc.default → row = base)
    (hc : c.AsksAll ⟨ns, name⟩ locale t.rows.values.length) :
    ∃ page doc, s.call c = .ok page ∧ n.document lc base plan.root = .ok doc ∧
      page.itemList.filter (fun item => item.recordId? == some id) = [doc] := by
  obtain ⟨page, docs, hcall, hperm, hdocs⟩ := call_documents hn hplan hcontext hstands ht hc
  have hrecord : ∀ base doc, (base ∈ t.rows.values ∧ n.document lc base plan.root = .ok doc) →
      ((doc.recordId? == some id) = true ↔ (base.text? Column.sysId == some id) = true) := by
    rintro base doc ⟨hbase, hdoc⟩
    obtain ⟨id', hid'⟩ := hids base hbase
    unfold Json.recordId?
    rw [(Namespace.sys?_document hdoc).1, hid', Row.text?_eq_some.2 hid']
    rfl
  have hfiltered : List.Forall₂ (fun base doc => n.document lc base plan.root = .ok doc)
      [base] (docs.filter fun item => item.recordId? == some id) := by
    have hone : (t.rows.values.filter fun row => row.text? Column.locale == some lc.default).filter
        (fun row => row.text? Column.sysId == some id) = [base] := by
      have htext {row : Row} {column : Ident} {s : String} :
          (row.text? column == some s) = true ↔ row.cell column = .text s := by
        rw [beq_iff_eq, Row.text?_eq_some]
      refine filter_eq_singleton (hnodup.filter _)
        (List.mem_filter.2 ⟨hbase, htext.2 hdefault⟩) (htext.2 hid) fun row hrow hrowId => ?_
      obtain ⟨hrow, hrowLocale⟩ := List.mem_filter.1 hrow
      exact hunique row hrow (htext.1 hrowId) (htext.1 hrowLocale)
    have hmem : List.Forall₂ (fun base doc => base ∈ t.rows.values ∧
        n.document lc base plan.root = .ok doc)
        (t.rows.values.filter fun row => row.text? Column.locale == some lc.default) docs :=
      (List.forall₂_and_left _ _).2 ⟨fun base hbase => List.mem_of_mem_filter hbase, hdocs⟩
    rw [← hone]
    exact (List.rel_filter (fun base doc h => (hrecord base doc h).symm) hmem).imp fun _ _ h => h.2
  obtain ⟨doc, rest, hdoc, hrest, he⟩ := List.forall₂_cons_left_iff.1 hfiltered
  obtain rfl := List.forall₂_nil_left_iff.1 hrest
  refine ⟨page, doc, hcall, hdoc, List.perm_singleton.1 ?_⟩
  rw [← he]
  exact hperm.filter _

end Store

end ContentReplica
