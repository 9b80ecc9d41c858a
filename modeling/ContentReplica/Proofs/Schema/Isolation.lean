import ContentReplica.Catalog
import ContentReplica.Proofs.Query.Answers
import ContentReplica.Proofs.Schema.Sift
import ContentReplica.Schema.Dependents
import Mathlib.Data.List.Induction

/-!
# Failing content types stay alone

What becomes of a content type is decided by those before it (`Schema.failureOf?`), and a compilation
follows these verdicts in the order of the content types (`Schema.sift_eq_verdicts`). Without those that
failed, the others are compiled to the same tables, and the table that a content type gets on its own is
the one that it gets among all (`Schema.compile_isolates`).
-/

namespace ContentReplica.Schema

/-! ## Verdicts -/

/-- The failure of a content type that comes after those of a schema, none if it gets a table. -/
def failureOf? (s : Schema) (c : ContentType) : Option CompileFailure :=
  match checkType c with
  | .error fault => some ⟨c.id, fault⟩
  | .ok () =>
    if Naming.table c.id ∈ s.tables.map TableLayout.name then
      some ⟨c.id, .tableTaken (Naming.table c.id).text⟩
    else none

/-- The content types of a list, each with its failure after those before it. -/
def verdicts (types : List ContentType) : List (ContentType × Option CompileFailure) :=
  types.zipIdx.map fun v => (v.1, (compile (types.take v.2)).failureOf? v.1)

/-- The content types that do not fail, in their order. -/
def accepted (types : List ContentType) : List ContentType :=
  ((verdicts types).filter fun v => v.2.isNone).map Prod.fst

variable {types : List ContentType} {c : ContentType}

/-- A failure names the content type. -/
theorem contentType_of_failureOf? {s : Schema} {f : CompileFailure}
    (h : s.failureOf? c = some f) : f.contentType = c.id := by
  unfold failureOf? at h
  split at h
  · obtain rfl := Option.some.inj h
    rfl
  · split at h
    · obtain rfl := Option.some.inj h
      rfl
    · cases h

/-- A verdict stands, whatever content types come later. -/
theorem verdicts_append_singleton (types : List ContentType) (c : ContentType) :
    verdicts (types ++ [c]) = verdicts types ++ [(c, (compile types).failureOf? c)] := by
  have hearlier : ∀ v ∈ types.zipIdx,
      (v.1, (compile ((types ++ [c]).take v.2)).failureOf? v.1)
        = (v.1, (compile (types.take v.2)).failureOf? v.1) := by
    intro v hv
    rw [List.take_append_of_le_length (Nat.le_of_lt (List.snd_lt_of_mem_zipIdx hv))]
  unfold verdicts
  rw [List.zipIdx_append, List.map_append, List.map_congr_left hearlier, Nat.zero_add,
    List.zipIdx_singleton, List.map_singleton, List.take_left]

/-- The last content type is parted from the others by its verdict. -/
theorem sift_append_singleton (types : List ContentType) (c : ContentType) :
    sift [] (types ++ [c]) = match (compile types).failureOf? c with
      | some f => ((sift [] types).1, (sift [] types).2 ++ [f])
      | none => ((sift [] types).1 ++ [c], (sift [] types).2) := by
  rw [sift_append]
  dsimp only
  unfold failureOf?
  rw [List.append_nil, names_compile]
  cases hcheck : checkType c with
  | error fault =>
    rw [sift_cons_of_fault hcheck]
    simp [sift]
  | ok _ =>
    by_cases htaken : Naming.table c.id ∈ (sift [] types).1.map fun c => Naming.table c.id
    · rw [sift_cons_of_taken hcheck htaken, if_pos htaken]
      simp [sift]
    · rw [sift_cons_of_free hcheck htaken, if_neg htaken]
      simp [sift]

/-- Content types are parted by their verdicts. -/
theorem sift_eq_verdicts (types : List ContentType) :
    sift [] types = (accepted types, (verdicts types).filterMap Prod.snd) := by
  unfold accepted
  induction types using List.reverseRecOn with
  | nil => rfl
  | append_singleton types c ih =>
    rw [sift_append_singleton, verdicts_append_singleton, List.filter_append, List.map_append,
      List.filterMap_append, ih]
    cases (compile types).failureOf? c <;> simp

/-- Each content type gets a table or fails. -/
theorem length_sift : ∀ {types : List ContentType} {taken : List Ident},
    (sift taken types).1.length + (sift taken types).2.length = types.length := by
  intro types
  induction types with
  | nil => exact rfl
  | cons c types ih =>
    intro taken
    unfold sift
    split
    · rw [List.length_cons, List.length_cons, ← Nat.add_assoc, ih]
    · dsimp only
      split
      · rw [List.length_cons, List.length_cons, ← Nat.add_assoc, ih]
      · rw [List.length_cons, List.length_cons, Nat.add_right_comm, ih]

/-- A content type gets a table unless a failure names it. -/
theorem mem_accepted (hc : c ∈ types)
    (h : ∀ f ∈ (compile types).failures, f.contentType ≠ c.id) : c ∈ accepted types := by
  obtain ⟨i, hi, rfl⟩ := List.getElem_of_mem hc
  have hverdict : (types[i], (compile (types.take i)).failureOf? types[i]) ∈ verdicts types :=
    List.mem_map.2 ⟨(types[i], i), List.mem_zipIdx_iff_getElem?.2 (List.getElem?_eq_getElem hi), rfl⟩
  have hnone : (compile (types.take i)).failureOf? types[i] = none := by
    by_contra hsome
    obtain ⟨f, hf⟩ := Option.ne_none_iff_exists'.1 hsome
    refine h f ?_ (contentType_of_failureOf? hf)
    change f ∈ (sift [] types).2
    rw [sift_eq_verdicts]
    exact List.mem_filterMap.2 ⟨_, hverdict, hf⟩
  exact List.mem_map.2 ⟨_, List.mem_filter.2 ⟨hverdict, Option.isNone_iff_eq_none.2 hnone⟩, rfl⟩

/-! ## Compilations -/

/-- The accepted content types are laid out, with links to all of them in sight. -/
theorem compile_eq (types : List ContentType) : compile types =
    ⟨(accepted types).map (layoutType ((accepted types).map ContentType.id)),
      (verdicts types).filterMap Prod.snd⟩ := by
  unfold compile
  rw [sift_eq_verdicts]

/-- Without the content types that fail, the others get the same tables. -/
theorem compile_accepted (types : List ContentType) :
    compile (accepted types) = ⟨(compile types).tables, []⟩ := by
  have haccepted : accepted types = (sift [] types).1 := by rw [sift_eq_verdicts]
  unfold compile
  rw [haccepted, sift_sift]

/-- A content type that compiles on its own is the only one of its identity, and it gets the same table
among all. -/
theorem compileOne?_eq_ok {id : String} {one : Schema} (h : compileOne? types id = .ok one) :
    ∃ t, one.tables = [t] ∧ one.failures = [] ∧ (compile types).table? id = some t := by
  have haccepted : (sift [] types).1 = accepted types := by rw [sift_eq_verdicts]
  unfold compileOne? at h
  split at h
  · cases h
  · next hsome =>
    dsimp only at h
    split at h
    · cases h
    · next hfailures =>
      cases h
      rw [haccepted]
      obtain ⟨c, hc, rfl⟩ : ∃ c ∈ types, c.id = id := by simpa using hsome
      have hc : c ∈ accepted types := mem_accepted hc fun f hf => by
        simpa using List.find?_eq_none.1 hfailures f hf
      have hids : ((accepted types).map ContentType.id).Nodup := by
        refine List.Nodup.of_map Naming.table ?_
        rw [List.map_map, ← haccepted]
        exact nodup_sift.1
      have hone : ((accepted types).filter fun d => d.id = c.id) = [c] :=
        filter_eq_singleton hids.of_map hc (decide_eq_true rfl) fun d hd he =>
          List.inj_on_of_nodup_map hids hd hc (of_decide_eq_true he)
      let t := layoutType ((accepted types).map ContentType.id) c
      have ht : t ∈ (compile types).tables := by
        rw [compile_eq]
        exact List.mem_map_of_mem hc
      exact ⟨t, by rw [hone, List.map_singleton], rfl,
        (Compiled.all types rfl).table?_eq_some (List.mem_append_left _ ht)⟩

/-- Each content type of a list gets a table or fails, in the order of the list: it fails by itself or
because the table of one before it has its name. Those that fail change nothing for the others, which
compile alone to the same tables, link tables, references and triggers, without a failure. A content type
that compiles on its own gets the table that it gets among all. -/
theorem compile_isolates {space : Space} (hspace : space.validate = .ok ())
    (types : List ContentType) : ∃ s, compileFor space types = .ok s ∧
      s.tables = (accepted types).map (layoutType ((accepted types).map ContentType.id)) ∧
      s.failures = (verdicts types).filterMap Prod.snd ∧
      s.tables.length + s.failures.length = types.length ∧
      (∃ s', compileFor space (accepted types) = .ok s' ∧ s'.failures = [] ∧
        s'.tables = s.tables ∧ s'.linkTables = s.linkTables ∧ s'.references = s.references ∧
        s'.dependencies = s.dependencies ∧ (∀ node, s'.readers node = s.readers node) ∧
        s'.deleteTriggers = s.deleteTriggers) ∧
      ∀ id one, compileOneFor space types id = .ok one →
        ∃ t, one.tables = [t] ∧ one.failures = [] ∧ s.table? id = some t := by
  have hcompile (types : List ContentType) : compileFor space types = .ok (compile types) := by
    unfold compileFor
    rw [hspace]
    rfl
  refine ⟨compile types, hcompile types, ?_, ?_, ?_,
    ⟨compile (accepted types), hcompile (accepted types), ?_⟩, fun id one h => ?_⟩
  · rw [compile_eq]
  · rw [compile_eq]
  · rw [← @length_sift types []]
    exact congrArg (· + _) (List.length_map _)
  · rw [compile_accepted]
    exact ⟨rfl, rfl, rfl, rfl, rfl, fun _ => rfl, rfl⟩
  · unfold compileOneFor at h
    rw [hspace] at h
    exact compileOne?_eq_ok h

end ContentReplica.Schema

namespace ContentReplica

namespace Catalog

/-- Products and tags, with a second content type for the table of products, one without identity and
one with two fields for a column among them. -/
def mixedTypes : List ContentType :=
  [productType, .new "Product" [.new "name" .symbol], .new "" [],
    .new "note" [.new "dueDate" .date, .new "due date" .date], tagType]

end Catalog

/-- The content types that fail leave products and tags as they are. -/
theorem Schema.compile_isolates_catalog :
    Catalog.space.validate = .ok () ∧
    ∃ s, compileFor Catalog.space Catalog.mixedTypes = .ok s ∧ s.contentTypes = ["product", "tag"] ∧
      s.failures.map CompileFailure.contentType = ["Product", "", "note"] ∧
      s.tables.length + s.failures.length = 5 ∧
      (∃ s', compileFor Catalog.space (accepted Catalog.mixedTypes) = .ok s' ∧ s'.failures = [] ∧
        s'.tables = s.tables) ∧
      ∃ one t, compileOneFor Catalog.space Catalog.mixedTypes "tag" = .ok one ∧ one.tables = [t] ∧
        s.table? "tag" = some t := by
  have hspace : Catalog.space.validate = .ok () := rfl
  obtain ⟨s, hs, htables, hfailures, hlength, ⟨s', hs', hnone, hsame, -⟩, hone⟩ :=
    compile_isolates hspace Catalog.mixedTypes
  obtain ⟨one, hcompiled⟩ : ∃ one, compileOneFor Catalog.space Catalog.mixedTypes "tag" = .ok one :=
    exists_of_isOk (by decide +kernel)
  obtain ⟨t, ht, -, hmem⟩ := hone "tag" one hcompiled
  have hids : (accepted Catalog.mixedTypes).map ContentType.id = ["product", "tag"] := by
    decide +kernel
  have hnames : ((verdicts Catalog.mixedTypes).filterMap Prod.snd).map CompileFailure.contentType
      = ["Product", "", "note"] := by decide +kernel
  refine ⟨hspace, s, hs, ?_, hfailures ▸ hnames, hlength, ⟨s', hs', hnone, hsame⟩, one, t, hcompiled,
    ht, hmem⟩
  rw [contentTypes, htables, List.map_map]
  exact hids

end ContentReplica
