import ContentReplica.Proofs.Query.Order
import ContentReplica.Proofs.Query.Sources
import ContentReplica.Proofs.Store.Interleaving

/-!
# Pages of an answer

A call counts the rows that satisfy its filters, and its page is a window of one list of them, sorted by
the terms of its order and then by the ids of the records (`QueryCall.terms`). So the pages one after the
other show every row once (`Store.call_pages`).

Whatever was done with a store, a query function that is in it finds the tables that its plan reads
(`Store.Reached.sound`), so every call goes through whose source is there.
-/

namespace ContentReplica

/-! ## Stores that can come about -/

mutual

/-- A store that comes about: from the empty one by batches and transactions, whatever failures are asked
for meanwhile. -/
inductive Store.Reached : Store → Prop
  | empty : Store.Reached .empty
  | execute {s : Store} (h : Store.Reached s) (batch : List Statement) :
    Store.Reached (s.execute batch).2
  | executeIn {s : Store} {t : Transaction} (h : Store.Reached s) (ht : Transaction.Reached t)
    (batch : List Statement) : Store.Reached (s.executeIn t batch).2.2
  | commit {s : Store} {t : Transaction} (h : Store.Reached s) (ht : Transaction.Reached t) :
    Store.Reached (s.commit t).2
  | arranged {s s' : Store} (h : Store.Reached s) (hdatabase : s'.database = s.database) :
    Store.Reached s'

/-- A transaction that comes about on such stores. -/
inductive Transaction.Reached : Transaction → Prop
  | begin {s : Store} (h : Store.Reached s) : Transaction.Reached s.begin
  | executeIn {s : Store} {t : Transaction} (h : Store.Reached s) (ht : Transaction.Reached t)
    (batch : List Statement) : Transaction.Reached (s.executeIn t batch).2.1

end

/-! ## Query functions find their tables -/

namespace Namespace

variable {n n' : Namespace}

/-- Every query function of the namespace finds the tables that its plan reads. -/
def Sound (n : Namespace) : Prop :=
  ∀ name plan, n.functions.get? name = some plan → n.checkPlan plan = .ok ()

/-- An empty namespace has no query functions. -/
theorem Sound.empty : Sound .empty := by
  intro name plan h
  rw [show Namespace.empty.functions.get? name = none from SortedMap.get?_empty name] at h
  cases h

/-- Query functions find their tables where no table was lost. -/
theorem Sound.of_same (h : n.Sound) (htables : n'.tables = n.tables)
    (hfunctions : n'.functions = n.functions) : n'.Sound := by
  intro name plan hplan
  rw [hfunctions] at hplan
  exact checkPlan_of_tables (h name plan hplan) fun _ => htables ▸ id

/-- A statement inside a namespace creates query functions only where their tables are, and removes no
table. -/
theorem Sound.apply {s : Statement} (h : n.Sound) (hs : n.apply s = .ok n') : n'.Sound := by
  have htables : ∀ name, n.tables.contains name = true → n'.tables.contains name = true :=
    fun name hn => (apply_tables hs).2 (.inl hn)
  intro name plan hplan
  rcases apply_functions hs with hsame | ⟨created, hcheck, hinsert⟩
  · exact checkPlan_of_tables (h name plan (hsame ▸ hplan)) htables
  · rw [hinsert, SortedMap.get?_insert_eq] at hplan
    split at hplan
    · obtain rfl := Option.some.inj hplan
      exact checkPlan_of_tables hcheck htables
    · exact checkPlan_of_tables (h name plan hplan) htables

end Namespace

namespace Database

variable {d d' : Database}

/-- The query functions of all namespaces find their tables. -/
def Sound (d : Database) : Prop := ∀ ns n, d.namespaces.get? ns = some n → n.Sound

/-- A database is sound if each of its namespaces is, or comes from a sound one. -/
theorem Sound.of_namespaces (h : d.Sound) (hd : ∀ name n, d'.namespaces.get? name = some n →
    n.Sound ∨ ∃ other, d.namespaces.get? other = some n) : d'.Sound := by
  intro name n hn
  rcases hd name n hn with hsound | ⟨other, hother⟩
  · exact hsound
  · exact h other n hother

/-- A changed namespace is sound if it was before. -/
theorem Sound.update {ns : Ident} {f : Namespace → Except StoreFault Namespace} (h : d.Sound)
    (hf : ∀ n n', n.Sound → f n = .ok n' → n'.Sound) (hd : d.update ns f = .ok d') : d'.Sound := by
  obtain ⟨n, n', hn, hstep, rfl⟩ := update_eq_ok.1 hd
  refine h.of_namespaces fun name m hm => ?_
  by_cases he : name = ns
  · subst he
    rw [get?_withNamespace_self] at hm
    exact .inl (Option.some.inj hm ▸ hf n n' (h _ n hn) hstep)
  · rw [get?_withNamespace_of_ne d n' he] at hm
    exact .inr ⟨name, hm⟩

/-- A local statement changes its namespace. -/
theorem apply_eq_update {s : Statement} (h : s.isLocal = true) :
    d.apply s = d.update s.target (·.apply s) := by
  cases s <;> first | rfl | cases h

/-- Statements leave query functions that find their tables. -/
theorem Sound.apply {s : Statement} (h : d.Sound) (hs : d.apply s = .ok d') : d'.Sound := by
  by_cases hlocal : s.isLocal = true
  · rw [apply_eq_update hlocal] at hs
    exact h.update (fun _ _ hn hstep => hn.apply hstep) hs
  · cases s with
    | createNamespace name =>
      obtain rfl := Except.ok.inj hs
      split
      · exact h
      · refine h.of_namespaces fun other n hn => ?_
        rw [withNamespace, SortedMap.get?_insert_eq] at hn
        split at hn
        · exact .inl (Option.some.inj hn ▸ .empty)
        · exact .inr ⟨other, hn⟩
    | dropNamespace name =>
      obtain rfl := Except.ok.inj hs
      refine h.of_namespaces fun other n hn => .inr ⟨other, ?_⟩
      by_cases he : other = name
      · subst he
        rw [get?_dropNamespace_self] at hn
        cases hn
      · rwa [get?_dropNamespace_of_ne d he] at hn
    | swapNamespaces live shadow retired =>
      rcases d.swap_cases live shadow retired with ⟨-, hswap⟩ | ⟨d₁, -, -, hswap, hget⟩
      · cases hs.symm.trans hswap
      · obtain rfl := Except.ok.inj (hs.symm.trans hswap)
        refine h.of_namespaces fun name n hn => .inr ?_
        rw [hget] at hn
        split at hn
        · cases hn
        · split at hn
          · exact ⟨shadow, hn⟩
          · split at hn
            · cases hn
            · exact ⟨name, hn⟩
    | createView v =>
      have hd : ({ d with refreshes := d.refreshes + 1 } : Database).Sound := h
      refine hd.update (fun n n' hn hstep => ?_) hs
      obtain ⟨htables, hfunctions, -⟩ := Namespace.createView_ok hstep
      exact hn.of_same htables hfunctions
    | refreshView name concurrently =>
      have hd : ({ d with refreshes := d.refreshes + 1 } : Database).Sound := h
      refine hd.update (fun n n' hn hstep => ?_) hs
      obtain ⟨v, rows, -, -, rfl⟩ := Namespace.refreshView_ok hstep
      exact hn.of_same rfl rfl
    | _ => exact absurd rfl hlocal

/-- Batches leave query functions that find their tables. -/
theorem Sound.applyAll {batch : List Statement} (h : d.Sound) (hb : d.applyAll batch = .ok d') :
    d'.Sound :=
  foldlM_preserves (P := Sound) (fun _ _ _ _ hd hstep => hd.apply hstep) h hb

end Database

/-- In a store that comes about, and in the working copy of a transaction on it, query functions find
their tables. -/
theorem Store.execute_sound {s : Store} (h : s.database.Sound) (batch : List Statement) :
    (s.execute batch).2.database.Sound := by
  rcases s.execute_cases batch with ⟨d, s', -, happly, hrun, rfl, -⟩ | ⟨fault, s', hrun, hd, -⟩
  · rw [hrun]
    exact h.applyAll happly
  · rw [hrun]
    exact hd.symm ▸ h

/-- The working copy of a transaction stays sound. -/
theorem Store.executeIn_sound {t : Transaction} (s : Store) (h : t.working.Sound)
    (batch : List Statement) : (s.executeIn t batch).2.1.working.Sound := by
  rcases s.executeIn_cases t batch with ⟨d, -, -, happly, hrun⟩ | ⟨fault, hrun⟩
  · rw [hrun]
    exact h.applyAll happly
  · rw [hrun]
    exact h

/-- A commit publishes sound namespaces. -/
theorem Store.commit_sound {s : Store} {t : Transaction} (h : s.database.Sound)
    (ht : t.working.Sound) : (s.commit t).2.database.Sound := by
  rcases s.commit_cases t with ⟨-, hrun⟩ | ⟨s', -, hrun, -, hget⟩
  · rw [hrun]
    exact h
  · rw [hrun]
    refine h.of_namespaces fun name n hn => ?_
    rw [show s'.database.namespaces.get? name = _ from hget name] at hn
    split at hn
    · exact .inl (ht name n hn)
    · exact .inr ⟨name, hn⟩

mutual

/-- In a store that comes about all query functions find their tables. -/
theorem Store.Reached.sound : ∀ {s : Store}, s.Reached → s.database.Sound
  | _, .empty => fun name n hn => by
    rw [show Store.empty.database.namespaces.get? name = none from SortedMap.get?_empty name] at hn
    cases hn
  | _, .execute h batch => Store.execute_sound h.sound batch
  | _, .executeIn h ht batch => by
    rw [(Store.executeIn_database ..).1]
    exact h.sound
  | _, .commit h ht => Store.commit_sound h.sound ht.sound
  | _, .arranged h hdatabase => hdatabase ▸ h.sound

/-- So they do in the working copy of a transaction that comes about. -/
theorem Transaction.Reached.sound : ∀ {t : Transaction}, t.Reached → t.working.Sound
  | _, .begin h => h.sound
  | _, .executeIn _ ht batch => Store.executeIn_sound _ ht.sound batch

end

/-! ## Sources -/

/-- The query function or view is there. -/
def Database.Has (d : Database) (source : QuerySource) : Prop :=
  ∃ n, d.namespaces.get? source.name.namespaceName = some n ∧
    match source with
    | .function name => n.functions.contains name.name = true
    | .view name => n.views.contains name.name = true

/-- What is there can answer where query functions find their tables. -/
theorem Database.Sound.answers {d : Database} {source : QuerySource} (h : d.Sound)
    (hsource : d.Has source) : d.Answers source := by
  obtain ⟨n, hn, hthere⟩ := hsource
  refine ⟨n, hn, ?_⟩
  cases source with
  | view name => exact hthere
  | function name =>
    obtain ⟨plan, hplan⟩ := SortedMap.contains_eq_true.1 hthere
    exact ⟨plan, hplan, h _ n hn _ plan hplan⟩

/-- A source that can answer has rows. -/
theorem Database.Answers.exists_rows {d : Database} {c : QueryCall} (h : d.Answers c.source) :
    ∃ rows, d.callRows c = .ok rows := by
  obtain ⟨page, hpage⟩ := call_isOk h
  obtain ⟨rows, hrows, -⟩ := bind_eq_ok.1 hpage
  exact ⟨rows, hrows⟩

/-! ## Windows -/

/-- Windows of one size, one after the other, show the beginning of a list. -/
theorem flatMap_windows {α : Type} (xs : List α) (size : Nat) : ∀ k,
    (List.range k).flatMap (fun i => (xs.drop (i * size)).take size) = xs.take (k * size)
  | 0 => by simp
  | k + 1 => by
    rw [List.range_succ, List.flatMap_append, flatMap_windows xs size k, List.flatMap_singleton,
      Nat.succ_mul, List.take_add]

/-! ## Calls -/

/-- The document of a row, null if it has none. -/
def Row.document (row : Row) : Json := (row.cell Column.data).toJson

/-- A row satisfies a conjunction when it satisfies every part. -/
theorem Predicate.holds_and (row : Row) (parts : List Predicate) :
    (Predicate.and parts).holds row = parts.all fun p => p.holds row := by
  rw [holds]
  induction parts with
  | nil => rfl
  | cons p parts ih => rw [allHold, ih, List.all_cons]

/-- The rows that satisfy all filters of a call. -/
def QueryCall.matching (c : QueryCall) (rows : List Row) : List Row :=
  rows.filter fun row => c.filters.all fun p => p.holds row

/-- The terms that rows are sorted by: those of the order, and behind them the ids of the records in
ascending order, unless the order has a term for these. -/
def QueryCall.terms (c : QueryCall) : List OrderTerm :=
  if ∃ t ∈ c.order, t.column = Column.sysId then c.order else c.order ++ [⟨Column.sysId, false⟩]

/-- A call sorts by these terms. -/
theorem QueryCall.effectiveOrder_eq (c : QueryCall) : c.effectiveOrder = c.terms := by
  simp [effectiveOrder, terms]

namespace Store

/-- A call sorts the rows that satisfy its filters. -/
theorem selectRows_eq (c : QueryCall) (rows : List Row) : Database.selectRows c rows
    = insertionSort (fun a b => Row.compareBy c.effectiveOrder a b == .lt) (c.matching rows) := by
  unfold Database.selectRows QueryCall.matching
  rw [funext fun row => Predicate.holds_and row c.filters]

/-- A call leaves out no row that satisfies its filters, and shows none twice. -/
theorem selectRows_perm (c : QueryCall) (rows : List Row) :
    (Database.selectRows c rows).Perm (c.matching rows) := by
  rw [selectRows_eq]
  exact insertionSort_perm _ _

/-- A call shows the rows in order if the columns of its order hold one kind of value each, or NULL. -/
theorem selectRows_inOrder {c : QueryCall} {rows : List Row}
    (h : Row.Comparable c.terms (c.matching rows)) :
    (Database.selectRows c rows).Pairwise (Row.InOrder c.terms) := by
  rw [selectRows_eq, c.effectiveOrder_eq]
  exact Row.pairwise_inOrder h

/-- A call counts the rows that satisfy its filters and shows a window of their sorted list. -/
theorem call_eq {s : Store} {c : QueryCall} {rows : List Row}
    (h : s.database.callRows c = .ok rows) : s.call c = .ok ⟨(c.matching rows).length,
      .arr ((((Database.selectRows c rows).drop c.skip).take c.take).map Row.document)⟩ := by
  rw [← (selectRows_perm c rows).length_eq]
  unfold call Database.call
  rw [h]
  rfl

/-- Filtering, ordering and paging. In a store that comes about a call goes through if its source is
there. Whatever the store holds, if the columns that rows are sorted by hold one kind of value each, or
NULL, there is one list of the rows that satisfy all filters, sorted by the terms of the order and then by
the ids of the records. Every page is a window of this list and tells the number of its rows. So pages
of one size, one after the other, show the document of every row once, in order. -/
theorem call_pages (s : Store) (c : QueryCall) :
    (s.Reached → s.database.Has c.source → ∃ rows, s.database.callRows c = .ok rows) ∧
    ∀ rows, s.database.callRows c = .ok rows →
      Row.Comparable c.terms (c.matching rows) →
      ∃ sorted : List Row, sorted.Perm (c.matching rows) ∧
        sorted.Pairwise (Row.InOrder c.terms) ∧
        (∀ skip take, s.call { c with skip := skip, take := take }
          = .ok ⟨(c.matching rows).length,
              .arr (((sorted.drop skip).take take).map Row.document)⟩) ∧
        ∀ size k, (c.matching rows).length ≤ k * size → ∃ pages,
          (List.range k).mapM (fun i => s.call { c with skip := i * size, take := size })
            = .ok pages ∧
          pages.flatMap QueryPage.itemList = sorted.map Row.document := by
  refine ⟨fun hreached hsource => (hreached.sound.answers hsource).exists_rows,
    fun rows hrows hcomparable => ?_⟩
  let sorted := Database.selectRows c rows
  have hperm : sorted.Perm (c.matching rows) := selectRows_perm c rows
  have hwindow : ∀ skip take, s.call { c with skip := skip, take := take }
      = .ok ⟨(c.matching rows).length,
          .arr (((sorted.drop skip).take take).map Row.document)⟩ := fun skip take =>
    call_eq (c := { c with skip := skip, take := take }) hrows
  refine ⟨sorted, hperm, selectRows_inOrder hcomparable, hwindow, fun size k hk => ?_⟩
  let page (i : Nat) : QueryPage :=
    ⟨(c.matching rows).length, .arr (((sorted.drop (i * size)).take size).map Row.document)⟩
  refine ⟨(List.range k).map page, ?_, ?_⟩
  · refine mapM_eq_ok.2 (List.forall₂_map_right_iff.2 ?_)
    exact List.forall₂_same.2 fun i _ => hwindow (i * size) size
  · have hall : sorted.take (k * size) = sorted :=
      List.take_of_length_le (hperm.length_eq ▸ hk)
    rw [List.flatMap_map]
    change (List.range k).flatMap
      (fun i => ((sorted.drop (i * size)).take size).map Row.document) = _
    rw [← List.map_flatMap, flatMap_windows, hall]

end Store

namespace Catalog

/-- Four products, two of them at one price. -/
def stock : SyncPage :=
  ((((SyncPage.empty (.done "first")).withEntry (product "p3" "Ruler" 4)).withEntry
    (product "p2" "Rubber" 2)).withEntry (product "p1" "Pencil" 4)).withEntry (product "p4" "Clip" 1)

/-- The catalog with its functions and the four products. -/
def stocked : Store :=
  match replica.pageBatch stock with
  | .ok batch => (answering.execute batch).2
  | .error _ => answering

/-- The products that cost more than one, the dearest first. -/
def dearest : QueryCall :=
  ⟨.function ⟨namespaceName, ⟨"q_product"⟩⟩, english,
    [.compare ⟨⟨"price"⟩, .integer⟩ .gt (.int 1)], [⟨⟨"price"⟩, true⟩], 0, 0⟩

/-- The catalog comes about. -/
theorem reached_stocked : stocked.Reached := by
  have hsetUp : setUp.Reached := by
    unfold setUp
    split
    · exact .execute .empty _
    · exact .empty
  have hanswering : answering.Reached := .execute hsetUp _
  unfold stocked
  split
  · exact .execute hanswering _
  · exact hanswering

end Catalog

/-- The dearer products of the catalog in two pages of two: those at one price by their ids, and the
cheaper one last. The cheapest is left out. -/
theorem Store.call_pages_catalog :
    Catalog.stocked.Reached ∧ Catalog.stocked.database.Has Catalog.dearest.source ∧
    ∃ rows, Catalog.stocked.database.callRows Catalog.dearest = .ok rows ∧ rows.length = 4 ∧
      Row.Comparable Catalog.dearest.terms (Catalog.dearest.matching rows) ∧
      (Catalog.dearest.matching rows).length = 3 ∧
      ∃ (sorted : List Row) (pages : List QueryPage),
        sorted.Pairwise (Row.InOrder [⟨⟨"price"⟩, true⟩, ⟨⟨"sys_id"⟩, false⟩]) ∧
        (List.range 2).mapM (fun i => Catalog.stocked.call
          { Catalog.dearest with skip := i * 2, take := 2 }) = .ok pages ∧
        pages.flatMap QueryPage.itemList = sorted.map Row.document ∧
        (sorted.map Row.document).map Json.recordId? = [some "p1", some "p3", some "p2"] := by
  obtain ⟨hexists, hpages⟩ := call_pages Catalog.stocked Catalog.dearest
  have hsource : Catalog.stocked.database.Has Catalog.dearest.source := by
    have hthere : (Catalog.stocked.database.namespaces.get? Catalog.namespaceName).any
        (fun n => n.functions.contains ⟨"q_product"⟩) = true := by decide +kernel
    obtain ⟨n, hn, hcontains⟩ := (Option.any_eq_true _ _).1 hthere
    exact ⟨n, hn, hcontains⟩
  obtain ⟨rows, hrows⟩ := hexists Catalog.reached_stocked hsource
  have hterms : Catalog.dearest.terms = [⟨⟨"price"⟩, true⟩, ⟨⟨"sys_id"⟩, false⟩] := by decide
  have hkinds : (Catalog.stocked.database.callRows Catalog.dearest).toOption.any (fun rows =>
      rows.length == 4 && (Catalog.dearest.matching rows).length == 3 &&
        (Catalog.dearest.matching rows).all fun row =>
          (row.cell ⟨"price"⟩).isOfKind .int && (row.cell ⟨"sys_id"⟩).isOfKind .text) = true := by
    decide +kernel
  rw [hrows] at hkinds
  simp only [Except.toOption, Option.any_some, Bool.and_eq_true, List.all_eq_true, beq_iff_eq]
    at hkinds
  obtain ⟨⟨hall, hlength⟩, hkinds⟩ := hkinds
  have hcomparable : Row.Comparable Catalog.dearest.terms (Catalog.dearest.matching rows) := by
    rw [hterms]
    refine List.forall_mem_cons.2 ⟨⟨.int, List.forall_mem_map.2 fun row hrow => ?_⟩,
      List.forall_mem_singleton.2 ⟨.text, List.forall_mem_map.2 fun row hrow => ?_⟩⟩
    · exact (hkinds row hrow).1
    · exact (hkinds row hrow).2
  obtain ⟨sorted, -, hsorted, -, hwindows⟩ := hpages rows hrows hcomparable
  obtain ⟨pages, hcalls, hitems⟩ := hwindows 2 2 (by omega)
  have hids : ((List.range 2).mapM (fun i => Catalog.stocked.call
      { Catalog.dearest with skip := i * 2, take := 2 })).toOption.map
        (fun pages => (pages.flatMap QueryPage.itemList).map Json.recordId?)
      = some [some "p1", some "p3", some "p2"] := by decide +kernel
  rw [hcalls] at hids
  rw [hterms] at hsorted
  refine ⟨Catalog.reached_stocked, hsource, rows, hrows, hall, hcomparable, hlength, sorted, pages,
    hsorted, hcalls, hitems, ?_⟩
  rw [← hitems]
  exact Option.some.inj hids

end ContentReplica
