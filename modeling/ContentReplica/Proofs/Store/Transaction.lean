import ContentReplica.Proofs.Store.Batch

/-!
# Transactions

Batches inside a transaction change its working copy and no published data (`Store.executeIn_cases`).
A transaction whose batches stay inside one namespace differs from the published data in that
namespace alone (`Transaction.Inside`), so its commit publishes the working copy as it is
(`Store.commit_inside`), and an abandoned one leaves nothing.
-/

namespace ContentReplica

/-- The transaction is open, and what it wrote is one namespace of the given data. -/
structure Transaction.Inside (t : Transaction) (ns : Ident) (d : Database) : Prop where
  notAborted : t.aborted = false
  written_eq : ∀ name ∈ t.written, name = ns
  working_eq : (t.written = [] ∧ t.working = d) ∨
    ns ∈ t.written ∧ ∃ n, t.working = d.withNamespace ns n

/-- A batch inside a namespace that is applied finds the namespace, and changes it alone. -/
theorem Database.exists_withNamespace {d d' : Database} {ns : Ident} {batch : List Statement}
    (hb : ∀ s ∈ batch, s.InNamespace ns) (h : d.applyAll batch = .ok d') :
    (batch = [] ∧ d' = d) ∨ batch ≠ [] ∧ ∃ n, d' = d.withNamespace ns n := by
  cases batch with
  | nil => exact .inl ⟨rfl, (pure_eq_ok.1 h).symm⟩
  | cons s batch =>
    refine .inr ⟨List.cons_ne_nil _ _, ?_⟩
    obtain ⟨d₁, hs, -⟩ := bind_eq_ok.1 h
    have hexists : ∃ n, d.namespaces.get? ns = some n := by
      obtain ⟨hl, ht⟩ := hb s (List.mem_cons_self ..)
      subst ht
      cases s with
      | createNamespace | dropNamespace | swapNamespaces | createView | refreshView => cases hl
      | createTable | createIndex | createDeleteTrigger | createFunction | upsert | insert | copyIn
      | delete | saveSyncToken =>
        obtain ⟨n, -, hn, -⟩ := Database.update_eq_ok.1 hs
        exact ⟨n, hn⟩
    obtain ⟨n, hn⟩ := hexists
    rw [Database.applyAll_local hn hb] at h
    obtain ⟨n', -, rfl⟩ := map_eq_ok.1 h
    exact ⟨n', rfl⟩

namespace Store

variable {s s' : Store} {t t' : Transaction} {batch : List Statement}

/-- What a batch inside a transaction does: the working copy takes all of it, or the transaction is
at its end. Nothing is published. -/
theorem executeIn_cases (s : Store) (t : Transaction) (batch : List Statement) :
    (∃ d, t.aborted = false ∧ s.checkFailures batch = .ok () ∧ t.working.applyAll batch = .ok d ∧
      s.executeIn t batch = (.ok (), ⟨d, t.written ++ batch.flatMap Statement.writes, false⟩,
        { s with applied := s.applied + 1 })) ∨
    ∃ fault, s.executeIn t batch = (.error (.database fault), { t with aborted := true }, s) := by
  unfold executeIn
  cases hopen : t.aborted with
  | true =>
    refine .inr ⟨.transactionAborted, ?_⟩
    cases t
    cases hopen
    rfl
  | false =>
    rw [if_neg Bool.false_ne_true]
    cases hrun : (do s.checkFailures batch; t.working.applyAll batch :
        Except StoreFault Database) with
    | error fault => exact .inr ⟨fault, rfl⟩
    | ok d =>
      obtain ⟨_, hcheck, happly⟩ := bind_eq_ok.1 hrun
      exact .inl ⟨d, rfl, hcheck, happly, rfl⟩

/-- A batch inside a transaction publishes nothing. -/
theorem executeIn_database (s : Store) (t : Transaction) (batch : List Statement) :
    (s.executeIn t batch).2.2.database = s.database ∧
      (s.executeIn t batch).2.2.failures = s.failures := by
  rcases s.executeIn_cases t batch with ⟨d, -, -, -, hrun⟩ | ⟨fault, hrun⟩
  · rw [hrun]
    exact ⟨rfl, rfl⟩
  · rw [hrun]
    exact ⟨rfl, rfl⟩

/-- A batch that a transaction took was applied to its working copy. -/
theorem executeIn_ok (h : s.executeIn t batch = (.ok (), t', s')) :
    t.working.applyAll batch = .ok t'.working ∧
      t' = ⟨t'.working, t.written ++ batch.flatMap Statement.writes, false⟩ := by
  rcases s.executeIn_cases t batch with ⟨d, -, -, happly, hrun⟩ | ⟨fault, hrun⟩
  · rw [hrun] at h
    cases h
    exact ⟨happly, rfl⟩
  · rw [hrun] at h
    cases h

/-- A store without failures lets an open transaction take a batch that can be applied. -/
theorem executeIn_of_applyAll {d : Database} (hf : s.failures = []) (ht : t.aborted = false)
    (h : t.working.applyAll batch = .ok d) :
    s.executeIn t batch = (.ok (), ⟨d, t.written ++ batch.flatMap Statement.writes, false⟩,
      { s with applied := s.applied + 1 }) := by
  unfold executeIn
  rw [ht, if_neg Bool.false_ne_true, bind_eq_ok.2 ⟨(), checkFailures_nil hf batch, h⟩]

/-- A new transaction has written nothing. -/
theorem begin_inside (s : Store) (ns : Ident) : s.begin.Inside ns s.database :=
  ⟨rfl, nofun, .inl ⟨rfl, rfl⟩⟩

/-- A batch inside a namespace keeps a transaction inside it. -/
theorem executeIn_inside {ns : Ident} {d : Database} (ht : t.Inside ns d)
    (hb : ∀ statement ∈ batch, statement.InNamespace ns)
    (h : s.executeIn t batch = (.ok (), t', s')) : t'.Inside ns d := by
  obtain ⟨happly, ht'⟩ := executeIn_ok h
  have hwrites : ∀ name ∈ batch.flatMap Statement.writes, name = ns := by
    intro name hname
    obtain ⟨statement, hs, hname⟩ := List.mem_flatMap.1 hname
    rw [(hb statement hs).writes] at hname
    exact List.mem_singleton.1 hname
  rw [ht']
  refine ⟨rfl, fun name hname => ?_, ?_⟩
  · exact (List.mem_append.1 hname).elim (ht.written_eq name) (hwrites name)
  rcases Database.exists_withNamespace hb happly with ⟨rfl, hsame⟩ | ⟨hne, n, hn⟩
  · rw [hsame, List.flatMap_nil, List.append_nil]
    exact ht.working_eq
  · have hmem : ns ∈ t.written ++ batch.flatMap Statement.writes := by
      obtain ⟨statement, hs⟩ := List.exists_mem_of_ne_nil _ hne
      refine List.mem_append_right _ (List.mem_flatMap.2 ⟨statement, hs, ?_⟩)
      rw [(hb statement hs).writes]
      exact List.mem_singleton.2 rfl
    refine .inr ⟨hmem, n, hn.trans ?_⟩
    rcases ht.working_eq with ⟨-, hw⟩ | ⟨-, n₁, hw⟩
    · rw [hw]
    · rw [hw, Database.withNamespace_withNamespace]

/-- Publishing one namespace, as often as it was written, puts it in its place. -/
theorem foldl_publish {working : Database} {ns : Ident} {n : Namespace}
    (hn : working.namespaces.get? ns = some n) :
    ∀ {names : List Ident} {d : Database}, (∀ name ∈ names, name = ns) → ns ∈ names →
      names.foldl (publish working) d = d.withNamespace ns n := by
  have hpublish (d : Database) : publish working d ns = d.withNamespace ns n := by
    unfold publish
    rw [hn]
  have hagain : ∀ {names : List Ident} {d : Database}, (∀ name ∈ names, name = ns) →
      names.foldl (publish working) (d.withNamespace ns n) = d.withNamespace ns n := by
    intro names
    induction names with
    | nil => exact fun _ => rfl
    | cons name names ih =>
      intro d hnames
      rw [List.foldl_cons, hnames name (List.mem_cons_self ..), hpublish,
        Database.withNamespace_withNamespace]
      exact ih fun name h => hnames name (List.mem_cons_of_mem _ h)
  intro names d hnames hmem
  cases names with
  | nil => cases hmem
  | cons name names =>
    rw [List.foldl_cons, hnames name (List.mem_cons_self ..), hpublish]
    exact hagain fun name h => hnames name (List.mem_cons_of_mem _ h)

/-- The commit of a transaction inside one namespace publishes its working copy. -/
theorem commit_inside {ns : Ident} (ht : t.Inside ns s.database) :
    ∃ s', s.commit t = (.ok (), s') ∧ s'.database = t.working ∧ s'.failures = s.failures := by
  have hpublished : t.written.foldl (publish t.working) s.database = t.working := by
    rcases ht.working_eq with ⟨hwritten, hw⟩ | ⟨hmem, n, hw⟩
    · rw [hwritten, hw]
      rfl
    · have hn : t.working.namespaces.get? ns = some n := by
        rw [hw]
        exact Database.get?_withNamespace_self ..
      rw [foldl_publish hn ht.written_eq hmem, hw]
  unfold commit
  rw [ht.notAborted, if_neg Bool.false_ne_true, hpublished]
  refine ⟨_, rfl, ?_, rfl⟩
  -- the refreshes that the working copy counted are its own
  dsimp only
  rw [Nat.max_self]

end Store

end ContentReplica
