import ContentReplica.Proofs.Store.Frame

/-!
# Some of the tables

`Namespace.only n names` is a namespace with some of its tables alone. The tables whose rows a statement
changes are its own and, if it deletes rows, those that a trigger names (`Statement.touched`). If these
are all among the given tables, the statement comes to the same on the excerpt
(`Namespace.apply_only`); if none of them is, it leaves the excerpt (`Namespace.only_of_apply`). So of
a batch whose statements each stay on one side, the excerpt sees those on its own side alone
(`Namespace.applyAll_filter`).
-/

namespace ContentReplica

/-! ## Excerpts -/

namespace Namespace

variable {n n' : Namespace} {names : List Ident} {name : Ident}

/-- The namespace with the given tables alone. -/
def only (n : Namespace) (names : List Ident) : Namespace :=
  { n with tables := n.tables.filter fun name _ => names.contains name }

@[simp] theorem triggers_only (n : Namespace) (names : List Ident) :
    (n.only names).triggers = n.triggers := rfl

/-- Namespaces with the same excerpt have the same triggers. -/
theorem triggers_eq (h : n.only names = n'.only names) : n.triggers = n'.triggers := by
  rw [← triggers_only n names, h, triggers_only]

/-- An excerpt has the tables that it is made of. -/
theorem get?_only (h : name ∈ names) : (n.only names).tables.get? name = n.tables.get? name := by
  unfold only
  rw [SortedMap.get?_filter, List.contains_iff_mem.2 h]
  cases n.tables.get? name <;> rfl

/-- A table of the excerpt is the one of the namespace. -/
theorem table_only (h : name ∈ names) : (n.only names).table name = n.table name := by
  unfold table
  rw [get?_only h]

/-- A table that is put in place of one of the excerpt is put there. -/
theorem only_withTable (h : name ∈ names) (t : Table) :
    (n.withTable name t).only names = (n.only names).withTable name t := by
  have htables : (n.tables.insert name t).filter (fun name _ => names.contains name)
      = (n.tables.filter fun name _ => names.contains name).insert name t := by
    refine SortedMap.ext_get? fun key => ?_
    rw [SortedMap.get?_filter, SortedMap.get?_insert_eq, SortedMap.get?_insert_eq,
      SortedMap.get?_filter]
    by_cases hkey : key = name
    · rw [if_pos hkey, if_pos hkey, hkey, List.contains_iff_mem.2 h]
      rfl
    · rw [if_neg hkey, if_neg hkey]
  exact congrArg (fun tables => { n with tables := tables }) htables

/-- A table beside the excerpt does not show in it. -/
theorem only_withTable_of_notMem (h : name ∉ names) (t : Table) :
    (n.withTable name t).only names = n.only names := by
  have htables : (n.tables.insert name t).filter (fun name _ => names.contains name)
      = n.tables.filter fun name _ => names.contains name := by
    refine SortedMap.ext_get? fun key => ?_
    rw [SortedMap.get?_filter, SortedMap.get?_filter, SortedMap.get?_insert_eq]
    by_cases hkey : key = name
    · rw [hkey, if_pos rfl, List.contains_eq_mem, decide_eq_false h]
      cases n.tables.get? name <;> rfl
    · rw [if_neg hkey]
  exact congrArg (fun tables => { n with tables := tables }) htables

end Namespace

/-! ## What a statement touches -/

namespace Statement

/-- Whether a statement changes rows of tables and nothing else. -/
def changesRows : Statement → Bool
  | upsert .. | insert .. | copyIn .. | delete .. | saveSyncToken .. => true
  | _ => false

/-- The tables whose rows a statement changes: its own, and those that a trigger names on a
deletion. -/
def touched (triggers : SortedMap Ident (List Ident)) : Statement → List Ident
  | upsert table .. | insert table .. | copyIn table .. => [table.name]
  | delete table _ => table.name :: (triggers.get? table.name).getD []
  | saveSyncToken .. => [syncTokenTable]
  | _ => []

@[simp] theorem touched_delete (triggers : SortedMap Ident (List Ident)) (table : QualifiedName)
    (p : Predicate) :
    (delete table p).touched triggers = table.name :: (triggers.get? table.name).getD [] := rfl

/-- The statement changes rows of the given tables alone. -/
def Within (triggers : SortedMap Ident (List Ident)) (names : List Ident) (s : Statement) : Prop :=
  s.changesRows = true ∧ ∀ name ∈ s.touched triggers, name ∈ names

/-- The statement changes rows of other tables than the given ones. -/
def Beyond (triggers : SortedMap Ident (List Ident)) (names : List Ident) (s : Statement) : Prop :=
  s.changesRows = true ∧ ∀ name ∈ s.touched triggers, name ∉ names

instance (triggers : SortedMap Ident (List Ident)) (names : List Ident) :
    DecidablePred (Within triggers names) :=
  fun s => inferInstanceAs (Decidable (s.changesRows = true ∧ ∀ name ∈ s.touched triggers, _))

/-- A statement on other tables is not one on the given tables. -/
theorem Beyond.not_within {triggers : SortedMap Ident (List Ident)} {names : List Ident}
    {s : Statement} (h : s.Beyond triggers names) : ¬ s.Within triggers names := by
  rintro ⟨-, hwithin⟩
  obtain ⟨hchanges, hbeyond⟩ := h
  have hnone : s.touched triggers = [] :=
    List.eq_nil_iff_forall_not_mem.2 fun name hname => hbeyond name hname (hwithin name hname)
  cases s with
  | upsert | insert | copyIn | delete | saveSyncToken => cases hnone
  | _ => cases hchanges

end Statement

namespace Namespace

variable {n n' m m' : Namespace} {names : List Ident} {s : Statement} {batch : List Statement}

/-! ## Statements on an excerpt -/

/-- Deleting rows comes to the same on an excerpt that holds all tables that lose rows. -/
theorem deleteRows_only {name : Ident} (h : name ∈ names)
    (hlinks : ∀ link ∈ (n.triggers.get? name).getD [], link ∈ names) (p : Predicate) :
    (n.only names).deleteRows name p = (·.only names) <$> n.deleteRows name p := by
  simp only [deleteRows, table_only h, map_bind, triggers_only]
  refine congrArg _ (funext fun table => ?_)
  rw [← only_withTable h]
  refine foldlM_map (g := fun n : Namespace => n.only names) (fun n₁ link hlink => ?_) _
  simp only [table_only (hlinks link hlink), map_bind, map_pure]
  refine congrArg _ (funext fun edges => ?_)
  rw [only_withTable (hlinks link hlink)]

/-- A statement on tables of an excerpt comes to the same on the excerpt. -/
theorem apply_only (h : s.Within n.triggers names) :
    (n.only names).apply s = (·.only names) <$> n.apply s := by
  obtain ⟨hchanges, htouched⟩ := h
  have hown {name : Ident} {rest : List Ident} (he : s.touched n.triggers = name :: rest) :
      name ∈ names := htouched name (he ▸ List.mem_cons_self ..)
  cases s with
  | upsert table columns rows conflict =>
    have htable : table.name ∈ names := hown rfl
    simp only [apply, upsert, table_only htable, map_bind]
    refine congrArg _ (funext fun t => congrArg _ (funext fun _ => ?_))
    split
    · rfl
    · simp only [map_bind, map_pure]
      exact congrArg _ (funext fun t' => congrArg _ (only_withTable htable t').symm)
  | insert table columns rows | copyIn table columns rows =>
    have htable : table.name ∈ names := hown rfl
    simp only [apply, insert, table_only htable, map_bind, map_pure, only_withTable htable]
  | delete table p =>
    exact deleteRows_only (hown rfl) (fun link hlink => htouched link (List.mem_cons_of_mem _ hlink)) p
  | saveSyncToken ns token =>
    have htable : syncTokenTable ∈ names := hown rfl
    simp only [apply, saveToken, table_only htable, map_bind, map_pure, only_withTable htable]
  | _ => cases hchanges

/-- A statement that changes rows leaves the triggers. -/
theorem triggers_of_apply (hs : s.changesRows = true) (h : n.apply s = .ok n') :
    n'.triggers = n.triggers := by
  cases s with
  | upsert table columns rows conflict =>
    obtain ⟨t, rfl⟩ := upsert_eq_ok h
    rfl
  | insert table columns rows | copyIn table columns rows =>
    obtain ⟨t, -, h⟩ := bind_eq_ok.1 h
    obtain ⟨_, -, h⟩ := bind_eq_ok.1 h
    obtain ⟨t', -, h⟩ := bind_eq_ok.1 h
    obtain rfl := pure_eq_ok.1 h
    rfl
  | delete table p =>
    obtain ⟨t, -, h⟩ := bind_eq_ok.1 h
    refine foldlM_preserves (P := fun n₁ => n₁.triggers = n.triggers)
      (fun n₁ link n₂ _ hn₁ hstep => ?_) rfl h
    obtain ⟨edges, -, hstep⟩ := bind_eq_ok.1 hstep
    obtain rfl := pure_eq_ok.1 hstep
    exact hn₁
  | saveSyncToken ns token =>
    obtain ⟨t, -, h⟩ := bind_eq_ok.1 h
    obtain rfl := pure_eq_ok.1 h
    rfl
  | _ => cases hs

/-- A statement on other tables leaves an excerpt. -/
theorem only_of_apply (hs : s.Beyond n.triggers names) (h : n.apply s = .ok n') :
    n'.only names = n.only names := by
  obtain ⟨hchanges, htouched⟩ := hs
  have hown {name : Ident} {rest : List Ident} (he : s.touched n.triggers = name :: rest) :
      name ∉ names := htouched name (he ▸ List.mem_cons_self ..)
  cases s with
  | upsert table columns rows conflict =>
    obtain ⟨t, rfl⟩ := upsert_eq_ok h
    exact only_withTable_of_notMem (hown rfl) t
  | insert table columns rows | copyIn table columns rows =>
    obtain ⟨t, -, h⟩ := bind_eq_ok.1 h
    obtain ⟨_, -, h⟩ := bind_eq_ok.1 h
    obtain ⟨t', -, h⟩ := bind_eq_ok.1 h
    obtain rfl := pure_eq_ok.1 h
    exact only_withTable_of_notMem (hown rfl) t'
  | delete table p =>
    obtain ⟨t, -, h⟩ := bind_eq_ok.1 h
    refine foldlM_preserves (P := fun n₁ => n₁.only names = n.only names)
      (fun n₁ link n₂ hlink hn₁ hstep => ?_) (only_withTable_of_notMem (hown rfl) _) h
    obtain ⟨edges, -, hstep⟩ := bind_eq_ok.1 hstep
    obtain rfl := pure_eq_ok.1 hstep
    exact (only_withTable_of_notMem (htouched link (List.mem_cons_of_mem _ hlink)) _).trans hn₁
  | saveSyncToken ns token =>
    obtain ⟨t, -, h⟩ := bind_eq_ok.1 h
    obtain rfl := pure_eq_ok.1 h
    exact only_withTable_of_notMem (hown rfl) _
  | _ => cases hchanges

/-! ## Batches on an excerpt -/

/-- Of a batch whose statements each stay on one side of an excerpt, the excerpt sees those on its own
side. -/
theorem applyAll_filter
    (hbatch : ∀ s ∈ batch, s.Within n.triggers names ∨ s.Beyond n.triggers names)
    (h : n.applyAll batch = .ok n') :
    (n.only names).applyAll (batch.filter (·.Within n.triggers names)) = .ok (n'.only names) := by
  induction batch generalizing n with
  | nil => exact congrArg _ (congrArg (·.only names) (pure_eq_ok.1 h))
  | cons s batch ih =>
    obtain ⟨hs, hbatch⟩ := List.forall_mem_cons.1 hbatch
    obtain ⟨n₁, hfirst, hrest⟩ := applyAll_cons.1 h
    have htriggers : n₁.triggers = n.triggers := triggers_of_apply (hs.elim And.left And.left) hfirst
    rw [← htriggers] at hbatch
    have hrun := ih hbatch hrest
    rw [htriggers] at hrun
    rcases hs with hs | hs
    · rw [List.filter_cons_of_pos (by simpa using hs)]
      refine applyAll_cons.2 ⟨n₁.only names, ?_, hrun⟩
      rw [apply_only hs, hfirst]
      rfl
    · rw [List.filter_cons_of_neg (by simpa using hs.not_within), ← only_of_apply hs hfirst]
      exact hrun

/-- Two namespaces with the same excerpt, and batches of which it sees the same, are left with the same
excerpt. -/
theorem only_eq_of_applyAll {batch' : List Statement} (h : n.only names = m.only names)
    (hbatch : ∀ s ∈ batch, s.Within n.triggers names ∨ s.Beyond n.triggers names)
    (hbatch' : ∀ s ∈ batch', s.Within n.triggers names ∨ s.Beyond n.triggers names)
    (hsame : batch.filter (·.Within n.triggers names) = batch'.filter (·.Within n.triggers names))
    (hrun : n.applyAll batch = .ok n') (hrun' : m.applyAll batch' = .ok m') :
    n'.only names = m'.only names := by
  have htriggers : m.triggers = n.triggers := (triggers_eq h).symm
  rw [← htriggers] at hbatch'
  have hexcerpt := applyAll_filter hbatch hrun
  have hexcerpt' := applyAll_filter hbatch' hrun'
  rw [htriggers, ← hsame, ← h, hexcerpt] at hexcerpt'
  exact Except.ok.inj hexcerpt'

/-- A batch on tables of an excerpt comes to the same on the excerpt. -/
theorem applyAll_only (hbatch : ∀ s ∈ batch, s.Within n.triggers names) :
    (n.only names).applyAll batch = (·.only names) <$> n.applyAll batch := by
  induction batch generalizing n with
  | nil => rfl
  | cons s batch ih =>
    obtain ⟨hs, hbatch⟩ := List.forall_mem_cons.1 hbatch
    simp only [applyAll, List.foldlM_cons, apply_only hs, bind_map_left, map_bind]
    cases hfirst : n.apply s with
    | error fault => rfl
    | ok n₁ =>
      rw [← triggers_of_apply hs.1 hfirst] at hbatch
      exact ih hbatch

/-- A batch that an excerpt takes, on its own tables, every namespace with this excerpt takes. -/
theorem exists_of_applyAll_only (hbatch : ∀ s ∈ batch, s.Within n.triggers names)
    (h : (n.only names).applyAll batch = .ok m) :
    ∃ n', n.applyAll batch = .ok n' ∧ n'.only names = m := by
  rw [applyAll_only hbatch] at h
  exact map_eq_ok.1 h

end Namespace

end ContentReplica
