import ContentReplica.Proofs.Lookup
import ContentReplica.Proofs.Outcome
import ContentReplica.Store

/-!
# What a statement leaves alone

A statement changes no namespace but those that it writes (`Database.apply_frame`), so a batch, a
store that executes one and a transaction leave every other namespace as it was. Statements that
change one namespace from within are an effect on that namespace alone (`Namespace.apply`): a batch
of them changes the database by what it does to the namespace (`Database.applyAll_local`).
-/

namespace ContentReplica

/-! ## One namespace of a database -/

namespace Database

/-- A replaced namespace is there. -/
@[simp] theorem get?_withNamespace_self (d : Database) (ns : Ident) (n : Namespace) :
    (d.withNamespace ns n).namespaces.get? ns = some n :=
  SortedMap.get?_insert_self ..

/-- Replacing a namespace leaves the others alone. -/
theorem get?_withNamespace_of_ne (d : Database) {ns name : Ident} (n : Namespace)
    (h : name ≠ ns) : (d.withNamespace ns n).namespaces.get? name = d.namespaces.get? name :=
  SortedMap.get?_insert_of_ne _ _ h

/-- A dropped namespace is gone. -/
@[simp] theorem get?_dropNamespace_self (d : Database) (ns : Ident) :
    (d.dropNamespace ns).namespaces.get? ns = none :=
  SortedMap.get?_erase_self ..

/-- Dropping a namespace leaves the others alone. -/
theorem get?_dropNamespace_of_ne (d : Database) {ns name : Ident} (h : name ≠ ns) :
    (d.dropNamespace ns).namespaces.get? name = d.namespaces.get? name :=
  SortedMap.get?_erase_of_ne _ h

/-- A namespace that has to exist is the one that is stored. -/
theorem namespace_eq_ok {d : Database} {ns : Ident} {n : Namespace} :
    d.namespace ns = .ok n ↔ d.namespaces.get? ns = some n := by
  unfold Database.namespace
  cases d.namespaces.get? ns with
  | none => exact ⟨nofun, nofun⟩
  | some n' => exact ⟨fun h => by cases h; rfl, fun h => by cases h; rfl⟩

/-- A change of a namespace succeeds when the namespace exists and the change does. -/
theorem update_eq_ok {d d' : Database} {ns : Ident} {f : Namespace → Except StoreFault Namespace} :
    d.update ns f = .ok d' ↔
      ∃ n n', d.namespaces.get? ns = some n ∧ f n = .ok n' ∧ d' = d.withNamespace ns n' := by
  unfold update
  constructor
  · intro h
    obtain ⟨n, hn, h⟩ := bind_eq_ok.1 h
    obtain ⟨n', hn', h⟩ := bind_eq_ok.1 h
    exact ⟨n, n', namespace_eq_ok.1 hn, hn', (pure_eq_ok.1 h).symm⟩
  · rintro ⟨n, n', hn, hn', rfl⟩
    exact bind_eq_ok.2 ⟨n, namespace_eq_ok.2 hn, bind_eq_ok.2 ⟨n', hn', rfl⟩⟩

/-- A change of one namespace leaves the others alone. -/
theorem update_frame {d d' : Database} {ns name : Ident}
    {f : Namespace → Except StoreFault Namespace} (h : d.update ns f = .ok d')
    (hn : name ≠ ns) : d'.namespaces.get? name = d.namespaces.get? name := by
  obtain ⟨n, n', -, -, rfl⟩ := update_eq_ok.1 h
  exact get?_withNamespace_of_ne d n' hn

/-- What a promotion does: the shadow is the live namespace, the shadow's and the retired name are
free, and the rest stays. -/
theorem swap_eq_ok {d d' : Database} {live shadow retired : Ident} :
    d.swap live shadow retired = .ok d' ↔
      ∃ promoted, (d.dropNamespace retired).namespaces.get? shadow = some promoted ∧
        d' = match ((d.dropNamespace retired).dropNamespace shadow).namespaces.get? live with
          | some former =>
            (((((d.dropNamespace retired).dropNamespace shadow).dropNamespace live).withNamespace
              retired former).withNamespace live promoted).dropNamespace retired
          | none =>
            (((d.dropNamespace retired).dropNamespace shadow).withNamespace live
              promoted).dropNamespace retired := by
  unfold swap
  dsimp only
  cases (d.dropNamespace retired).namespaces.get? shadow with
  | none => exact ⟨nofun, nofun⟩
  | some promoted =>
    cases ((d.dropNamespace retired).dropNamespace shadow).namespaces.get? live with
    | none =>
      exact ⟨fun h => ⟨promoted, rfl, (Except.ok.inj h).symm⟩, fun ⟨_, h, hd⟩ => by cases h; rw [hd]⟩
    | some former =>
      exact ⟨fun h => ⟨promoted, rfl, (Except.ok.inj h).symm⟩, fun ⟨_, h, hd⟩ => by cases h; rw [hd]⟩

/-- A promotion leaves every namespace alone whose name it does not mention. -/
theorem swap_frame {d d' : Database} {live shadow retired name : Ident}
    (h : d.swap live shadow retired = .ok d') (hl : name ≠ live) (hs : name ≠ shadow)
    (hr : name ≠ retired) : d'.namespaces.get? name = d.namespaces.get? name := by
  obtain ⟨promoted, -, rfl⟩ := swap_eq_ok.1 h
  cases ((d.dropNamespace retired).dropNamespace shadow).namespaces.get? live with
  | none =>
    simp only [get?_dropNamespace_of_ne _ hr, get?_withNamespace_of_ne _ _ hl,
      get?_dropNamespace_of_ne _ hs]
  | some former =>
    simp only [get?_dropNamespace_of_ne _ hr, get?_withNamespace_of_ne _ _ hl,
      get?_withNamespace_of_ne _ _ hr, get?_dropNamespace_of_ne _ hl, get?_dropNamespace_of_ne _ hs]

/-! ## Statements and batches -/

/-- A statement changes no namespace but those that it writes. -/
theorem apply_frame {d d' : Database} {s : Statement} (h : d.apply s = .ok d') {name : Ident}
    (hn : name ∉ s.writes) : d'.namespaces.get? name = d.namespaces.get? name := by
  cases s with
  | createNamespace ns =>
    have hne : name ≠ ns := fun he => hn (List.mem_singleton.2 he)
    rw [apply, Except.ok.injEq] at h
    subst h
    split
    · rfl
    · exact get?_withNamespace_of_ne d _ hne
  | dropNamespace ns =>
    have hne : name ≠ ns := fun he => hn (List.mem_singleton.2 he)
    rw [apply, Except.ok.injEq] at h
    exact h ▸ get?_dropNamespace_of_ne d hne
  | swapNamespaces live shadow retired =>
    simp only [Statement.writes, List.mem_cons, List.not_mem_nil, or_false, not_or] at hn
    exact swap_frame h hn.1 hn.2.1 hn.2.2
  | createView | refreshView =>
    -- the number of the refresh is counted up before the namespace changes
    have := update_frame h fun he => hn (List.mem_singleton.2 he)
    exact this
  | createTable | createIndex | createDeleteTrigger | createFunction | upsert | insert | copyIn
  | delete | saveSyncToken =>
    exact update_frame h fun he => hn (List.mem_singleton.2 he)

/-- A batch changes no namespace but those that its statements write. -/
theorem applyAll_frame {d d' : Database} {batch : List Statement} (h : d.applyAll batch = .ok d')
    {name : Ident} (hn : ∀ s ∈ batch, name ∉ s.writes) :
    d'.namespaces.get? name = d.namespaces.get? name :=
  foldlM_preserves (P := fun d₁ => d₁.namespaces.get? name = d.namespaces.get? name)
    (fun _ s _ hs hd h => (apply_frame h (hn s hs)).trans hd) rfl h

/-- A batch of two parts is applied one part after the other. -/
theorem applyAll_append {d d' : Database} {first second : List Statement} :
    d.applyAll (first ++ second) = .ok d' ↔
      ∃ d₁, d.applyAll first = .ok d₁ ∧ d₁.applyAll second = .ok d' :=
  foldlM_append_eq_ok

/-- A batch of one statement is applied as the statement is. -/
theorem applyAll_singleton {d d' : Database} {s : Statement} :
    d.applyAll [s] = .ok d' ↔ d.apply s = .ok d' := by
  constructor
  · intro h
    obtain ⟨d₁, hs, hdone⟩ := bind_eq_ok.1 h
    exact pure_eq_ok.1 hdone ▸ hs
  · exact fun h => bind_eq_ok.2 ⟨d', h, rfl⟩

section
variable {d d' : Database} {ns : Ident}

/-- A namespace that was changed is there. -/
theorem exists_of_update {f : Namespace → Except StoreFault Namespace}
    (h : d.update ns f = .ok d') : ∃ n, d'.namespaces.get? ns = some n := by
  obtain ⟨n, n', -, -, rfl⟩ := update_eq_ok.1 h
  exact ⟨n', get?_withNamespace_self ..⟩

/-- A namespace that is there stays there unless it is dropped or promoted. -/
theorem exists_of_apply {statement : Statement} (hwrites : statement.writes = [ns])
    (hkeep : statement ≠ .dropNamespace ns) (hn : ∃ n, d.namespaces.get? ns = some n)
    (h : d.apply statement = .ok d') : ∃ n, d'.namespaces.get? ns = some n := by
  cases statement with
  | createNamespace name =>
    obtain rfl := Except.ok.inj h
    obtain ⟨n, hn⟩ := hn
    split
    · exact ⟨n, hn⟩
    · obtain rfl := List.singleton_inj.1 hwrites
      exact ⟨.empty, get?_withNamespace_self ..⟩
  | dropNamespace name => exact absurd (congrArg _ (List.singleton_inj.1 hwrites)) hkeep
  | swapNamespaces => cases hwrites
  | createTable | createIndex | createDeleteTrigger | createFunction | createView | refreshView
  | upsert | insert | copyIn | delete | saveSyncToken =>
    obtain rfl := List.singleton_inj.1 hwrites
    exact exists_of_update h

/-- A namespace that is there stays there under a batch that writes it and does not drop it. -/
theorem exists_of_applyAll {batch : List Statement}
    (hwrites : ∀ statement ∈ batch, statement.writes = [ns])
    (hkeep : ∀ statement ∈ batch, statement ≠ .dropNamespace ns)
    (hn : ∃ n, d.namespaces.get? ns = some n) (h : d.applyAll batch = .ok d') :
    ∃ n, d'.namespaces.get? ns = some n :=
  foldlM_preserves (P := fun d => ∃ n, d.namespaces.get? ns = some n)
    (fun _ statement _ hs hn hstep =>
      exists_of_apply (hwrites statement hs) (hkeep statement hs) hn hstep) hn h

end

end Database

/-! ## Statements inside one namespace -/

namespace Statement

/-- Whether a statement changes its namespace from within: it neither creates, drops nor promotes
a namespace, nor does it count a refresh. -/
def isLocal : Statement → Bool
  | createNamespace _ | dropNamespace _ | swapNamespaces .. | createView _ | refreshView .. => false
  | _ => true

/-- The statement changes the given namespace from within. -/
def InNamespace (ns : Ident) (s : Statement) : Prop := s.isLocal = true ∧ s.target = ns

instance (ns : Ident) (s : Statement) : Decidable (s.InNamespace ns) :=
  inferInstanceAs (Decidable (_ ∧ _))

/-- A statement inside a namespace writes no other one. -/
theorem InNamespace.not_writes {ns name : Ident} {s : Statement} (h : s.InNamespace ns)
    (hn : name ≠ ns) : name ∉ s.writes := by
  obtain ⟨hl, ht⟩ := h
  cases s with
  | swapNamespaces => cases hl
  | _ => exact fun hm => hn ((List.mem_singleton.1 hm).trans ht)

/-- A statement inside a namespace writes that namespace. -/
theorem InNamespace.writes {ns : Ident} {s : Statement} (h : s.InNamespace ns) :
    s.writes = [ns] := by
  obtain ⟨hl, ht⟩ := h
  cases s with
  | swapNamespaces => cases hl
  | _ => exact congrArg (fun n => [n]) ht

end Statement

namespace Namespace

/-- The effect of a statement inside the namespace. -/
def apply (n : Namespace) : Statement → Except StoreFault Namespace
  | .createTable t => .ok (n.createTable t)
  | .createIndex i => n.createIndex i
  | .createDeleteTrigger t => n.createTrigger t
  | .createFunction plan => n.createFunction plan
  | .upsert table columns rows conflict => n.upsert table.name columns rows conflict
  | .insert table columns rows => n.insert table columns rows
  | .copyIn table columns rows => n.insert table columns rows
  | .delete table predicate => n.deleteRows table.name predicate
  | .saveSyncToken _ token => n.saveToken token
  | _ => .ok n

/-- The effect of a batch of statements inside the namespace. -/
def applyAll (n : Namespace) (batch : List Statement) : Except StoreFault Namespace :=
  batch.foldlM apply n

/-- A batch of two parts is applied one part after the other. -/
theorem applyAll_append {n n' : Namespace} {first second : List Statement} :
    n.applyAll (first ++ second) = .ok n' ↔
      ∃ n₁, n.applyAll first = .ok n₁ ∧ n₁.applyAll second = .ok n' :=
  foldlM_append_eq_ok

/-- A batch that begins with a statement applies it and then the rest. -/
theorem applyAll_cons {n n' : Namespace} {s : Statement} {batch : List Statement} :
    n.applyAll (s :: batch) = .ok n' ↔ ∃ n₁, n.apply s = .ok n₁ ∧ n₁.applyAll batch = .ok n' :=
  bind_eq_ok

/-- Upserting rows changes their table alone. -/
theorem upsert_eq_ok {n n' : Namespace} {name conflict : Ident} {columns : List ColumnDef}
    {rows : List (List Value)} (h : n.upsert name columns rows conflict = .ok n') :
    ∃ t, n' = n.withTable name t := by
  obtain ⟨t, -, h⟩ := bind_eq_ok.1 h
  obtain ⟨_, -, h⟩ := bind_eq_ok.1 h
  split at h
  · cases h
  · obtain ⟨t', -, h⟩ := bind_eq_ok.1 h
    exact ⟨t', (pure_eq_ok.1 h).symm⟩

/-- Deleting rows leaves the views. -/
theorem deleteRows_views {n n' : Namespace} {name : Ident} {p : Predicate}
    (h : n.deleteRows name p = .ok n') : n'.views = n.views := by
  obtain ⟨table, -, h⟩ := bind_eq_ok.1 h
  refine foldlM_preserves (P := fun n' => n'.views = n.views) (fun n₁ link n₂ _ hn₁ hstep => ?_)
    rfl h
  obtain ⟨edges, -, hstep⟩ := bind_eq_ok.1 hstep
  obtain rfl := pure_eq_ok.1 hstep
  exact hn₁

/-- A statement inside a namespace leaves its views. -/
theorem apply_views {n n' : Namespace} {s : Statement} (h : n.apply s = .ok n') :
    n'.views = n.views := by
  cases s with
  | createTable t =>
    obtain rfl := Except.ok.inj h
    unfold createTable
    split <;> rfl
  | createIndex i =>
    obtain ⟨table, -, h⟩ := bind_eq_ok.1 h
    obtain ⟨_, -, h⟩ := bind_eq_ok.1 h
    obtain rfl := pure_eq_ok.1 h
    rfl
  | createDeleteTrigger t | createFunction plan =>
    obtain ⟨_, -, h⟩ := bind_eq_ok.1 h
    obtain rfl := pure_eq_ok.1 h
    rfl
  | upsert table columns rows conflict =>
    obtain ⟨t, rfl⟩ := upsert_eq_ok h
    rfl
  | insert table columns rows | copyIn table columns rows =>
    obtain ⟨t, -, h⟩ := bind_eq_ok.1 h
    obtain ⟨_, -, h⟩ := bind_eq_ok.1 h
    obtain ⟨t', -, h⟩ := bind_eq_ok.1 h
    obtain rfl := pure_eq_ok.1 h
    rfl
  | delete table predicate => exact deleteRows_views h
  | saveSyncToken name token =>
    obtain ⟨t, -, h⟩ := bind_eq_ok.1 h
    obtain rfl := pure_eq_ok.1 h
    rfl
  | _ =>
    obtain rfl := Except.ok.inj h
    rfl

/-- Statements inside a namespace leave its views. -/
theorem applyAll_views {n n' : Namespace} {batch : List Statement} (h : n.applyAll batch = .ok n') :
    n'.views = n.views :=
  foldlM_preserves (P := fun n' => n'.views = n.views)
    (fun _ _ _ _ hn₁ hstep => (apply_views hstep).trans hn₁) rfl h

end Namespace

namespace Database

variable {d : Database} {ns : Ident} {n : Namespace}

/-- A namespace put in place of itself changes nothing. -/
theorem withNamespace_of_get? (h : d.namespaces.get? ns = some n) : d.withNamespace ns n = d := by
  unfold withNamespace
  rw [SortedMap.insert_of_get? h]

/-- Of two replacements of a namespace the later counts. -/
@[simp] theorem withNamespace_withNamespace (n' : Namespace) :
    (d.withNamespace ns n).withNamespace ns n' = d.withNamespace ns n' := by
  unfold withNamespace
  rw [SortedMap.insert_insert]

/-- A change of a namespace that exists is what the change makes of it, put in its place. -/
theorem update_eq_map (hn : d.namespaces.get? ns = some n)
    (f : Namespace → Except StoreFault Namespace) :
    d.update ns f = (f n).map (d.withNamespace ns) := by
  unfold update
  rw [namespace_eq_ok.2 hn]
  cases hf : f n <;> simp [bind, Except.bind, pure, Except.pure, Except.map, hf]

/-- A statement inside a namespace does to the database what it does to the namespace. -/
theorem apply_local {s : Statement} (hn : d.namespaces.get? ns = some n) (hs : s.InNamespace ns) :
    d.apply s = (n.apply s).map (d.withNamespace ns) := by
  obtain ⟨hl, rfl⟩ := hs
  cases s with
  | createNamespace | dropNamespace | swapNamespaces | createView | refreshView => cases hl
  | createTable | createIndex | createDeleteTrigger | createFunction | upsert | insert | copyIn
  | delete | saveSyncToken => exact update_eq_map hn _

/-- A batch inside a namespace does to the database what it does to the namespace. -/
theorem applyAll_local {batch : List Statement} (hn : d.namespaces.get? ns = some n)
    (hb : ∀ s ∈ batch, s.InNamespace ns) :
    d.applyAll batch = (n.applyAll batch).map (d.withNamespace ns) := by
  induction batch generalizing d n with
  | nil => exact congrArg Except.ok (withNamespace_of_get? hn).symm
  | cons s batch ih =>
    have hs := apply_local hn (hb s (List.mem_cons_self ..))
    rw [applyAll, Namespace.applyAll, List.foldlM_cons, List.foldlM_cons, hs]
    cases n.apply s with
    | error e => rfl
    | ok n₁ =>
      have hrest := ih (d := d.withNamespace ns n₁) (get?_withNamespace_self ..)
        fun s hs => hb s (List.mem_cons_of_mem _ hs)
      refine Eq.trans hrest ?_
      change Except.map _ (n₁.applyAll batch) = Except.map _ (n₁.applyAll batch)
      cases n₁.applyAll batch with
      | error e => rfl
      | ok n₂ => exact congrArg Except.ok (withNamespace_withNamespace n₂)

/-- A batch inside a namespace that was applied to the database was applied to the namespace. -/
theorem exists_namespace_of_applyAll {d' : Database} {batch : List Statement}
    (hn : d.namespaces.get? ns = some n) (hb : ∀ statement ∈ batch, statement.InNamespace ns)
    (h : d.applyAll batch = .ok d') :
    ∃ n', n.applyAll batch = .ok n' ∧ d'.namespaces.get? ns = some n' := by
  rw [applyAll_local hn hb] at h
  obtain ⟨n', hrun, rfl⟩ := map_eq_ok.1 h
  exact ⟨n', hrun, get?_withNamespace_self ..⟩

/-- Batches inside a namespace that were applied to the database one after the other were applied to the
namespace. -/
theorem exists_namespace_of_applyEach :
    ∀ {batches : List (List Statement)} {d d' : Database} {n : Namespace},
      d.namespaces.get? ns = some n → (∀ batch ∈ batches, ∀ s ∈ batch, s.InNamespace ns) →
      batches.foldlM Database.applyAll d = .ok d' →
      ∃ n', batches.foldlM Namespace.applyAll n = .ok n' ∧ d'.namespaces.get? ns = some n'
  | [], d, d', n, hn, _, h => by
    obtain rfl := pure_eq_ok.1 h
    exact ⟨n, rfl, hn⟩
  | batch :: batches, d, d', n, hn, hb, h => by
    obtain ⟨d₁, hfirst, hrest⟩ := bind_eq_ok.1 h
    obtain ⟨n₁, hrun, hn₁⟩ :=
      exists_namespace_of_applyAll hn (hb batch (List.mem_cons_self ..)) hfirst
    obtain ⟨n', hrun', hn'⟩ :=
      exists_namespace_of_applyEach hn₁ (fun b hm => hb b (List.mem_cons_of_mem _ hm)) hrest
    exact ⟨n', bind_eq_ok.2 ⟨n₁, hrun, hrun'⟩, hn'⟩

/-- A batch inside a namespace that succeeds on the namespace succeeds on the database. -/
theorem applyAll_of_namespace {batch : List Statement} {n' : Namespace}
    (hn : d.namespaces.get? ns = some n) (hb : ∀ s ∈ batch, s.InNamespace ns)
    (h : n.applyAll batch = .ok n') : d.applyAll batch = .ok (d.withNamespace ns n') := by
  rw [applyAll_local hn hb, h]
  rfl

/-- Batches inside a namespace that succeed on the namespace one after the other succeed on the
database. -/
theorem applyEach_of_namespace :
    ∀ {batches : List (List Statement)} {d : Database} {n n' : Namespace},
      d.namespaces.get? ns = some n → (∀ batch ∈ batches, ∀ s ∈ batch, s.InNamespace ns) →
      batches.foldlM Namespace.applyAll n = .ok n' →
      batches.foldlM Database.applyAll d = .ok (d.withNamespace ns n')
  | [], d, n, n', hn, _, h => by
    rw [List.foldlM_nil, pure_eq_ok] at h
    rw [List.foldlM_nil, pure_eq_ok, withNamespace_of_get? (h ▸ hn)]
  | batch :: batches, d, n, n', hn, hb, h => by
    obtain ⟨n₁, hfirst, hrest⟩ := bind_eq_ok.1 h
    have hrun := applyEach_of_namespace (get?_withNamespace_self d ns n₁)
      (fun b hm => hb b (List.mem_cons_of_mem _ hm)) hrest
    rw [withNamespace_withNamespace] at hrun
    exact bind_eq_ok.2 ⟨_, applyAll_of_namespace hn (hb batch (List.mem_cons_self ..)) hfirst, hrun⟩

end Database

end ContentReplica
