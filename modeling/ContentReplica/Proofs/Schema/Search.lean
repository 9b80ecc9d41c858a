import ContentReplica.Proofs.Lookup
import ContentReplica.Schema.Dependents
import Mathlib.Data.List.Perm.Subperm

/-!
# What the search for dependents finds

`Dependents.within` grows a set by the readers of its nodes, one round for each reference.
`Dependents.closure` finds the same set (`Dependents.closure_eq`): at any time the queue holds nodes of
two neighbouring rounds, those of the earlier round first (`Search.Level`), and what is queued beyond one
node a step was met for the first time, so that the queue is empty when the steps are spent.
-/

namespace ContentReplica

/-! ## Sets of names -/

namespace NameSet

variable {s : NameSet} {name : String}

/-- Adding a name adds no other. -/
theorem mem_keys_add {other : String} :
    name ∈ (s.add other).keys ↔ name = other ∨ name ∈ s.keys := by
  rw [SortedMap.mem_keys, SortedMap.mem_keys, add, SortedMap.get?_insert_eq]
  by_cases h : name = other <;> simp [h]

/-- Adding some names adds no others. -/
theorem mem_keys_addAll {names : List String} :
    name ∈ (s.addAll names).keys ↔ name ∈ s.keys ∨ name ∈ names := by
  unfold addAll
  induction names generalizing s with
  | nil => simp
  | cons other names ih =>
    rw [List.foldl_cons, ih, mem_keys_add, List.mem_cons, or_comm (a := name = other), or_assoc]

/-- A set contains its keys. -/
theorem contains_iff : s.contains name = true ↔ name ∈ s.keys :=
  SortedMap.contains_eq_true.trans SortedMap.mem_keys.symm

/-- A new name is one more key. -/
theorem keys_add_perm (h : name ∉ s.keys) : (s.add name).keys.Perm (name :: s.keys) :=
  (List.perm_ext_iff_of_nodup (SortedMap.nodup_keys _)
    (List.nodup_cons.2 ⟨h, SortedMap.nodup_keys s⟩)).2 fun _ =>
      mem_keys_add.trans List.mem_cons.symm

/-- A set is told by its names. -/
theorem ext_keys {s' : NameSet} (h : ∀ name, name ∈ s.keys ↔ name ∈ s'.keys) : s = s' := by
  refine SortedMap.ext_get? fun name => Option.ext fun u => ?_
  have hname := h name
  rw [SortedMap.mem_keys, SortedMap.mem_keys] at hname
  exact ⟨fun hu => (hname.1 ⟨u, hu⟩).elim fun _ h => h, fun hu => (hname.2 ⟨u, hu⟩).elim fun _ h => h⟩

end NameSet

namespace Dependents

/-! ## Rounds -/

/-- One round: all readers of the nodes of a set are added. -/
def expand (references : List Reference) (nodes : NameSet) : NameSet :=
  nodes.addAll (nodes.keys.flatMap (readers references))

/-- The nodes within the given number of references of a node. -/
def within (references : List Reference) (node : String) : Nat → NameSet
  | 0 => NameSet.add .empty node
  | depth + 1 => expand references (within references node depth)

variable {references : List Reference} {node name : String}

/-- A set of nodes grows by the readers of its nodes. -/
theorem mem_expand {nodes : NameSet} : name ∈ (expand references nodes).keys ↔
    name ∈ nodes.keys ∨ ∃ node ∈ nodes.keys, name ∈ readers references node := by
  rw [expand, NameSet.mem_keys_addAll, List.mem_flatMap]

/-- A longer reach includes a shorter one. -/
theorem within_mono {depth depth' : Nat} (h : depth ≤ depth')
    (hname : name ∈ (within references node depth).keys) :
    name ∈ (within references node depth').keys := by
  induction h with
  | refl => exact hname
  | step _ ih => exact mem_expand.2 (.inl ih)

/-- A node depends on itself. -/
theorem self_mem_within (depth : Nat) : node ∈ (within references node depth).keys :=
  within_mono (Nat.zero_le depth) (NameSet.mem_keys_add.2 (.inl rfl))

/-- Every other node within reach owns a reference. -/
theorem owner_of_mem_within {depth : Nat} (h : name ∈ (within references node depth).keys) :
    name ∈ node :: references.map Reference.owner := by
  induction depth generalizing name with
  | zero =>
    obtain rfl := (NameSet.mem_keys_add.1 h).resolve_right List.not_mem_nil
    exact List.mem_cons_self
  | succ depth ih =>
    rcases mem_expand.1 h with h | ⟨next, -, h⟩
    · exact ih h
    · obtain ⟨reference, hreference, rfl⟩ := List.mem_map.1 h
      exact List.mem_cons_of_mem _ (List.mem_map_of_mem (List.mem_filter.1 hreference).1)

/-- A set that has a node and the readers of its nodes has everything in reach. -/
theorem within_subset_of_closed {nodes : NameSet} (hnode : node ∈ nodes.keys)
    (hclosed : ∀ next ∈ nodes.keys, readers references next ⊆ nodes.keys) (depth : Nat) :
    (within references node depth).keys ⊆ nodes.keys := by
  induction depth with
  | zero =>
    intro name h
    rwa [(NameSet.mem_keys_add.1 h).resolve_right List.not_mem_nil]
  | succ depth ih =>
    intro name h
    rcases mem_expand.1 h with h | ⟨next, hnext, h⟩
    · exact ih h
    · exact hclosed next (ih hnext) h

namespace Search

variable {reach : Nat} {s : Search}

/-! ## Steps -/

/-- Of the nodes that are met, the new ones are queued and become part of the nodes met. -/
theorem foldl_meet (depth : Nat) (names : List String) : ∃ new ⊆ names,
    (names.foldl (meet depth) s).queue = s.queue ++ new.map (·, depth) ∧
      (names.foldl (meet depth) s).met.keys.Perm (s.met.keys ++ new) ∧
      names ⊆ (names.foldl (meet depth) s).met.keys := by
  induction names generalizing s with
  | nil => exact ⟨[], List.nil_subset _, by simp, by simp, List.nil_subset _⟩
  | cons name names ih =>
    obtain ⟨new, hnew, hqueue, hmet, hnames⟩ := ih (s := meet depth s name)
    rw [List.foldl_cons]
    by_cases hname : name ∈ s.met.keys
    · have hmeet : meet depth s name = s := if_pos (NameSet.contains_iff.2 hname)
      rw [hmeet] at hqueue hmet hnames ⊢
      refine ⟨new, List.subset_cons_of_subset _ hnew, hqueue, hmet,
        List.cons_subset.2 ⟨hmet.mem_iff.2 (List.mem_append_left _ hname), hnames⟩⟩
    · have hmeet : meet depth s name = ⟨s.met.add name, s.queue ++ [(name, depth)]⟩ :=
        if_neg (mt NameSet.contains_iff.1 hname)
      rw [hmeet] at hqueue hmet hnames ⊢
      have hadded : (s.met.add name).keys.Perm (s.met.keys ++ [name]) :=
        (NameSet.keys_add_perm hname).trans (List.perm_append_singleton name _).symm
      refine ⟨name :: new, List.cons_subset_cons _ hnew, ?_, ?_, ?_⟩
      · rw [hqueue, List.append_assoc, List.singleton_append, List.map_cons]
      · have hall := hmet.trans (hadded.append_right new)
        rwa [List.append_assoc, List.singleton_append] at hall
      · refine List.cons_subset.2 ⟨hmet.mem_iff.2 (List.mem_append_left _ ?_), hnames⟩
        exact NameSet.mem_keys_add.2 (.inl rfl)

variable (references reach) in
/-- A step takes the first node from the queue. Short of the reach it meets the readers of that node,
and queues those that are new. -/
theorem step_cons {queue : List (String × Nat)} {depth : Nat}
    (hqueue : s.queue = (name, depth) :: queue) : ∃ new ⊆ readers references name,
      (s.step references reach).queue = queue ++ new.map (·, depth + 1) ∧
        (s.step references reach).met.keys.Perm (s.met.keys ++ new) ∧
        (depth < reach → readers references name ⊆ (s.step references reach).met.keys) ∧
        (reach ≤ depth → new = []) := by
  rw [step, hqueue]
  dsimp only
  split
  · next hdepth =>
    exact ⟨[], List.nil_subset _, by simp, by simp, fun h => absurd h (by omega), fun _ => rfl⟩
  · next hdepth =>
    have hreaders (reader : String) :
        reader ∈ (NameSet.addAll .empty (readers references name)).keys ↔
          reader ∈ readers references name :=
      NameSet.mem_keys_addAll.trans (or_iff_right List.not_mem_nil)
    obtain ⟨new, hnew, hqueue', hmet, hmeets⟩ := foldl_meet (s := ⟨s.met, queue⟩) (depth + 1)
      (NameSet.addAll .empty (readers references name)).keys
    exact ⟨new, fun _ h => (hreaders _).1 (hnew h), hqueue', hmet,
      fun _ _ h => hmeets ((hreaders _).2 h), fun h => absurd h hdepth⟩

/-- A search with an empty queue is over. -/
theorem step_nil (hqueue : s.queue = []) : s.step references reach = s := by
  rw [step, hqueue]

/-- The last step of a search comes after the others. -/
theorem run_succ (steps : Nat) :
    s.run references reach (steps + 1) = (s.run references reach steps).step references reach := by
  induction steps generalizing s with
  | zero => rfl
  | succ steps ih =>
    rw [run, ih]
    rfl

/-! ## Levels -/

/-- A search from a node on a level: it has met the nodes within `depth` references, and is on its way to
those one reference further. The nodes `now` are `depth` references away and their readers are still to
be met; the nodes `next` are the new ones among the readers met on this level. -/
structure Level (references : List Reference) (node : String) (reach : Nat) (s : Search) (depth : Nat)
    (now next : List String) : Prop where
  queue_eq : s.queue = now.map (·, depth) ++ next.map (·, depth + 1)
  depth_le : depth ≤ reach
  next_eq_nil : reach ≤ depth → next = []
  within_subset : (within references node depth).keys ⊆ s.met.keys
  met_within : ∀ name ∈ s.met.keys, name ∈ (within references node depth).keys ∨ name ∈ next
  next_within : next ⊆ (within references node (depth + 1)).keys
  now_within : now ⊆ (within references node depth).keys
  readers_met : depth < reach → ∀ name ∈ (within references node depth).keys,
    name ∈ now ∨ readers references name ⊆ s.met.keys

/-- A search starts at the level of its node. -/
theorem start_level : (start node).Level references node reach 0 [node] [] where
  queue_eq := rfl
  depth_le := Nat.zero_le reach
  next_eq_nil _ := rfl
  within_subset := List.Subset.refl _
  met_within _ h := .inl h
  next_within := List.nil_subset _
  now_within := List.cons_subset.2 ⟨self_mem_within 0, List.nil_subset _⟩
  readers_met _ name h := by
    obtain rfl := (NameSet.mem_keys_add.1 h).resolve_right List.not_mem_nil
    exact .inl List.mem_cons_self

namespace Level

variable {depth : Nat} {now next : List String}

/-- When a level is done the nodes that it queued are the next one. -/
theorem advance (h : s.Level references node reach depth [] next) (hnext : next ≠ []) :
    s.Level references node reach (depth + 1) next [] := by
  have hdepth : depth < reach := Nat.lt_of_not_le (mt h.next_eq_nil hnext)
  have hreaders {name : String} (hname : name ∈ (within references node depth).keys) :
      readers references name ⊆ s.met.keys :=
    (h.readers_met hdepth name hname).resolve_left List.not_mem_nil
  have hwithin : (within references node (depth + 1)).keys ⊆ s.met.keys := by
    intro name hname
    rcases mem_expand.1 hname with hname | ⟨source, hsource, hname⟩
    · exact h.within_subset hname
    · exact hreaders hsource hname
  exact {
    queue_eq := by rw [h.queue_eq]; simp
    depth_le := hdepth
    next_eq_nil := fun _ => rfl
    within_subset := hwithin
    met_within := fun name hname =>
      .inl ((h.met_within name hname).elim (within_mono (Nat.le_succ depth)) (h.next_within ·))
    next_within := List.nil_subset _
    now_within := h.next_within
    readers_met := fun _ name hname =>
      ((h.met_within name (hwithin hname)).imp_left hreaders).symm }

/-- On a level a step takes a node of the level, and its new readers come to the next. -/
theorem step_now (h : s.Level references node reach depth (name :: now) next) :
    ∃ next', (s.step references reach).Level references node reach depth now next' := by
  obtain ⟨new, hnew, hqueue, hmet, hreaders, hnil⟩ :=
    step_cons references reach h.queue_eq
  have hmem (other : String) : other ∈ (s.step references reach).met.keys ↔
      other ∈ s.met.keys ∨ other ∈ new := hmet.mem_iff.trans List.mem_append
  have hname := h.now_within List.mem_cons_self
  refine ⟨next ++ new, {
    queue_eq := by rw [hqueue]; simp
    depth_le := h.depth_le
    next_eq_nil := fun hdepth => by rw [h.next_eq_nil hdepth, hnil hdepth]; rfl
    within_subset := fun other hother => (hmem other).2 (.inl (h.within_subset hother))
    met_within := fun other hother => ?_
    next_within := List.append_subset.2 ⟨h.next_within, fun other hother =>
      mem_expand.2 (.inr ⟨name, hname, hnew hother⟩)⟩
    now_within := (List.cons_subset.1 h.now_within).2
    readers_met := fun hdepth other hother => ?_ }⟩
  · rw [List.mem_append, ← or_assoc]
    exact ((hmem other).1 hother).imp_left (h.met_within other)
  · rcases h.readers_met hdepth other hother with hother | hother
    · rcases List.mem_cons.1 hother with rfl | hother
      · exact .inr (hreaders hdepth)
      · exact .inl hother
    · exact .inr fun reader hreader => (hmem reader).2 (.inl (hother hreader))

/-- A step keeps to the levels. -/
theorem step (h : s.Level references node reach depth now next) :
    ∃ depth' now' next',
      (s.step references reach).Level references node reach depth' now' next' := by
  cases now with
  | cons name now =>
    obtain ⟨next', h'⟩ := h.step_now
    exact ⟨depth, now, next', h'⟩
  | nil =>
    cases next with
    | nil =>
      rw [step_nil h.queue_eq]
      exact ⟨depth, [], [], h⟩
    | cons name next =>
      obtain ⟨next', h'⟩ := (h.advance (List.cons_ne_nil _ _)).step_now
      exact ⟨depth + 1, next, next', h'⟩

/-- A search that is over has met the nodes in reach. -/
theorem met_eq (h : s.Level references node reach depth now next) (hqueue : s.queue = []) :
    s.met = within references node reach := by
  obtain ⟨hnow, hnext⟩ := List.append_eq_nil_iff.1 (h.queue_eq.symm.trans hqueue)
  obtain rfl := List.map_eq_nil_iff.1 hnow
  obtain rfl := List.map_eq_nil_iff.1 hnext
  have hmet {name : String} (hname : name ∈ s.met.keys) :
      name ∈ (within references node depth).keys :=
    (h.met_within name hname).resolve_right List.not_mem_nil
  refine NameSet.ext_keys fun name => ⟨fun hname => within_mono h.depth_le (hmet hname), ?_⟩
  rcases Nat.lt_or_ge depth reach with hdepth | hdepth
  · -- The level came to nothing: what was met is closed under readers.
    exact @within_subset_of_closed _ _ _ (h.within_subset (self_mem_within depth))
      (fun next hnext => (h.readers_met hdepth next (hmet hnext)).resolve_left List.not_mem_nil)
      reach name
  · rw [Nat.le_antisymm hdepth h.depth_le]
    exact @h.within_subset name

/-- Only the first node and owners of references are met. -/
theorem met_length_le (h : s.Level references node reach depth now next) :
    s.met.keys.length ≤ references.length + 1 := by
  have hsubset : s.met.keys ⊆ node :: references.map Reference.owner := fun name hname =>
    (h.met_within name hname).elim owner_of_mem_within
      fun hname => owner_of_mem_within (h.next_within hname)
  have hlength := ((SortedMap.nodup_keys s.met).subperm hsubset).length_le
  rwa [List.length_cons, List.length_map] at hlength

end Level

/-! ## Runs -/

variable (references node reach) in
/-- A search keeps to the levels. -/
theorem run_level (steps : Nat) : ∃ depth now next,
    ((start node).run references reach steps).Level references node reach depth now next := by
  induction steps with
  | zero => exact ⟨0, [node], [], start_level⟩
  | succ steps ih =>
    obtain ⟨depth, now, next, h⟩ := ih
    rw [run_succ]
    exact h.step

variable (references node reach) in
/-- As long as a search goes on, every step took one of the nodes met from the queue. -/
theorem run_queue (steps : Nat) : ((start node).run references reach steps).queue = [] ∨
    ((start node).run references reach steps).queue.length + steps =
      ((start node).run references reach steps).met.keys.length := by
  induction steps with
  | zero => exact .inr rfl
  | succ steps ih =>
    rw [run_succ]
    generalize (start node).run references reach steps = s at ih
    cases hqueue : s.queue with
    | nil =>
      rw [step_nil hqueue]
      exact .inl hqueue
    | cons first queue =>
      obtain ⟨new, -, hqueue', hmet, -, -⟩ :=
        step_cons references reach hqueue
      have hcount := ih.resolve_left (by rw [hqueue]; exact List.cons_ne_nil _ _)
      have hlength := hmet.length_eq
      rw [hqueue, List.length_cons] at hcount
      rw [List.length_append] at hlength
      rw [hqueue', hlength, List.length_append, List.length_map]
      exact .inr (by omega)

/-- After more steps than there are references a search is over: every node that can be met was taken
from the queue. -/
theorem queue_run_eq_nil {steps : Nat} (hsteps : references.length < steps) :
    ((start node).run references reach steps).queue = [] := by
  obtain ⟨depth, now, next, h⟩ := run_level references node reach steps
  rcases run_queue references node reach steps with hqueue | hcount
  · exact hqueue
  · have hbound := h.met_length_le
    exact List.eq_nil_of_length_eq_zero (by omega)

/-- A search that is over has met the nodes in reach. -/
theorem met_run {steps : Nat} (hsteps : references.length < steps) :
    ((start node).run references reach steps).met = within references node reach := by
  obtain ⟨depth, now, next, h⟩ := run_level references node reach steps
  exact h.met_eq (queue_run_eq_nil hsteps)

end Search

/-- The search for dependents finds what the rounds find. -/
theorem closure_eq (references : List Reference) (node : String) (reach : Nat) :
    closure references node reach = within references node reach :=
  Search.met_run (Nat.lt_succ_self _)

/-- A search with a longer reach finds no less. -/
theorem closure_mono {reach reach' : Nat} (h : reach ≤ reach')
    (hname : name ∈ (closure references node reach).keys) :
    name ∈ (closure references node reach').keys := by
  rw [closure_eq] at hname ⊢
  exact within_mono h hname

end Dependents

end ContentReplica
