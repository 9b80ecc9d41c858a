import ContentReplica.Proofs.Schema.Search

/-!
# Chains of references

A node reaches another through a chain of references, each owned by the node that comes next
(`Dependents.Chain`). The search for dependents finds the nodes at the ends of the chains that are not
longer than its reach, and no others, whatever cycles the references have
(`Dependents.closure_exact`).
-/

namespace ContentReplica.Dependents

variable {references : List Reference} {node name : String} {reach : Nat}

/-- A node owns a reference that resolves to another. -/
def Refers (references : List Reference) (reader target : String) : Prop :=
  ∃ r ∈ references, r.owner = reader ∧ r.target.node? = some target

/-- A chain from a node, of the given number of references, that ends at a node: each node after the
first owns a reference to the one before it. -/
inductive Chain (references : List Reference) (node : String) : Nat → String → Prop
  | start : Chain references node 0 node
  | step {length : Nat} {target reader : String} (h : Chain references node length target)
      (hrefers : Refers references reader target) : Chain references node (length + 1) reader

/-- The readers of a node are those that refer to it. -/
theorem mem_readers_iff {target reader : String} :
    reader ∈ readers references target ↔ Refers references reader target := by
  simp only [readers, Refers, List.mem_map, List.mem_filter, decide_eq_true_eq, and_assoc]
  exact exists_congr fun r => and_congr_right fun _ => and_comm

/-- The nodes within a number of references are the ends of chains that are not longer. -/
theorem mem_within_iff_chain {depth : Nat} : name ∈ (within references node depth).keys ↔
    ∃ length ≤ depth, Chain references node length name := by
  induction depth generalizing name with
  | zero =>
    constructor
    · intro h
      obtain rfl := (NameSet.mem_keys_add.1 h).resolve_right List.not_mem_nil
      exact ⟨0, Nat.le_refl 0, .start⟩
    · rintro ⟨length, hlength, h⟩
      cases h with
      | start => exact self_mem_within 0
      | step => cases hlength
  | succ depth ih =>
    rw [within, mem_expand]
    constructor
    · rintro (h | ⟨target, htarget, hreader⟩)
      · obtain ⟨length, hlength, hchain⟩ := ih.1 h
        exact ⟨length, Nat.le_succ_of_le hlength, hchain⟩
      · obtain ⟨length, hlength, hchain⟩ := ih.1 htarget
        exact ⟨length + 1, Nat.succ_le_succ hlength, hchain.step (mem_readers_iff.1 hreader)⟩
    · rintro ⟨length, hlength, h⟩
      cases h with
      | start => exact .inl (self_mem_within depth)
      | step hchain hrefers =>
        exact .inr ⟨_, ih.2 ⟨_, Nat.le_of_succ_le_succ hlength, hchain⟩, mem_readers_iff.2 hrefers⟩

/-- No node in the queue of a search is further away than the search reaches. -/
theorem Search.depth_le_reach {steps : Nat} {entry : String × Nat}
    (hentry : entry ∈ ((start node).run references reach steps).queue) : entry.2 ≤ reach := by
  obtain ⟨depth, now, next, h⟩ := run_level references node reach steps
  rw [h.queue_eq] at hentry
  rcases List.mem_append.1 hentry with hentry | hentry
  · obtain ⟨name, -, rfl⟩ := List.mem_map.1 hentry
    exact h.depth_le
  · obtain ⟨name, hname, rfl⟩ := List.mem_map.1 hentry
    -- Only a level short of the reach has a next one.
    exact Nat.lt_of_not_le fun hdepth => List.ne_nil_of_mem hname (h.next_eq_nil hdepth)

/-- The search for dependents is exact, whatever the references, cyclic or repeated. It is over after
more steps than there are references, and what it has met then is the closure. The closure has the ends
of the chains of at most `reach` references, and nothing else. The number of references that is kept
with a queued node never exceeds the reach, so where the reach has 8 bits it can be counted up in 8
bits for the readers of the node. -/
theorem closure_exact (references : List Reference) (node : String) (reach : Nat) :
    (∀ steps > references.length,
      ((Search.start node).run references reach steps).queue = [] ∧
      ((Search.start node).run references reach steps).met = closure references node reach) ∧
    (∀ name, name ∈ (closure references node reach).keys ↔
      ∃ length ≤ reach, Chain references node length name) ∧
    ∀ steps, ∀ entry ∈ ((Search.start node).run references reach steps).queue,
      entry.2 ≤ reach ∧
      (reach < UInt8.size → entry.2 < reach → (UInt8.ofNat entry.2 + 1).toNat = entry.2 + 1) := by
  refine ⟨fun steps hsteps => ⟨Search.queue_run_eq_nil hsteps, ?_⟩, fun name => ?_,
    fun steps entry hentry => ⟨Search.depth_le_reach hentry, fun hreach hdepth => ?_⟩⟩
  · rw [closure_eq, Search.met_run hsteps]
  · rw [closure_eq, mem_within_iff_chain]
  · have hsize : entry.2 + 1 < UInt8.size := Nat.lt_of_le_of_lt hdepth hreach
    rw [UInt8.toNat_add, UInt8.toNat_ofNat_of_lt' (Nat.lt_of_succ_lt hsize), UInt8.toNat_one,
      Nat.mod_eq_of_lt hsize]

/-- Two content types that link to each other, the first of them twice and the second to itself as well,
and a third that links to the first. -/
def ring : List Reference :=
  [("a", "b"), ("b", "a"), ("a", "b"), ("b", "b"), ("c", "a")].map fun (owner, target) =>
    ⟨owner, "link", .oneToOne, .contentType target, ⟨"link"⟩⟩

/-- The search for what reads the second type within two references, at its end and after one step. -/
theorem closure_exact_ring :
    (6 > ring.length ∧ ((Search.start "b").run ring 2 6).queue = [] ∧
      (closure ring "b" 2).keys = ["a", "b", "c"] ∧
      ∃ length ≤ 2, Chain ring "b" length "c") ∧
    ("a", 1) ∈ ((Search.start "b").run ring 2 1).queue ∧ 2 < UInt8.size ∧ 1 < 2 ∧
      (UInt8.ofNat 1 + 1).toNat = 1 + 1 := by
  obtain ⟨hover, hchains, hdepth⟩ := closure_exact ring "b" 2
  have hkeys : (closure ring "b" 2).keys = ["a", "b", "c"] := by decide +kernel
  have hqueue : ("a", 1) ∈ ((Search.start "b").run ring 2 1).queue := by decide +kernel
  refine ⟨⟨by decide, (hover 6 (by decide)).1, hkeys, (hchains "c").1 ?_⟩, hqueue, by decide,
    by decide, (hdepth 1 _ hqueue).2 (by decide) (by decide)⟩
  rw [hkeys]
  decide

end ContentReplica.Dependents
