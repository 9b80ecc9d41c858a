import ContentReplica.Proofs.Store.Frame

/-!
# Executing batches

A batch that a store executes is applied as a whole (`Store.execute_ok`), or it is refused and no
data change (`Store.execute_error`); in either case no namespace changes that the batch does not
write (`Store.execute_frame`). A store without failures refuses only what cannot be applied
(`Store.execute_of_applyAll`). `Store.executeEach` executes batches in order up to the first that is
refused.
-/

namespace ContentReplica.Store

variable {s s' : Store} {batch : List Statement}

/-- A store whose data were published with a namespace has this namespace. -/
theorem namespace?_of_database {d : Database} {ns : Ident} {n : Namespace}
    (h : s.database = d.withNamespace ns n) : s.namespace? ns = some n := by
  unfold namespace?
  rw [h]
  exact Database.get?_withNamespace_self ..

/-- Without failures no batch is refused for one. -/
theorem checkFailures_nil (h : s.failures = []) (batch : List Statement) :
    s.checkFailures batch = .ok () := by
  unfold checkFailures
  rw [List.find?_eq_none.2 fun statement _ => by simp [h]]

/-- A batch is executed by checking it and applying it. -/
theorem execute_eq (s : Store) (batch : List Statement) : s.execute batch =
    match (do s.checkFailures batch; s.database.applyAll batch : Except StoreFault Database) with
    | .ok d => (.ok (),
        { s.observe 1 with database := d, committed := s.committed + 1, applied := s.applied + 1 })
    | .error fault => (.error (.database fault), s.observe 1) :=
  rfl

/-- What executing a batch does: all of it, or nothing to the data. -/
theorem execute_cases (s : Store) (batch : List Statement) :
    (∃ d s', s.checkFailures batch = .ok () ∧ s.database.applyAll batch = .ok d ∧
      s.execute batch = (.ok (), s') ∧ s'.database = d ∧ s'.failures = s.failures) ∨
    ∃ fault s', s.execute batch = (.error (.database fault), s') ∧ s'.database = s.database ∧
      s'.failures = s.failures := by
  have hexecute := s.execute_eq batch
  cases hrun : (do s.checkFailures batch; s.database.applyAll batch : Except StoreFault Database) with
  | error fault =>
    rw [hrun] at hexecute
    exact .inr ⟨fault, s.observe 1, hexecute, rfl, rfl⟩
  | ok d =>
    rw [hrun] at hexecute
    obtain ⟨_, hcheck, happly⟩ := bind_eq_ok.1 hrun
    exact .inl ⟨d, _, hcheck, happly, hexecute, rfl, rfl⟩

/-- A batch that was executed was applied. -/
theorem execute_ok (h : s.execute batch = (.ok (), s')) :
    s.checkFailures batch = .ok () ∧ s.database.applyAll batch = .ok s'.database ∧
      s'.failures = s.failures := by
  rcases s.execute_cases batch with ⟨d, s₁, hcheck, happly, hexec, rfl, hf⟩ | ⟨fault, s₁, hexec, -⟩
  · obtain ⟨-, rfl⟩ := Prod.mk.inj (hexec.symm.trans h)
    exact ⟨hcheck, happly, hf⟩
  · cases (Prod.mk.inj (hexec.symm.trans h)).1

/-- A batch that was refused changed no data. -/
theorem execute_error {e : Error} (h : s.execute batch = (.error e, s')) :
    s'.database = s.database ∧ s'.failures = s.failures := by
  rcases s.execute_cases batch with ⟨d, s₁, -, -, hexec, -⟩ | ⟨fault, s₁, hexec, hd, hf⟩
  · cases (Prod.mk.inj (hexec.symm.trans h)).1
  · obtain ⟨-, rfl⟩ := Prod.mk.inj (hexec.symm.trans h)
    exact ⟨hd, hf⟩

/-- Whatever comes of a batch, a namespace that it does not write stays as it is. -/
theorem execute_frame {result : Except Error Unit} (h : s.execute batch = (result, s'))
    {name : Ident} (hn : ∀ statement ∈ batch, name ∉ statement.writes) :
    s'.namespace? name = s.namespace? name := by
  unfold namespace?
  cases result with
  | ok u => exact Database.applyAll_frame (execute_ok h).2.1 hn
  | error e => rw [(execute_error h).1]

/-- A store without failures executes a batch that can be applied. -/
theorem execute_of_applyAll {d : Database} (hf : s.failures = [])
    (h : s.database.applyAll batch = .ok d) :
    ∃ s', s.execute batch = (.ok (), s') ∧ s'.database = d ∧ s'.failures = [] := by
  have hexecute := s.execute_eq batch
  rw [bind_eq_ok.2 ⟨(), checkFailures_nil hf batch, h⟩] at hexecute
  exact ⟨_, hexecute, rfl, hf⟩

/-! ## Batches in order -/

/-- Execute batches in order, up to the first that is refused. -/
def executeEach (s : Store) : List (List Statement) → Except Error Unit × Store
  | [] => (.ok (), s)
  | batch :: batches =>
    match s.execute batch with
    | (.ok (), s) => s.executeEach batches
    | (.error e, s) => (.error e, s)

/-- Of batches that are executed in order the first ones are applied, all if none is refused. -/
theorem executeEach_cases :
    ∀ {batches : List (List Statement)} {s s' : Store} {result : Except Error Unit},
      s.executeEach batches = (result, s') →
      ∃ k ≤ batches.length, (result = .ok () → k = batches.length) ∧
        (batches.take k).foldlM Database.applyAll s.database = .ok s'.database
  | [], s, s', result, h => by
    cases h
    exact ⟨0, Nat.le_refl 0, fun _ => rfl, rfl⟩
  | batch :: batches, s, s', result, h => by
    unfold executeEach at h
    split at h
    · next s₁ hexec =>
      obtain ⟨k, hk, hall, hrun⟩ := executeEach_cases h
      exact ⟨k + 1, Nat.succ_le_succ hk, fun hok => congrArg (· + 1) (hall hok),
        bind_eq_ok.2 ⟨_, (execute_ok hexec).2.1, hrun⟩⟩
    · next e s₁ hexec =>
      cases h
      exact ⟨0, Nat.zero_le _, nofun, congrArg Except.ok (execute_error hexec).1.symm⟩

/-- A store without failures executes batches that can be applied one after the other. -/
theorem executeEach_of_applyAll :
    ∀ {batches : List (List Statement)} {s : Store} {d : Database}, s.failures = [] →
      batches.foldlM Database.applyAll s.database = .ok d →
      ∃ s', s.executeEach batches = (.ok (), s') ∧ s'.database = d ∧ s'.failures = []
  | [], s, d, hf, h => ⟨s, rfl, pure_eq_ok.1 h, hf⟩
  | batch :: batches, s, d, hf, h => by
    obtain ⟨d₁, hfirst, hrest⟩ := bind_eq_ok.1 h
    obtain ⟨s₁, hexec, rfl, hf₁⟩ := execute_of_applyAll hf hfirst
    obtain ⟨s', hrun, hd, hf'⟩ := executeEach_of_applyAll hf₁ hrest
    refine ⟨s', ?_, hd, hf'⟩
    unfold executeEach
    rw [hexec]
    exact hrun

end ContentReplica.Store
