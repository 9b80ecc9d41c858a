import ContentReplica.Migration
import ContentReplica.Proofs.Replication.BulkLoad

/-!
# Steps of a migration

A step that succeeds or fails is a sequence of which every part succeeded up to some point
(`Step.seq_eq_ok`, `Step.seq_eq_error`), and a failed stage is named by its error
(`Step.atStage_eq_error`). `Step.Within` is the frame of a step: it changes one namespace at most,
whether it succeeds or not. A sequence of such steps is such a step (`Step.Within.seq`).
-/

namespace ContentReplica.Migration.Step

variable {α β : Type}

/-! ## Sequences -/

section
variable {x : Step α} {f : α → Step β} {b b' : Building}

/-- A sequence goes on where its first step succeeded. -/
theorem seq_apply (x : Step α) (f : α → Step β) (b : Building) :
    (x >>= f) b = match x b with
      | (.ok a, b₁) => f a b₁
      | (.error e, b₁) => (.error e, b₁) := by
  change (match x b with | (result, b₁) => ExceptT.bindCont f result b₁) = _
  cases x b with
  | mk result b₁ =>
    cases result with
    | error e => rfl
    | ok a => rfl

/-- A sequence succeeds when both steps do. -/
theorem seq_eq_ok {y : β} :
    (x >>= f) b = (.ok y, b') ↔ ∃ a b₁, x b = (.ok a, b₁) ∧ f a b₁ = (.ok y, b') := by
  rw [seq_apply]
  constructor
  · intro h
    split at h
    · next a b₁ hx => exact ⟨a, b₁, hx, h⟩
    · cases h
  · rintro ⟨a, b₁, hx, hf⟩
    rw [hx]
    exact hf

/-- A sequence fails when its first step does, or its second after the first. -/
theorem seq_eq_error {e : Error} :
    (x >>= f) b = (.error e, b') ↔
      x b = (.error e, b') ∨ ∃ a b₁, x b = (.ok a, b₁) ∧ f a b₁ = (.error e, b') := by
  rw [seq_apply]
  constructor
  · intro h
    split at h
    · next a b₁ hx => exact .inr ⟨a, b₁, hx, h⟩
    · next e' b₁ hx =>
      cases h
      exact .inl hx
  · rintro (hx | ⟨a, b₁, hx, hf⟩)
    · rw [hx]
    · rw [hx]
      exact hf

/-- A stage succeeds as its step does. -/
theorem atStage_eq_ok {stage : MigrationStage} {a : α} :
    x.atStage stage b = (.ok a, b') ↔ x b = (.ok a, b') := by
  unfold atStage
  cases x b with
  | mk result b₁ =>
    cases result with
    | error e => exact ⟨nofun, nofun⟩
    | ok a => exact Iff.rfl

/-- A stage fails with the error of its step, and names itself. -/
theorem atStage_eq_error {stage : MigrationStage} {e : Error} :
    x.atStage stage b = (.error e, b') ↔
      ∃ cause, e = .migration stage cause ∧ x b = (.error cause, b') := by
  unfold atStage
  cases x b with
  | mk result b₁ =>
    cases result with
    | error cause =>
      constructor
      · intro h
        cases h
        exact ⟨cause, rfl, rfl⟩
      · rintro ⟨cause', rfl, h⟩
        cases h
        rfl
    | ok a => exact ⟨nofun, fun ⟨_, _, h⟩ => nomatch h⟩

end

/-! ## The frame of a step -/

/-- Whatever comes of the step, it changes no namespace but the given one. -/
def Within (ns : Ident) (x : Step α) : Prop :=
  ∀ b name, name ≠ ns → (x b).2.world.store.namespace? name = b.world.store.namespace? name

section
variable {ns : Ident} {x : Step α} {f : α → Step β}

/-- A step that leaves the world alone is inside every namespace. -/
theorem within_of_world (h : ∀ b, (x b).2.world = b.world) : x.Within ns := by
  intro b name _
  rw [h b]

/-- A result is inside every namespace. -/
theorem within_pure (a : α) : Within ns (pure a) := within_of_world fun _ => rfl

/-- An error is inside every namespace. -/
theorem within_throw (e : Error) : Within ns (throw e : Step α) := within_of_world fun _ => rfl

/-- A value that may be missing is inside every namespace. -/
theorem within_ofExcept (result : Except Error α) : (ofExcept result).Within ns :=
  within_of_world fun _ => rfl

/-- A question is inside every namespace. -/
theorem within_ask (question : ContentSource → Except Error α) : (ask question).Within ns :=
  within_of_world fun _ => rfl

/-- A look at the signal leaves the world alone. -/
theorem look_world (signal : Signal) (b : Building) : (look signal b).2.world = b.world := by
  unfold look
  split
  · rfl
  · rfl

/-- A look at the signal is inside every namespace. -/
theorem within_look (signal : Signal) : (look signal).Within ns := within_of_world (look_world signal)

/-- A sequence stays inside a namespace if each step does. -/
theorem Within.seq (hx : x.Within ns)
    (hf : ∀ a b b₁, x b = (.ok a, b₁) → (f a).Within ns) : (x >>= f).Within ns := by
  intro b name hn
  have hfirst := hx b name hn
  rw [seq_apply]
  split
  · next a b₁ hrun =>
    rw [hrun] at hfirst
    exact (hf a b b₁ hrun b₁ name hn).trans hfirst
  · next e b₁ hrun =>
    rw [hrun] at hfirst
    exact hfirst

/-- A stage stays inside a namespace if its step does. -/
theorem Within.atStage (hx : x.Within ns) (stage : MigrationStage) :
    (x.atStage stage).Within ns := by
  intro b name hn
  have hframe := hx b name hn
  unfold Step.atStage
  split
  · next hrun =>
    rw [hrun] at hframe
    exact hframe
  · next hrun =>
    rw [hrun] at hframe
    exact hframe

/-- A batch stays inside a namespace if it writes no other one. -/
theorem within_execute {batch : List Statement} (h : ∀ statement ∈ batch, statement.writes = [ns]) :
    (execute batch).Within ns := by
  intro b name hn
  refine Store.execute_frame rfl fun statement hs hname => hn ?_
  rw [h statement hs] at hname
  exact List.mem_singleton.1 hname

/-- A bulk load stays inside the namespace of its engine. -/
theorem within_bulkLoad (e : Engine) (signal : Signal) :
    (bulkLoad e signal).Within e.namespaceName := by
  intro b name hn
  exact e.load_frame signal false b.moment b.world hn

end

/-! ## What a step leaves in its namespace -/

section
variable {signal : Signal} {b b' : Building}

/-- A batch that a step executed was applied. -/
theorem applyAll_of_execute {batch : List Statement} {u : Unit}
    (h : execute batch b = (.ok u, b')) :
    b.world.store.database.applyAll batch = .ok b'.world.store.database := by
  unfold execute at h
  generalize hrun : b.world.store.execute batch = run at h
  obtain ⟨result, store⟩ := run
  cases h
  exact (Store.execute_ok hrun).2.1

/-- A namespace that is there stays there under a step that executes a batch, unless the batch drops
it. -/
theorem exists_of_execute {ns : Ident} {batch : List Statement} {count result : Nat}
    (hwrites : ∀ statement ∈ batch, statement.writes = [ns])
    (hkeep : ∀ statement ∈ batch, statement ≠ .dropNamespace ns)
    (hn : ∃ n, b.world.store.namespace? ns = some n)
    (h : (do look signal; execute batch; return count : Step Nat) b = (.ok result, b')) :
    ∃ n, b'.world.store.namespace? ns = some n := by
  obtain ⟨_, b₁, hlook, h⟩ := seq_eq_ok.1 h
  obtain ⟨_, b₂, hexecute, h⟩ := seq_eq_ok.1 h
  cases h
  have hworld := look_world signal b
  rw [hlook] at hworld
  rw [← hworld] at hn
  exact Database.exists_of_applyAll hwrites hkeep hn (applyAll_of_execute hexecute)

end

end ContentReplica.Migration.Step
