import Mathlib.Data.List.Forall2

/-!
# Programs that may fail

A successful run in `Except` is taken apart one step at a time: `bind_eq_ok` for a step and what
follows it, `mapM_eq_ok` for the same step on every element of a list, `foldlM_preserves` for a
fact that every step of a fold keeps.
-/

namespace ContentReplica

variable {ε α β γ : Type}

/-- A sequence succeeds when its first step does and the rest succeeds on what that gives. -/
theorem bind_eq_ok {x : Except ε α} {f : α → Except ε β} {b : β} :
    x >>= f = .ok b ↔ ∃ a, x = .ok a ∧ f a = .ok b := by
  cases x with
  | error e => simp [bind, Except.bind]
  | ok a => simp [bind, Except.bind]

/-- A sequence fails when its first step does, or when the rest fails on what that gives. -/
theorem bind_eq_error {x : Except ε α} {f : α → Except ε β} {e : ε} :
    x >>= f = .error e ↔ x = .error e ∨ ∃ a, x = .ok a ∧ f a = .error e := by
  cases x with
  | error e => simp [bind, Except.bind]
  | ok a => simp [bind, Except.bind]

/-- A result with its error reworded succeeds when the result does. -/
theorem mapError_eq_ok {ε' : Type} {x : Except ε α} {f : ε → ε'} {a : α} :
    x.mapError f = .ok a ↔ x = .ok a := by
  cases x with
  | error e => simp [Except.mapError]
  | ok a => simp [Except.mapError]

/-- A success gives something. -/
theorem exists_of_isOk {x : Except ε α} (h : x.isOk = true) : ∃ a, x = .ok a := by
  cases x with
  | error e => cases h
  | ok a => exact ⟨a, rfl⟩

/-- A result that passes a test was a success. -/
theorem exists_of_toOption_any {x : Except ε α} {p : α → Bool} (h : x.toOption.any p = true) :
    ∃ a, x = .ok a ∧ p a = true := by
  cases x with
  | error e => cases h
  | ok a => exact ⟨a, rfl, h⟩

/-- A run that goes through gives something and a state. -/
theorem exists_of_fst_isOk {σ : Type} {run : Except ε α × σ} (h : run.1.isOk = true) :
    ∃ a, run = (.ok a, run.2) := by
  obtain ⟨result, s⟩ := run
  obtain ⟨a, rfl⟩ := exists_of_isOk h
  exact ⟨a, rfl⟩

/-- A failure has an error. -/
theorem exists_of_not_isOk {x : Except ε α} (h : x.isOk = false) : ∃ e, x = .error e := by
  cases x with
  | error e => exact ⟨e, rfl⟩
  | ok a => cases h

/-- A mapped result is a success of the result under it. -/
theorem map_eq_ok {x : Except ε α} {f : α → β} {b : β} :
    f <$> x = .ok b ↔ ∃ a, x = .ok a ∧ f a = b := by
  cases x with
  | error e => simp [Functor.map, Except.map]
  | ok a => simp [Functor.map, Except.map]

/-- The last step of a program succeeds with its own value. -/
theorem pure_eq_ok {a b : α} : (pure a : Except ε α) = .ok b ↔ a = b := by
  simp [pure, Except.pure]

/-- A list of runs succeeds when each of them does, with their results in order. -/
theorem mapM_eq_ok {f : α → Except ε β} :
    ∀ {xs : List α} {ys : List β},
      xs.mapM f = .ok ys ↔ List.Forall₂ (fun x y => f x = .ok y) xs ys
  | [], ys => by
    rw [List.mapM_nil, pure_eq_ok, List.forall₂_nil_left_iff]
    exact eq_comm
  | x :: xs, ys => by
    rw [List.mapM_cons, bind_eq_ok]
    constructor
    · rintro ⟨y, hy, h⟩
      obtain ⟨zs, hzs, h⟩ := bind_eq_ok.1 h
      rw [← pure_eq_ok.1 h]
      exact .cons hy (mapM_eq_ok.1 hzs)
    · intro h
      cases h with
      | cons hy hrest => exact ⟨_, hy, bind_eq_ok.2 ⟨_, mapM_eq_ok.2 hrest, rfl⟩⟩

/-- A program that succeeds on every element succeeds on a list. -/
theorem mapM_isOk {f : α → Except ε β} :
    ∀ {xs : List α}, (∀ x ∈ xs, ∃ y, f x = .ok y) → ∃ ys, xs.mapM f = .ok ys
  | [], _ => ⟨[], rfl⟩
  | x :: xs, h => by
    obtain ⟨hx, hxs⟩ := List.forall_mem_cons.1 h
    obtain ⟨y, hy⟩ := hx
    obtain ⟨ys, hys⟩ := mapM_isOk hxs
    rw [List.mapM_cons]
    exact ⟨y :: ys, bind_eq_ok.2 ⟨y, hy, bind_eq_ok.2 ⟨ys, hys, rfl⟩⟩⟩

/-- Two lists of runs that succeed succeed as one. -/
theorem mapM_append_ok {f : α → Except ε β} {xs xs' : List α} {ys ys' : List β}
    (h : xs.mapM f = .ok ys) (h' : xs'.mapM f = .ok ys') : (xs ++ xs').mapM f = .ok (ys ++ ys') := by
  rw [List.mapM_append]
  exact bind_eq_ok.2 ⟨ys, h, bind_eq_ok.2 ⟨ys', h', rfl⟩⟩

/-- Of a list of runs that succeeds some succeed with their results, if these tell which. -/
theorem mapM_filter_ok {f : α → Except ε β} {p : α → Bool} {q : β → Bool}
    (hpq : ∀ x y, f x = .ok y → q y = p x) :
    ∀ {xs : List α} {ys : List β}, xs.mapM f = .ok ys →
      (xs.filter p).mapM f = .ok (ys.filter q)
  | [], ys, h => by
    rw [List.mapM_nil, pure_eq_ok] at h
    rw [← h]
    rfl
  | x :: xs, ys, h => by
    rw [List.mapM_cons] at h
    obtain ⟨y, hy, h⟩ := bind_eq_ok.1 h
    obtain ⟨zs, hzs, h⟩ := bind_eq_ok.1 h
    obtain rfl := pure_eq_ok.1 h
    have hrest := mapM_filter_ok hpq hzs
    rw [List.filter_cons, List.filter_cons, hpq x y hy]
    split
    · rw [List.mapM_cons]
      exact bind_eq_ok.2 ⟨y, hy, bind_eq_ok.2 ⟨_, hrest, rfl⟩⟩
    · exact hrest

/-- A list of checks succeeds when each of them does. -/
theorem forM_eq_ok {f : α → Except ε Unit} :
    ∀ {xs : List α}, xs.forM f = .ok () ↔ ∀ x ∈ xs, f x = .ok ()
  | [] => by simp [pure, Except.pure]
  | x :: xs => by
    change (f x >>= fun _ => xs.forM f) = .ok () ↔ _
    rw [bind_eq_ok, List.forall_mem_cons]
    exact ⟨fun ⟨_, hx, hxs⟩ => ⟨hx, forM_eq_ok.1 hxs⟩, fun ⟨hx, hxs⟩ => ⟨(), hx, forM_eq_ok.2 hxs⟩⟩

/-- Each element on the right of a pairing has a partner on the left. -/
theorem exists_left_of_forall₂ {r : α → β → Prop} {xs : List α} {ys : List β}
    (h : List.Forall₂ r xs ys) {y : β} (hy : y ∈ ys) : ∃ x ∈ xs, r x y := by
  induction h with
  | nil => cases hy
  | cons hx _ ih =>
    rcases List.mem_cons.1 hy with rfl | hy
    · exact ⟨_, List.mem_cons_self .., hx⟩
    · obtain ⟨x, hmem, hx⟩ := ih hy
      exact ⟨x, List.mem_cons_of_mem _ hmem, hx⟩

/-- Each element on the left of a pairing has a partner on the right. -/
theorem exists_right_of_forall₂ {r : α → β → Prop} {xs : List α} {ys : List β}
    (h : List.Forall₂ r xs ys) {x : α} (hx : x ∈ xs) : ∃ y ∈ ys, r x y :=
  exists_left_of_forall₂ h.flip hx

/-- What is read off the right of a pairing is read off the left, if each pair allows it. -/
theorem map_eq_of_forall₂ {r : α → β → Prop} {xs : List α} {ys : List β}
    (h : List.Forall₂ r xs ys) {g : β → γ} {k : α → γ} (hg : ∀ x y, r x y → g y = k x) :
    ys.map g = xs.map k := by
  induction h with
  | nil => rfl
  | cons hx _ ih => rw [List.map_cons, List.map_cons, hg _ _ hx, ih]

/-- Each result of a list of runs is that of one of them. -/
theorem exists_of_mapM {f : α → Except ε β} {xs : List α} {ys : List β}
    (h : xs.mapM f = .ok ys) {y : β} (hy : y ∈ ys) : ∃ x ∈ xs, f x = .ok y :=
  exists_left_of_forall₂ (mapM_eq_ok.1 h) hy

/-- A list of runs fails with the error of one of them. -/
theorem exists_of_mapM_error {f : α → Except ε β} {xs : List α} {e : ε}
    (h : xs.mapM f = .error e) : ∃ x ∈ xs, f x = .error e := by
  induction xs with
  | nil => cases h
  | cons x xs ih =>
    rw [List.mapM_cons] at h
    rcases bind_eq_error.1 h with hx | ⟨y, -, h⟩
    · exact ⟨x, List.mem_cons_self .., hx⟩
    · rcases bind_eq_error.1 h with hxs | ⟨ys, -, h⟩
      · obtain ⟨x', hx', he⟩ := ih hxs
        exact ⟨x', List.mem_cons_of_mem _ hx', he⟩
      · cases h

/-- A list of runs whose results are sifted fails with the error of one of them. -/
theorem exists_of_filterMapM_error {f : α → Except ε (Option β)} {xs : List α} {e : ε}
    (h : xs.filterMapM f = .error e) : ∃ x ∈ xs, f x = .error e := by
  induction xs with
  | nil => cases h
  | cons x xs ih =>
    have hrest (h : xs.filterMapM f = .error e) : ∃ x' ∈ x :: xs, f x' = .error e := by
      obtain ⟨x', hx', he⟩ := ih h
      exact ⟨x', List.mem_cons_of_mem _ hx', he⟩
    rw [List.filterMapM_cons] at h
    rcases bind_eq_error.1 h with hx | ⟨o, -, h⟩
    · exact ⟨x, List.mem_cons_self .., hx⟩
    · cases o with
      | none => exact hrest h
      | some y =>
        rcases bind_eq_error.1 h with hxs | ⟨ys, -, h⟩
        · exact hrest hxs
        · cases h

/-- Of a list of runs that succeeds the first ones succeed with the first results. -/
theorem mapM_take_ok {f : α → Except ε β} {xs : List α} {ys : List β} (h : xs.mapM f = .ok ys)
    (k : Nat) : (xs.take k).mapM f = .ok (ys.take k) :=
  mapM_eq_ok.2 (List.forall₂_take k (mapM_eq_ok.1 h))

/-- What is read off the results is read off the inputs, if each run allows it. -/
theorem map_eq_of_mapM {f : α → Except ε β} {xs : List α} {ys : List β}
    (h : xs.mapM f = .ok ys) {g : β → γ} {k : α → γ} (hg : ∀ x y, f x = .ok y → g y = k x) :
    ys.map g = xs.map k :=
  map_eq_of_forall₂ (mapM_eq_ok.1 h) hg

/-- What is read off the results that there are is read off the inputs, in the same order. -/
theorem map_filterMap_sublist {f : α → Option β} {g : β → γ} {k : α → γ}
    (hg : ∀ x y, f x = some y → g y = k x) (xs : List α) :
    ((xs.filterMap f).map g).Sublist (xs.map k) := by
  induction xs with
  | nil => exact .slnil
  | cons x xs ih =>
    cases hx : f x with
    | none =>
      rw [List.filterMap_cons_none hx]
      exact ih.cons _
    | some y =>
      rw [List.filterMap_cons_some hx, List.map_cons, List.map_cons, hg x y hx]
      exact ih.cons_cons _

/-- What every successful step of a fold keeps, the whole fold keeps. -/
theorem foldlM_preserves {f : β → α → Except ε β} {P : β → Prop} {xs : List α}
    (step : ∀ s x s', x ∈ xs → P s → f s x = .ok s' → P s') :
    ∀ {s s' : β}, P s → xs.foldlM f s = .ok s' → P s' := by
  induction xs with
  | nil =>
    intro s s' hs h
    rw [List.foldlM_nil, pure_eq_ok] at h
    exact h ▸ hs
  | cons x xs ih =>
    intro s s' hs h
    rw [List.foldlM_cons] at h
    obtain ⟨s₁, h₁, h₂⟩ := bind_eq_ok.1 h
    have hs₁ : P s₁ := step s x s₁ (List.mem_cons_self ..) hs h₁
    exact ih (fun s x s' hx => step s x s' (List.mem_cons_of_mem _ hx)) hs₁ h₂

/-- A fold over two lists in a row is a fold over the first and then one over the second. -/
theorem foldlM_append_eq_ok {f : β → α → Except ε β} {xs ys : List α} {s s' : β} :
    (xs ++ ys).foldlM f s = .ok s' ↔
      ∃ s₁, xs.foldlM f s = .ok s₁ ∧ ys.foldlM f s₁ = .ok s' := by
  rw [List.foldlM_append, bind_eq_ok]

/-- A fold of steps that commute with a change of the state commutes with it. -/
theorem foldlM_map {f : β → α → Except ε β} {g : β → β} {xs : List α}
    (h : ∀ b, ∀ a ∈ xs, f (g b) a = g <$> f b a) (b : β) :
    xs.foldlM f (g b) = g <$> xs.foldlM f b := by
  induction xs generalizing b with
  | nil => rfl
  | cons x xs ih =>
    have hrest : ∀ b, xs.foldlM f (g b) = g <$> xs.foldlM f b :=
      ih fun b a ha => h b a (List.mem_cons_of_mem _ ha)
    simp only [List.foldlM_cons, h b x (List.mem_cons_self ..), bind_map_left, map_bind, hrest]

end ContentReplica
