/-!
# Maps in key order

`SortedMap κ α` is a finite map kept as a list of entries in strictly increasing key order, so two
maps with the same entries are the same map (`ext_get?`). The list functions `Entries.insert`,
`Entries.erase` and `Entries.get?` are also what the members of a JSON object are kept with.

Each operation has one equation through `get?`: `get?_empty`, `get?_insert`, `get?_erase`.
-/

namespace ContentReplica

/-! ## Entry lists -/

namespace Entries

variable {κ : Type} {α β : Type} [Ord κ]

/-- The value stored under a key. -/
def get? : List (κ × α) → κ → Option α
  | [], _ => none
  | (k', v) :: rest, k => if compare k k' = .eq then some v else get? rest k

/-- Store a value under a key, in place of an earlier one. -/
def insert (k : κ) (v : α) : List (κ × α) → List (κ × α)
  | [] => [(k, v)]
  | (k', v') :: rest =>
    match compare k k' with
    | .lt => (k, v) :: (k', v') :: rest
    | .eq => (k, v) :: rest
    | .gt => (k', v') :: insert k v rest

/-- Remove a key. -/
def erase (k : κ) : List (κ × α) → List (κ × α)
  | [] => []
  | (k', v') :: rest => if compare k k' = .eq then rest else (k', v') :: erase k rest

/-- The entries are in strictly increasing key order. -/
def Sorted (entries : List (κ × α)) : Prop :=
  entries.Pairwise fun a b => compare a.1 b.1 = .lt

instance (entries : List (κ × α)) : Decidable (Sorted entries) :=
  inferInstanceAs (Decidable (List.Pairwise _ _))

/-- An entry after an insertion is the new one or was there before. -/
theorem mem_of_mem_insert {k : κ} {v : α} {e : κ × α} {entries : List (κ × α)}
    (h : e ∈ insert k v entries) : e = (k, v) ∨ e ∈ entries := by
  induction entries with
  | nil => simpa [insert] using h
  | cons head rest ih =>
    obtain ⟨k', v'⟩ := head
    rw [insert] at h
    split at h <;> simp only [List.mem_cons] at h ⊢
    · exact h
    · exact h.imp_right .inr
    · rcases h with h | h
      · exact .inr (.inl h)
      · exact (ih h).imp_right .inr

/-- Erasing a key leaves entries in their order. -/
theorem erase_sublist (k : κ) (entries : List (κ × α)) : (erase k entries).Sublist entries := by
  induction entries with
  | nil => exact .slnil
  | cons head rest ih =>
    obtain ⟨k', v'⟩ := head
    rw [erase]
    split
    · exact .cons _ (List.Sublist.refl _)
    · exact .cons_cons _ ih

/-- The first key is less than the others. -/
theorem Sorted.head_lt {k : κ} {v : α} {rest : List (κ × α)} (h : Sorted ((k, v) :: rest)) :
    ∀ e ∈ rest, compare k e.1 = .lt :=
  fun _ he => List.rel_of_pairwise_cons h he

/-- Without its first entry a sorted list is sorted. -/
theorem Sorted.tail {e : κ × α} {rest : List (κ × α)} (h : Sorted (e :: rest)) : Sorted rest :=
  List.Pairwise.of_cons h

/-- Erasing a key leaves a sorted list. -/
theorem Sorted.erase {k : κ} {entries : List (κ × α)} (h : Sorted entries) :
    Sorted (erase k entries) :=
  List.Pairwise.sublist (erase_sublist k entries) h

/-- A key that is less than all others is not there. -/
theorem get?_eq_none_of_lt {k : κ} {entries : List (κ × α)}
    (h : ∀ e ∈ entries, compare k e.1 = .lt) : get? entries k = none := by
  induction entries with
  | nil => rfl
  | cons head rest ih =>
    have hlt := h head (List.mem_cons_self ..)
    rw [get?, hlt]
    simpa using ih fun e he => h e (List.mem_cons_of_mem _ he)

variable [Std.TransOrd κ] [Std.LawfulEqOrd κ]

/-- Inserting a key leaves a sorted list. -/
theorem Sorted.insert {k : κ} {v : α} {entries : List (κ × α)} (h : Sorted entries) :
    Sorted (insert k v entries) := by
  induction entries with
  | nil => simp [Entries.insert, Sorted]
  | cons head rest ih =>
    obtain ⟨k', v'⟩ := head
    have hrest := h.tail
    have hall := h.head_lt
    rw [Entries.insert]
    split
    · rename_i hlt
      refine List.pairwise_cons.2 ⟨fun e he => ?_, h⟩
      rcases List.mem_cons.1 he with rfl | he
      · exact hlt
      · exact Std.TransCmp.lt_trans hlt (hall _ he)
    · rename_i heq
      have hk : k = k' := Std.LawfulEqCmp.eq_of_compare heq
      subst hk
      exact List.pairwise_cons.2 ⟨fun e he => hall _ he, hrest⟩
    · rename_i hgt
      refine List.pairwise_cons.2 ⟨fun e he => ?_, ih hrest⟩
      rcases mem_of_mem_insert he with rfl | he
      · exact Std.OrientedCmp.lt_of_gt hgt
      · exact hall _ he

/-- An insertion puts its value under its key, and leaves the others. -/
theorem get?_insert (k k' : κ) (v : α) (entries : List (κ × α)) :
    get? (insert k v entries) k' = if compare k' k = .eq then some v else get? entries k' := by
  induction entries with
  | nil => simp [insert, get?]
  | cons head rest ih =>
    obtain ⟨h, w⟩ := head
    rw [insert]
    split
    · simp [get?]
    · rename_i heq
      have hk : k = h := Std.LawfulEqCmp.eq_of_compare heq
      subst hk
      by_cases hc : compare k' k = .eq <;> simp [get?, hc]
    · rename_i hgt
      simp only [get?, ih]
      by_cases hc : compare k' h = .eq
      · have hk : k' = h := Std.LawfulEqCmp.eq_of_compare hc
        subst hk
        have hne : compare k' k ≠ .eq := by
          intro he
          rw [Std.OrientedCmp.gt_iff_lt] at hgt
          rw [hgt] at he
          cases he
        simp [hne]
      · simp [hc]

/-- An erasure leaves nothing under its key, and leaves the others. -/
theorem get?_erase {k k' : κ} {entries : List (κ × α)} (h : Sorted entries) :
    get? (erase k entries) k' = if compare k' k = .eq then none else get? entries k' := by
  induction entries with
  | nil => simp [erase, get?]
  | cons head rest ih =>
    obtain ⟨k₀, w⟩ := head
    have hrest := h.tail
    have hall := h.head_lt
    rw [erase]
    split
    · rename_i heq
      have hk : k = k₀ := Std.LawfulEqCmp.eq_of_compare heq
      subst hk
      by_cases hc : compare k' k = .eq
      · have hk : k' = k := Std.LawfulEqCmp.eq_of_compare hc
        subst hk
        simp [get?_eq_none_of_lt fun e he => hall _ he]
      · simp [get?, hc]
    · rename_i hne
      simp only [get?, ih hrest]
      by_cases hc : compare k' k₀ = .eq
      · have hk : k' = k₀ := Std.LawfulEqCmp.eq_of_compare hc
        subst hk
        have hne' : compare k' k ≠ .eq := fun he => hne (Std.OrientedCmp.eq_symm he)
        simp [hne']
      · simp [hc]

omit [Std.TransOrd κ] in
/-- The entries of a sorted list are what is found by their keys. -/
theorem mem_iff_get? {e : κ × α} {entries : List (κ × α)} (h : Sorted entries) :
    e ∈ entries ↔ get? entries e.1 = some e.2 := by
  induction entries with
  | nil => simp [get?]
  | cons head rest ih =>
    obtain ⟨k', v'⟩ := head
    have hrest := h.tail
    have hall := h.head_lt
    rw [List.mem_cons, get?]
    by_cases hc : compare e.1 k' = .eq
    · have hk : e.1 = k' := Std.LawfulEqCmp.eq_of_compare hc
      rw [if_pos hc]
      constructor
      · rintro (rfl | he)
        · rfl
        · have := hall _ he
          rw [hk, show compare k' k' = .eq from Std.ReflCmp.compare_self] at this
          cases this
      · intro hv
        left
        obtain ⟨a, b⟩ := e
        simp only [Option.some.injEq] at hv hk
        rw [hk, hv]
    · rw [if_neg hc, ih hrest]
      constructor
      · rintro (rfl | he)
        · exact absurd Std.ReflCmp.compare_self hc
        · exact he
      · exact .inr

/-- Sorted entry lists that answer every key alike are the same list. -/
theorem ext {xs ys : List (κ × α)} (hx : Sorted xs) (hy : Sorted ys)
    (h : ∀ k, get? xs k = get? ys k) : xs = ys := by
  induction xs generalizing ys with
  | nil =>
    cases ys with
    | nil => rfl
    | cons e rest =>
      have := h e.1
      simp [get?] at this
  | cons x rest ih =>
    cases ys with
    | nil =>
      have := h x.1
      simp [get?] at this
    | cons y rest' =>
      obtain ⟨kx, vx⟩ := x
      obtain ⟨ky, vy⟩ := y
      have hxr : Sorted rest := hx.tail
      have hyr : Sorted rest' := hy.tail
      have hxa := hx.head_lt
      have hya := hy.head_lt
      have hk : compare kx ky = .eq := by
        cases hc : compare kx ky with
        | eq => rfl
        | lt =>
          have := h kx
          rw [show get? ((ky, vy) :: rest') kx = none from get?_eq_none_of_lt ?_] at this
          · simp [get?] at this
          · intro e he
            rcases List.mem_cons.1 he with rfl | he
            · exact hc
            · exact Std.TransCmp.lt_trans hc (hya _ he)
        | gt =>
          have hc' : compare ky kx = .lt := Std.OrientedCmp.lt_of_gt hc
          have := h ky
          rw [show get? ((kx, vx) :: rest) ky = none from get?_eq_none_of_lt ?_] at this
          · simp [get?] at this
          · intro e he
            rcases List.mem_cons.1 he with rfl | he
            · exact hc'
            · exact Std.TransCmp.lt_trans hc' (hxa _ he)
      have hkk : kx = ky := Std.LawfulEqCmp.eq_of_compare hk
      subst hkk
      have hv : vx = vy := by
        have := h kx
        simpa [get?] using this
      subst hv
      congr 1
      refine ih hxr hyr fun k => ?_
      by_cases hc : compare k kx = .eq
      · have hk' : k = kx := Std.LawfulEqCmp.eq_of_compare hc
        subst hk'
        rw [get?_eq_none_of_lt fun e he => hxa _ he, get?_eq_none_of_lt fun e he => hya _ he]
      · have := h k
        simpa [get?, hc] using this

omit [Std.TransOrd κ] [Std.LawfulEqOrd κ] in
/-- Changing the values leaves a sorted list. -/
theorem Sorted.mapValues {f : κ → α → β} {entries : List (κ × α)} (h : Sorted entries) :
    Sorted (entries.map fun e => (e.1, f e.1 e.2)) :=
  List.pairwise_map.2 h

end Entries

/-! ## Maps -/

/-- A finite map, its entries in strictly increasing key order. -/
structure SortedMap (κ : Type) (α : Type) [Ord κ] where
  entries : List (κ × α)
  sorted : Entries.Sorted entries
  deriving DecidableEq

namespace SortedMap

variable {κ : Type} {α β : Type} [Ord κ]

/-- The map without entries. -/
def empty : SortedMap κ α := ⟨[], List.Pairwise.nil⟩

instance : Inhabited (SortedMap κ α) := ⟨empty⟩
instance : EmptyCollection (SortedMap κ α) := ⟨empty⟩

/-- The value stored under a key. -/
def get? (m : SortedMap κ α) (k : κ) : Option α := Entries.get? m.entries k

/-- Whether a key is present. -/
def contains (m : SortedMap κ α) (k : κ) : Bool := (m.get? k).isSome

/-- The keys, in order. -/
def keys (m : SortedMap κ α) : List κ := m.entries.map Prod.fst

/-- The values, in key order. -/
def values (m : SortedMap κ α) : List α := m.entries.map Prod.snd

/-- The number of entries. -/
def size (m : SortedMap κ α) : Nat := m.entries.length

/-- Whether there is no entry. -/
def isEmpty (m : SortedMap κ α) : Bool := m.entries.isEmpty

/-- Keep the entries that satisfy a test. -/
def filter (p : κ → α → Bool) (m : SortedMap κ α) : SortedMap κ α :=
  ⟨m.entries.filter fun e => p e.1 e.2, List.Pairwise.sublist List.filter_sublist m.sorted⟩

/-- Change every value. -/
def mapValues (f : κ → α → β) (m : SortedMap κ α) : SortedMap κ β :=
  ⟨m.entries.map fun e => (e.1, f e.1 e.2), m.sorted.mapValues⟩

variable [Std.TransOrd κ] [Std.LawfulEqOrd κ]

/-- Store a value under a key, in place of an earlier one. -/
def insert (m : SortedMap κ α) (k : κ) (v : α) : SortedMap κ α :=
  ⟨Entries.insert k v m.entries, m.sorted.insert⟩

/-- Remove a key. -/
def erase (m : SortedMap κ α) (k : κ) : SortedMap κ α :=
  ⟨Entries.erase k m.entries, m.sorted.erase⟩

/-- The map of a list of pairs; of two pairs with one key the later counts. -/
def ofList (pairs : List (κ × α)) : SortedMap κ α :=
  pairs.foldl (fun m e => m.insert e.1 e.2) empty

/-- Two maps in which the same is found are equal. -/
@[ext] theorem ext_get? {m n : SortedMap κ α} (h : ∀ k, m.get? k = n.get? k) : m = n := by
  obtain ⟨xs, hx⟩ := m
  obtain ⟨ys, hy⟩ := n
  have := Entries.ext hx hy h
  subst this
  rfl

omit [Std.TransOrd κ] [Std.LawfulEqOrd κ] in
@[simp] theorem get?_empty (k : κ) : (empty : SortedMap κ α).get? k = none := rfl

/-- An insertion puts its value under its key, and leaves the others. -/
theorem get?_insert (m : SortedMap κ α) (k k' : κ) (v : α) :
    (m.insert k v).get? k' = if compare k' k = .eq then some v else m.get? k' :=
  Entries.get?_insert ..

/-- An erasure leaves nothing under its key, and leaves the others. -/
theorem get?_erase (m : SortedMap κ α) (k k' : κ) :
    (m.erase k).get? k' = if compare k' k = .eq then none else m.get? k' :=
  Entries.get?_erase m.sorted

omit [Std.TransOrd κ] in
/-- The entries of a map are what is found by their keys. -/
theorem mem_entries_iff (m : SortedMap κ α) (e : κ × α) :
    e ∈ m.entries ↔ m.get? e.1 = some e.2 :=
  Entries.mem_iff_get? m.sorted

end SortedMap

end ContentReplica
