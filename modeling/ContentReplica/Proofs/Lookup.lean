import ContentReplica.SortedMap

/-!
# Looking up in maps

What every operation on a map does to a look-up, with equality of keys in place of their order, and
the keys and values of a map told by its look-ups (`mem_keys`, `mem_values`).
-/

namespace ContentReplica.SortedMap

variable {κ α β : Type} [Ord κ]

/-- A key is present when its look-up gives something. -/
theorem contains_eq_true {m : SortedMap κ α} {k : κ} :
    m.contains k = true ↔ ∃ v, m.get? k = some v :=
  Option.isSome_iff_exists

/-- A key is absent when its look-up gives nothing. -/
theorem contains_eq_false {m : SortedMap κ α} {k : κ} :
    m.contains k = false ↔ m.get? k = none :=
  Option.isSome_eq_false_iff.trans Option.isNone_iff_eq_none

variable [Std.LawfulEqOrd κ]

/-- A filter keeps the look-ups that pass the test. -/
theorem get?_filter (m : SortedMap κ α) (p : κ → α → Bool) (k : κ) :
    (m.filter p).get? k = (m.get? k).filter (p k) := by
  refine Option.ext fun v => ?_
  rw [← mem_entries_iff (m.filter p) (k, v), Option.filter_eq_some_iff, ← mem_entries_iff m (k, v)]
  exact List.mem_filter

/-- What a filter keeps was there and passes the test. -/
theorem get?_filter_eq_some {m : SortedMap κ α} {p : κ → α → Bool} {k : κ} {v : α} :
    (m.filter p).get? k = some v ↔ m.get? k = some v ∧ p k v = true := by
  rw [get?_filter, Option.filter_eq_some_iff]

/-- Changing the values changes every look-up alike. -/
theorem get?_mapValues (m : SortedMap κ α) (f : κ → α → β) (k : κ) :
    (m.mapValues f).get? k = (m.get? k).map (f k) := by
  refine Option.ext fun v => ?_
  rw [← mem_entries_iff (m.mapValues f) (k, v), Option.map_eq_some_iff]
  constructor
  · intro h
    obtain ⟨⟨k', w⟩, hw, he⟩ := List.mem_map.1 h
    obtain ⟨rfl, rfl⟩ := Prod.mk.injEq .. ▸ he
    exact ⟨w, (mem_entries_iff m _).1 hw, rfl⟩
  · rintro ⟨w, hw, rfl⟩
    exact List.mem_map.2 ⟨(k, w), (mem_entries_iff m (k, w)).2 hw, rfl⟩

/-- The values of a map are what its look-ups give. -/
theorem mem_values {m : SortedMap κ α} {v : α} : v ∈ m.values ↔ ∃ k, m.get? k = some v := by
  constructor
  · intro h
    obtain ⟨e, he, rfl⟩ := List.mem_map.1 h
    exact ⟨e.1, (mem_entries_iff m e).1 he⟩
  · rintro ⟨k, hk⟩
    exact List.mem_map.2 ⟨(k, v), (mem_entries_iff m (k, v)).2 hk, rfl⟩

/-- The keys of a map are those whose look-up gives something. -/
theorem mem_keys {m : SortedMap κ α} {k : κ} : k ∈ m.keys ↔ ∃ v, m.get? k = some v := by
  constructor
  · intro h
    obtain ⟨e, he, rfl⟩ := List.mem_map.1 h
    exact ⟨e.2, (mem_entries_iff m e).1 he⟩
  · rintro ⟨v, hv⟩
    exact List.mem_map.2 ⟨(k, v), (mem_entries_iff m (k, v)).2 hv, rfl⟩

/-- No key occurs twice. -/
theorem nodup_keys (m : SortedMap κ α) : m.keys.Nodup := by
  refine List.pairwise_map.2 (m.sorted.imp fun {a b} hlt he => ?_)
  rw [he, show compare b.1 b.1 = .eq from Std.ReflCmp.compare_self] at hlt
  cases hlt

variable [Std.TransOrd κ]

/-- The key that was inserted last has the inserted value. -/
@[simp] theorem get?_insert_self (m : SortedMap κ α) (k : κ) (v : α) :
    (m.insert k v).get? k = some v := by
  rw [get?_insert, if_pos Std.ReflCmp.compare_self]

/-- An insertion leaves the other keys alone. -/
theorem get?_insert_of_ne (m : SortedMap κ α) {k k' : κ} (v : α) (h : k' ≠ k) :
    (m.insert k v).get? k' = m.get? k' := by
  rw [get?_insert, if_neg fun hc => h (Std.LawfulEqCmp.eq_of_compare hc)]

/-- A look-up after an insertion. -/
theorem get?_insert_eq [DecidableEq κ] (m : SortedMap κ α) (k k' : κ) (v : α) :
    (m.insert k v).get? k' = if k' = k then some v else m.get? k' := by
  by_cases h : k' = k
  · rw [if_pos h, h, get?_insert_self]
  · rw [if_neg h, get?_insert_of_ne m v h]

/-- Of two insertions under one key the later counts. -/
@[simp] theorem insert_insert (m : SortedMap κ α) (k : κ) (v w : α) :
    (m.insert k v).insert k w = m.insert k w := by
  refine ext_get? fun k' => ?_
  by_cases hk : k' = k
  · rw [hk, get?_insert_self, get?_insert_self]
  · rw [get?_insert_of_ne _ _ hk, get?_insert_of_ne _ _ hk, get?_insert_of_ne _ _ hk]

/-- An erased key is gone. -/
@[simp] theorem get?_erase_self (m : SortedMap κ α) (k : κ) : (m.erase k).get? k = none := by
  rw [get?_erase, if_pos Std.ReflCmp.compare_self]

/-- Erasing leaves the other keys alone. -/
theorem get?_erase_of_ne (m : SortedMap κ α) {k k' : κ} (h : k' ≠ k) :
    (m.erase k).get? k' = m.get? k' := by
  rw [get?_erase, if_neg fun hc => h (Std.LawfulEqCmp.eq_of_compare hc)]

/-- Inserting what is there already changes nothing. -/
theorem insert_of_get? {m : SortedMap κ α} {k : κ} {v : α} (h : m.get? k = some v) :
    m.insert k v = m := by
  refine ext_get? fun k' => ?_
  by_cases hk : k' = k
  · rw [hk, get?_insert_self, h]
  · exact get?_insert_of_ne m v hk

end ContentReplica.SortedMap
