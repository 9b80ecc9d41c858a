import ContentReplica.Proofs.Outcome
import ContentReplica.Replication.Conversion

/-!
# Payloads and the types of their columns

`Value.Conforms type v` tells the values of a column type. A payload that converts leaves such a value
behind, or NULL if it is null (`Value.conforms_ofPayload`), and a value of a type is what its own JSON
form converts to (`Value.Conforms.ofPayload_toJson`). So what a query shows of a column converts back to
what is stored there, however deep its arrays are nested (`Value.ofPayload_stable`).

NULL is a value of no type: it may stand for every value and for every element of an array.
-/

namespace ContentReplica

/-! ## Bounds -/

/-- The bounds of a signed 32-bit integer. -/
theorem isInt32_iff {n : Int} : isInt32 n = true ↔ -2147483648 ≤ n ∧ n ≤ 2147483647 := by
  simp only [isInt32, Bool.and_eq_true, decide_eq_true_eq]

/-- The bounds of a signed 64-bit integer. -/
theorem isInt64_iff {n : Int} :
    isInt64 n = true ↔ -9223372036854775808 ≤ n ∧ n ≤ 9223372036854775807 := by
  simp only [isInt64, Bool.and_eq_true, decide_eq_true_eq]

/-- An integer payload is a number within the bounds of 64 bits. -/
theorem Json.int64?_eq_some {p : Json} {n : Int} :
    p.int64? = some n ↔ p = .int n ∧ -9223372036854775808 ≤ n ∧ n ≤ 9223372036854775807 := by
  rw [← isInt64_iff]
  unfold Json.int64? Json.int? Json.int
  split
  · next i =>
    split
    · next hi =>
      constructor
      · intro h
        obtain rfl := Option.some.inj h
        exact ⟨rfl, hi⟩
      · rintro ⟨h, -⟩
        cases h
        rfl
    · next hi =>
      refine ⟨nofun, ?_⟩
      rintro ⟨h, hn⟩
      cases h
      exact absurd hn hi
  · next hno => exact ⟨nofun, fun h => absurd h.1 (hno n)⟩

namespace Value

/-! ## Values of a type -/

/-- A value of a column type. Decimals keep integers of 64 bits apart from other numbers, and the
elements of an array may be NULL. -/
inductive Conforms : SqlType → Value → Prop
  | text (s : String) : Conforms .text (.text s)
  | date (s : String) : Conforms .date (.text s)
  | integer {n : Int} (hlow : -2147483648 ≤ n) (hhigh : n ≤ 2147483647) : Conforms .integer (.int n)
  | decimalInt {n : Int} (hlow : -9223372036854775808 ≤ n) (hhigh : n ≤ 9223372036854775807) :
      Conforms .decimal (.int n)
  | decimalFloat (x : Double) : Conforms .decimal (.float x)
  | boolean (b : Bool) : Conforms .boolean (.bool b)
  | point (lon lat : Double) : Conforms .point (.point lon lat)
  | jsonb {j : Json} (hnull : j.isNull = false) : Conforms .jsonb (.json j)
  | array {element : SqlType} {items : List Value}
      (hitems : ∀ v ∈ items, v ≠ .null → Conforms element v) : Conforms (.array element) (.array items)

variable {lenient : Bool} {type element : SqlType} {p : Json} {v : Value}

/-- NULL is a value of no type. -/
theorem Conforms.isNull (h : Conforms type v) : v.isNull = false := by
  cases h <;> rfl

/-- The point of a payload is a point. -/
theorem pointOf?_eq_some (h : pointOf? p = some v) : ∃ lon lat, v = .point lon lat := by
  obtain ⟨lat, -, h⟩ := Option.bind_eq_some_iff.1 h
  obtain ⟨lon, -, h⟩ := Option.bind_eq_some_iff.1 h
  exact ⟨lon, lat, (Option.some.inj h).symm⟩

/-! ## What a payload converts to -/

/-- A null payload becomes NULL. -/
theorem ofPayload_null : ofPayload lenient type .null = .ok .null := by
  cases type <;> rfl

/-- An array payload becomes the array of its items. -/
theorem ofPayload_arr (items : List Json) : ofPayload lenient (.array element) (.arr items)
    = .array <$> items.mapM (ofPayload lenient element) := by
  rw [ofPayload]

/-- A payload that is not null converts as a scalar, unless it is an array for an array column. -/
theorem ofPayload_of_scalar (hnull : p.isNull = false)
    (harray : ∀ element items, ¬ (type = .array element ∧ p = .arr items)) :
    ofPayload lenient type p = scalarOfPayload lenient type p := by
  unfold ofPayload
  split
  · cases hnull
  · exact absurd ⟨rfl, rfl⟩ (harray _ _)
  · rfl

/-- A scalar that converts becomes a value of the column type. -/
theorem conforms_scalarOfPayload (hnull : p.isNull = false)
    (h : scalarOfPayload lenient type p = .ok v) : Conforms type v := by
  cases type with
  | text =>
    cases p with
    | str s => cases h; exact .text s
    | _ => cases lenient <;> cases h; exact .text _
  | integer =>
    unfold scalarOfPayload at h
    cases hn : p.int64? with
    | none => simp only [hn] at h; cases h
    | some n =>
      simp only [hn] at h
      split at h
      · next hbounds =>
        cases h
        obtain ⟨hlow, hhigh⟩ := isInt32_iff.1 hbounds
        exact .integer hlow hhigh
      · cases h
  | decimal =>
    cases p with
    | num n =>
      unfold scalarOfPayload at h
      cases hn : (Json.num n).int64? with
      | none => simp only [hn] at h; cases h; exact .decimalFloat _
      | some i =>
        simp only [hn] at h
        cases h
        obtain ⟨-, hlow, hhigh⟩ := Json.int64?_eq_some.1 hn
        exact .decimalInt hlow hhigh
    | _ => cases h
  | date =>
    cases p with
    | str s => cases h; exact .date s
    | _ => cases h
  | boolean =>
    cases p with
    | bool b => cases h; exact .boolean b
    | _ => cases h
  | point =>
    unfold scalarOfPayload at h
    cases hp : pointOf? p with
    | none => simp only [hp] at h; cases h
    | some q =>
      simp only [hp] at h
      obtain ⟨lon, lat, rfl⟩ := pointOf?_eq_some hp
      cases h
      exact .point lon lat
  | jsonb => cases h; exact .jsonb hnull
  | array element => cases h

/-- A payload that converts becomes NULL if it is null, and else a value of the column type. -/
theorem conforms_ofPayload (h : ofPayload lenient type p = .ok v) :
    if p.isNull then v = .null else Conforms type v := by
  induction type generalizing p v with
  | array element ih =>
    cases p with
    | null => rw [ofPayload_null] at h; cases h; rfl
    | arr items =>
      rw [ofPayload_arr] at h
      obtain ⟨values, hvalues, rfl⟩ := map_eq_ok.1 h
      refine .array fun v hv hne => ?_
      obtain ⟨item, -, hitem⟩ := exists_of_mapM hvalues hv
      have hconforms := ih hitem
      split at hconforms
      · exact absurd hconforms hne
      · exact hconforms
    | _ => cases h
  | _ =>
    cases hnull : p.isNull with
    | true =>
      cases p with
      | null => rw [ofPayload_null] at h; cases h; rfl
      | _ => cases hnull
    | false =>
      rw [ofPayload_of_scalar hnull (by simp)] at h
      exact conforms_scalarOfPayload hnull h

/-- What a payload converts to is NULL or a value of the column type. -/
theorem null_or_conforms (h : ofPayload lenient type p = .ok v) : v = .null ∨ Conforms type v := by
  have hconforms := conforms_ofPayload h
  split at hconforms
  · exact .inl hconforms
  · exact .inr hconforms

/-- A payload becomes NULL only if it is null. -/
theorem isNull_ofPayload (h : ofPayload lenient type p = .ok v) : v.isNull = p.isNull := by
  have hconforms := conforms_ofPayload h
  cases hnull : p.isNull with
  | true => rw [hnull, if_pos rfl] at hconforms; rw [hconforms]; rfl
  | false => rw [hnull] at hconforms; exact Conforms.isNull hconforms

/-! ## Values as payloads -/

/-- The items of an array are shown one by one. -/
theorem toJsonList_eq (items : List Value) : toJsonList items = items.map toJson := by
  induction items with
  | nil => rfl
  | cons v items ih => rw [toJsonList, ih, List.map_cons]

/-- A value of a column type is what its JSON form converts to. -/
theorem Conforms.ofPayload_toJson (h : Conforms type v) (lenient : Bool) :
    ofPayload lenient type v.toJson = .ok v := by
  induction h with
  | text | date | decimalFloat | boolean | point => rfl
  | @integer n hlow hhigh =>
    have hn : (Json.int n).int64? = some n :=
      Json.int64?_eq_some.2 ⟨rfl, by omega, by omega⟩
    rw [toJson, ofPayload_of_scalar rfl (by simp), scalarOfPayload, hn]
    simp [isInt32_iff.2 ⟨hlow, hhigh⟩]
  | @decimalInt n hlow hhigh =>
    have hn : (Json.num (.int n)).int64? = some n := Json.int64?_eq_some.2 ⟨rfl, hlow, hhigh⟩
    rw [toJson, ofPayload_of_scalar rfl (by simp), Json.int, scalarOfPayload, hn]
  | @jsonb j hnull => rw [toJson, ofPayload_of_scalar hnull (by simp), scalarOfPayload]
  | @array element items _ ih =>
    have hitems : (items.map toJson).mapM (ofPayload lenient element) = .ok items := by
      refine mapM_eq_ok.2 (List.forall₂_map_left_iff.2 (List.forall₂_same.2 fun v hv => ?_))
      by_cases hnull : v = .null
      · rw [hnull]
        exact ofPayload_null
      · exact ih v hv hnull
    rw [toJson, toJsonList_eq, ofPayload_arr, hitems]
    rfl

/-- For every payload that converts, whatever the column type and the nesting of its arrays: it becomes
NULL or a value of the type, NULL only if it is null, and the JSON form of what it becomes converts to
the same value again. -/
theorem ofPayload_stable {lenient : Bool} {type : SqlType} {p : Json} {v : Value}
    (h : ofPayload lenient type p = .ok v) :
    (v = .null ∨ Conforms type v) ∧ (v.isNull = true ↔ p.isNull = true) ∧
      ofPayload lenient type v.toJson = .ok v := by
  refine ⟨null_or_conforms h, by rw [isNull_ofPayload h], ?_⟩
  rcases null_or_conforms h with rfl | hconforms
  · exact ofPayload_null
  · exact hconforms.ofPayload_toJson lenient

/-- Nested decimals: an integer, one beyond 64 bits, which becomes a number, a number and nulls. -/
theorem ofPayload_stable_nested : ∃ v,
    ofPayload false (.array (.array .decimal))
        (.arr [.arr [.int 7, .int 18446744073709551615, .null], .null]) = .ok v ∧
      Conforms (.array (.array .decimal)) v ∧
      ofPayload false (.array (.array .decimal)) v.toJson = .ok v := by
  obtain ⟨v, hv⟩ := exists_of_isOk (show (ofPayload false (.array (.array .decimal))
    (.arr [.arr [.int 7, .int 18446744073709551615, .null], .null])).isOk = true by decide +kernel)
  obtain ⟨hconforms, hnull, hback⟩ := ofPayload_stable hv
  refine ⟨v, hv, hconforms.resolve_left fun he => ?_, hback⟩
  cases hnull.1 (by rw [he]; rfl)

end Value

end ContentReplica
