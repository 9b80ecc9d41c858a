import ContentReplica.Proofs.Schema.Fields

/-!
# What a compilation keeps

The content types that get a table have tables of their own (`Schema.nodup_sift`), and none has that
of assets. So the table of a content type is found by its identity (`Schema.Compiled.table?_eq_some`),
whether all content types were compiled or those of one identity.

Each content type is laid out or recorded, and which of the two depends on those before it alone
(`Schema.compile_settles`). Those that were recorded change nothing for the others
(`Schema.exists_kept`).
-/

namespace ContentReplica.Schema

/-! ## Sifting content types -/

section
variable {c : ContentType} {types : List ContentType} {taken : List Ident}

/-- A content type that does not pass its check is recorded. -/
theorem sift_cons_of_fault {fault : TypeFault} (hcheck : checkType c = .error fault) :
    sift taken (c :: types) = ((sift taken types).1, ⟨c.id, fault⟩ :: (sift taken types).2) := by
  rw [sift, hcheck]

/-- A content type whose table is taken is recorded. -/
theorem sift_cons_of_taken (hcheck : checkType c = .ok ()) (htaken : Naming.table c.id ∈ taken) :
    sift taken (c :: types) = ((sift taken types).1,
      ⟨c.id, .tableTaken (Naming.table c.id).text⟩ :: (sift taken types).2) := by
  rw [sift, hcheck]
  exact if_pos (List.contains_iff_mem.2 htaken)

/-- Any other content type gets its table. -/
theorem sift_cons_of_free (hcheck : checkType c = .ok ()) (hfree : Naming.table c.id ∉ taken) :
    sift taken (c :: types) = (c :: (sift (Naming.table c.id :: taken) types).1,
      (sift (Naming.table c.id :: taken) types).2) := by
  rw [sift, hcheck]
  exact if_neg fun hcontains => hfree (List.contains_iff_mem.1 hcontains)

end

/-- The content types that get a table have different tables, none of which was taken before. -/
theorem nodup_sift :
    ∀ {types : List ContentType} {taken : List Ident},
      ((sift taken types).1.map fun c => Naming.table c.id).Nodup ∧
        ∀ c ∈ (sift taken types).1, Naming.table c.id ∉ taken := by
  intro types
  induction types with
  | nil => exact ⟨.nil, fun _ hc => absurd hc List.not_mem_nil⟩
  | cons c types ih =>
    intro taken
    unfold sift
    split
    · exact ih
    · dsimp only
      split
      · exact ih
      · next hfree =>
        obtain ⟨hnodup, hrest⟩ := @ih (Naming.table c.id :: taken)
        have hnew : Naming.table c.id ∉ taken := fun hm => hfree (List.contains_iff_mem.2 hm)
        refine ⟨List.nodup_cons.2 ⟨fun hm => ?_, hnodup⟩, List.forall_mem_cons.2 ⟨hnew, fun d hd hm =>
          hrest d hd (List.mem_cons_of_mem _ hm)⟩⟩
        obtain ⟨d, hd, he⟩ := List.mem_map.1 hm
        have hnone := hrest d hd
        rw [he] at hnone
        exact hnone (List.mem_cons_self ..)

/-- It matters which tables were taken, and not in what order. -/
theorem sift_congr :
    ∀ {types : List ContentType} {taken taken' : List Ident},
      (∀ table, table ∈ taken ↔ table ∈ taken') → sift taken types = sift taken' types := by
  intro types
  induction types with
  | nil => exact fun _ => rfl
  | cons c types ih =>
    intro taken taken' h
    have hcontains : taken.contains (Naming.table c.id) = taken'.contains (Naming.table c.id) := by
      rw [Bool.eq_iff_iff, List.contains_iff_mem, List.contains_iff_mem, h]
    have hkept := @ih (Naming.table c.id :: taken) (Naming.table c.id :: taken') fun table => by
      rw [List.mem_cons, List.mem_cons, h]
    unfold sift
    dsimp only
    rw [ih h, hcontains, hkept]

/-- Content types that come after others see the tables that these get. -/
theorem sift_append :
    ∀ (before after : List ContentType) (taken : List Ident), sift taken (before ++ after) =
      let first := sift taken before
      let rest := sift ((first.1.map fun c => Naming.table c.id) ++ taken) after
      (first.1 ++ rest.1, first.2 ++ rest.2) := by
  intro before
  induction before with
  | nil => exact fun _ _ => rfl
  | cons c before ih =>
    intro after taken
    rw [List.cons_append]
    cases hcheck : checkType c with
    | error fault =>
      rw [sift_cons_of_fault hcheck, sift_cons_of_fault hcheck, ih]
      rfl
    | ok _ =>
      by_cases htaken : Naming.table c.id ∈ taken
      · rw [sift_cons_of_taken hcheck htaken, sift_cons_of_taken hcheck htaken, ih]
        rfl
      · let kept := (sift (Naming.table c.id :: taken) before).1
        have hrest : sift (kept.map (fun c => Naming.table c.id) ++ Naming.table c.id :: taken) after
            = sift (((c :: kept).map fun c => Naming.table c.id) ++ taken) after :=
          sift_congr fun table => by simp [or_left_comm]
        rw [sift_cons_of_free hcheck htaken, sift_cons_of_free hcheck htaken, ih]
        dsimp only
        rw [hrest]
        rfl

/-- Without the content types that get no table the others get the same tables. -/
theorem sift_sift :
    ∀ {types : List ContentType} {taken : List Ident},
      sift taken (sift taken types).1 = ((sift taken types).1, []) := by
  intro types
  induction types with
  | nil => exact rfl
  | cons c types ih =>
    intro taken
    cases hcheck : checkType c with
    | error fault =>
      rw [sift_cons_of_fault hcheck]
      exact ih
    | ok _ =>
      by_cases htaken : Naming.table c.id ∈ taken
      · rw [sift_cons_of_taken hcheck htaken]
        exact ih
      · rw [sift_cons_of_free hcheck htaken, sift_cons_of_free hcheck htaken, ih]

/-- The content types that get a table keep their order. -/
theorem sift_sublist :
    ∀ {types : List ContentType} {taken : List Ident}, (sift taken types).1.Sublist types := by
  intro types
  induction types with
  | nil => exact .slnil
  | cons c types ih =>
    intro taken
    unfold sift
    split
    · exact ih.cons _
    · dsimp only
      split
      · exact ih.cons _
      · exact ih.cons_cons _

/-- The table of a content type that passed its check is not that of assets. -/
theorem table_ne_assets {c : ContentType} (h : checkType c = .ok ()) :
    Naming.table c.id ≠ Naming.assetsTable := by
  intro htable
  unfold checkType at h
  dsimp only at h
  rw [if_pos htable] at h
  split at h <;> cases h

/-- No content type that gets a table stands for assets. -/
theorem id_ne_assets {types : List ContentType} {taken : List Ident} {c : ContentType}
    (hc : c ∈ (sift taken types).1) : c.id ≠ Naming.assetsTable.text := by
  intro he
  have htable : Naming.table c.id = Naming.assetsTable := by
    rw [he]
    decide +kernel
  exact table_ne_assets (checkType_of_mem_sift hc) htable

/-! ## Compiled content types -/

/-- What becomes of a content type that comes after some others: it is recorded if it does not pass its
check or if one of the others got its table, and otherwise it is laid out. -/
def Settles (s : Schema) (others : Schema) (c : ContentType) : Prop :=
  match checkType c with
  | .error fault => ⟨c.id, fault⟩ ∈ s.failures
  | .ok () =>
    if Naming.table c.id ∈ others.tables.map TableLayout.name then
      ⟨c.id, .tableTaken (Naming.table c.id).text⟩ ∈ s.failures
    else layoutType s.contentTypes c ∈ s.tables

/-- The tables of a compilation have the names of the content types that got them. -/
theorem names_compile (types : List ContentType) :
    (compile types).tables.map TableLayout.name
      = (sift [] types).1.map fun c => Naming.table c.id := by
  unfold compile
  rw [List.map_map]
  rfl

/-- A compilation settles each content type after those before it. -/
theorem compile_settles (before after : List ContentType) (c : ContentType) :
    (compile (before ++ c :: after)).Settles (compile before) c := by
  have hids : (compile (before ++ c :: after)).contentTypes
      = (sift [] (before ++ c :: after)).1.map ContentType.id := by
    unfold compile contentTypes
    rw [List.map_map]
    rfl
  have hsift := sift_append before (c :: after) []
  dsimp only at hsift
  rw [List.append_nil] at hsift
  unfold Settles
  rw [names_compile, hids]
  unfold compile
  dsimp only
  rw [hsift]
  cases hcheck : checkType c with
  | error fault =>
    refine List.mem_append_right _ ?_
    rw [sift_cons_of_fault hcheck]
    exact List.mem_cons_self ..
  | ok _ =>
    dsimp only
    split
    · next htaken =>
      refine List.mem_append_right _ ?_
      rw [sift_cons_of_taken hcheck htaken]
      exact List.mem_cons_self ..
    · next hfree =>
      refine List.mem_map_of_mem (List.mem_append_right _ ?_)
      rw [sift_cons_of_free hcheck hfree]
      exact List.mem_cons_self ..

/-- Without the content types that were recorded the others get the same tables. -/
theorem exists_kept (types : List ContentType) :
    ∃ kept, kept.Sublist types ∧ compile kept = ⟨(compile types).tables, []⟩ := by
  refine ⟨(sift [] types).1, sift_sublist, ?_⟩
  unfold compile
  rw [sift_sift]

/-! ## Compiled tables -/

variable {s : Schema}

/-- The tables of a compiled schema are the layouts of some content types that passed the sift, laid
out with all of these in sight. -/
theorem Compiled.exists_sift (h : s.Compiled) :
    ∃ (types : List ContentType) (p : ContentType → Bool), s.tables =
      ((sift [] types).1.filter p).map (layoutType ((sift [] types).1.map ContentType.id)) := by
  cases h with
  | all types h =>
    refine ⟨types, fun _ => true, ?_⟩
    rw [h, List.filter_eq_self.2 fun _ _ => rfl]
    rfl
  | one types id h =>
    refine ⟨types, fun c => c.id = id, ?_⟩
    unfold compileOne? at h
    split at h
    · cases h
    · dsimp only at h
      split at h
      · cases h
      · cases h
        rfl

/-- Each table of a compiled schema is of a content type of its own. -/
theorem Compiled.nodup_contentTypes (h : s.Compiled) : s.contentTypes.Nodup := by
  obtain ⟨types, p, htables⟩ := h.exists_sift
  have hids : s.contentTypes = ((sift [] types).1.filter p).map ContentType.id := by
    rw [contentTypes, htables, List.map_map]
    rfl
  rw [hids]
  refine (List.Nodup.of_map Naming.table ?_).sublist (List.filter_sublist.map _)
  rw [List.map_map]
  exact nodup_sift.1

/-- No content type of a compiled schema stands for assets. -/
theorem Compiled.contentType_ne_assets (h : s.Compiled) :
    ∀ t ∈ s.tables, t.contentType ≠ Naming.assetsTable.text := by
  intro t ht
  obtain ⟨types, p, htables⟩ := h.exists_sift
  rw [htables] at ht
  obtain ⟨c, hc, rfl⟩ := List.mem_map.1 ht
  exact id_ne_assets (List.mem_of_mem_filter hc)

/-- The table of a content type is found by its identity. -/
theorem Compiled.entryTable?_eq_some (h : s.Compiled) {t : TableLayout} (ht : t ∈ s.tables) :
    s.entryTable? t.contentType = some t := by
  cases hfound : s.entryTable? t.contentType with
  | none => exact absurd (List.find?_eq_none.1 hfound t ht) (by simp)
  | some t' =>
    obtain ⟨ht', hid⟩ := Schema.entryTable?_eq_some hfound
    rw [List.inj_on_of_nodup_map h.nodup_contentTypes ht' ht hid]

/-- The table of a content type or of assets is found by its identity. -/
theorem Compiled.table?_eq_some (h : s.Compiled) {t : TableLayout} (ht : t ∈ s.allTables) :
    s.table? t.contentType = some t := by
  rcases List.mem_append.1 ht with ht | ht
  · rw [table?, if_neg (h.contentType_ne_assets t ht), h.entryTable?_eq_some ht]
  · rw [List.mem_singleton.1 ht]
    rfl

end ContentReplica.Schema
