import ContentReplica.Proofs.Replication.Coherence
import ContentReplica.Proofs.Schema.Setup
import ContentReplica.Proofs.Space

/-!
# The locales of a query

The table of locales tells a query where to look for a value: in the requested locale, in the one that
it falls back to, and in the default locale (`Mapping.contextOf`). A namespace that was set up for
a valid space answers so for each locale of the space (`Namespace.HasLocales.localeContext?_eq`).
-/

namespace ContentReplica

/-! ## The table of locales -/

/-- The fallback that the row of a locale names: none for the default locale. -/
def Space.fallbackCell (s : Space) (l : Locale) : Option String :=
  if l.isDefault then none else (s.fallbackOf l.code).toOption

/-- The row of a locale in the table of locales. -/
def Space.localeRow (s : Space) (l : Locale) : Row :=
  Row.ofCells Schema.localeColumns
    [.text l.code, .ofText? (s.fallbackCell l), .bool l.isDefault]

/-- The values that are written for a locale are those of its row. -/
theorem Schema.localeRow_eq_ok {space : Space} {l : Locale} {values : List Value}
    (h : Schema.localeRow space l = .ok values) :
    values = [.text l.code, .ofText? (space.fallbackCell l), .bool l.isDefault] := by
  unfold Schema.localeRow at h
  unfold Space.fallbackCell
  by_cases hdefault : l.isDefault = true
  · rw [if_pos hdefault] at h ⊢
    exact (pure_eq_ok.1 h).symm
  · rw [if_neg hdefault] at h ⊢
    obtain ⟨fallback, hfallback, h⟩ := bind_eq_ok.1 h
    obtain ⟨code, hcode, rfl⟩ := map_eq_ok.1 hfallback
    rw [hcode]
    exact (pure_eq_ok.1 h).symm

/-- The rows of locales with codes of their own are added to the table of locales as they are. -/
theorem Schema.get?_upsert_locales {space : Space} :
    ∀ {locales : List Locale} {rows : List (List Value)} {t t' : Table},
      t.columns = localeColumns → (locales.map Locale.code).Nodup →
      (∀ l ∈ locales, t.rows.get? l.code = none) →
      locales.mapM (Schema.localeRow space) = .ok rows →
      rows.foldlM (Table.upsertRow localeColumns) t = .ok t' →
      ∀ key row, t'.rows.get? key = some row ↔
        t.rows.get? key = some row ∨ ∃ l ∈ locales, l.code = key ∧ row = space.localeRow l := by
  intro locales
  induction locales with
  | nil =>
    intro rows t t' _ _ _ hrows hrun key row
    obtain rfl := pure_eq_ok.1 hrows
    obtain rfl := pure_eq_ok.1 hrun
    simp
  | cons l locales ih =>
    intro rows t t' ht hnodup hnew hrows hrun key row
    rw [List.map_cons, List.nodup_cons] at hnodup
    obtain ⟨hcode, hnew⟩ := List.forall_mem_cons.1 hnew
    rw [List.mapM_cons] at hrows
    obtain ⟨values, hvalues, hrows⟩ := bind_eq_ok.1 hrows
    obtain ⟨rest, hrest, hrows⟩ := bind_eq_ok.1 hrows
    obtain rfl := pure_eq_ok.1 hrows
    obtain rfl := localeRow_eq_ok hvalues
    obtain ⟨t₁, hfirst, ht₁, hinsert⟩ :=
      upsertRow_locale ht l.code (.ofText? (space.fallbackCell l)) l.isDefault
    obtain ⟨t₂, hfirst', hrun⟩ := bind_eq_ok.1 hrun
    obtain rfl := Except.ok.inj (hfirst.symm.trans hfirst')
    -- No code comes twice, so the rows that follow leave this one as it is.
    have hother : ∀ code ≠ l.code, t₁.rows.get? code = t.rows.get? code := fun code hne => by
      rw [hinsert hcode, SortedMap.get?_insert_of_ne _ _ hne]
    have hnew₁ : ∀ l' ∈ locales, t₁.rows.get? l'.code = none := fun l' hl' => by
      have hne : l'.code ≠ l.code := fun he => hnodup.1 (he ▸ List.mem_map_of_mem hl')
      rw [hother l'.code hne, hnew l' hl']
    rw [ih ht₁ hnodup.2 hnew₁ hrest hrun]
    by_cases hkey : key = l.code
    · subst hkey
      rw [hinsert hcode, SortedMap.get?_insert_self, hcode, Option.some.injEq]
      have hothers : ¬ ∃ l' ∈ locales, l'.code = l.code ∧ row = space.localeRow l' :=
        fun ⟨l', hl', he, _⟩ => hnodup.1 (he ▸ List.mem_map_of_mem hl')
      simp only [hothers, or_false, List.mem_cons, exists_eq_or_imp, true_and, reduceCtorEq,
        false_or]
      exact eq_comm
    · rw [hother key hkey]
      simp [Ne.symm hkey]

/-- The table of the locales of a valid space has the row of each under its code. -/
theorem Namespace.HasLocales.get?_iff {n : Namespace} {space : Space} (h : n.HasLocales space)
    (hcodes : space.localeCodes.Nodup) :
    ∃ t, n.tables.get? localesTable = some t ∧ ∀ row, row ∈ t.rows.values ↔
      ∃ l ∈ space.locales, row = space.localeRow l := by
  obtain ⟨rows, t, hrows, hrun, ht⟩ := h
  refine ⟨t, ht, fun row => ?_⟩
  have hget := Schema.get?_upsert_locales rfl hcodes (fun _ _ => rfl) hrows hrun
  rw [SortedMap.mem_values]
  constructor
  · rintro ⟨key, hkey⟩
    rcases (hget key row).1 hkey with hkey | ⟨l, hl, -, hrow⟩
    · cases hkey
    · exact ⟨l, hl, hrow⟩
  · rintro ⟨l, hl, rfl⟩
    exact ⟨l.code, (hget _ _).2 (.inr ⟨l, hl, rfl, rfl⟩)⟩

/-- What stands beside the content stays where only content changes. -/
theorem Namespace.HasLocales.of_beside {n origin : Namespace} {space : Space}
    (h : origin.HasLocales space) (hn : n.Beside origin) : n.HasLocales space := by
  obtain ⟨rows, t, hrows, hrun, ht⟩ := h
  exact ⟨rows, t, hrows, hrun, hn.locales.trans ht⟩

/-! ## Where values are looked up -/

/-- The locales in which the values for a requested locale are looked up. -/
def Mapping.contextOf (m : Mapping) (locale : String) : LocaleContext where
  requested := locale
  fallback :=
    if locale = m.default then m.default else (m.space.fallbackOf locale).toOption.getD m.default
  default := m.default

/-- In a valid space two locales with one code are the same, and only one is the default. -/
theorem Space.default_iff {s : Space} (h : s.validate = .ok ()) {d : Locale}
    (hd : s.defaultLocale = .ok d) :
    d ∈ s.locales ∧ d.isDefault = true ∧ ∀ l ∈ s.locales, (l.isDefault = true ↔ l.code = d.code) := by
  have hone := (validate_eq_ok.1 h).1
  obtain ⟨hmem, hdefault⟩ := (defaultLocale_eq_ok hone).1 hd
  refine ⟨hmem, hdefault, fun l hl => ⟨fun hl' => ?_, fun he => ?_⟩⟩
  · rw [eq_of_isDefault hone hl hmem hl' hdefault]
  · rwa [List.inj_on_of_nodup_map (nodup_localeCodes h) hl hmem he]

/-- The row of the one locale that passes a test is found in the table of locales. -/
theorem Space.find?_localeRow {s : Space} {t : Table}
    (hrows : ∀ row, row ∈ t.rows.values ↔ ∃ l ∈ s.locales, row = s.localeRow l) {p : Row → Bool}
    {l : Locale} (hl : l ∈ s.locales) (hp : p (s.localeRow l) = true)
    (hunique : ∀ l' ∈ s.locales, p (s.localeRow l') = true → l' = l) :
    t.rows.values.find? p = some (s.localeRow l) := by
  refine find?_eq_some_of_unique ((hrows _).2 ⟨l, hl, rfl⟩) hp fun row hrow hprow => ?_
  obtain ⟨l', hl', rfl⟩ := (hrows row).1 hrow
  rw [hunique l' hl' hprow]

/-- The row of a locale names its code. -/
theorem Space.code_localeRow (s : Space) (l : Locale) :
    (s.localeRow l).text? Column.code = some l.code := rfl

/-- The row of a locale says whether it is the default locale. -/
theorem Space.isDefault_localeRow (s : Space) (l : Locale) :
    (s.localeRow l).get? Column.isDefault = some (.bool l.isDefault) := rfl

/-- The row of a locale names its fallback, if it has one. -/
theorem Space.fallbackCode_localeRow (s : Space) (l : Locale) :
    (s.localeRow l).text? Column.fallbackCode = s.fallbackCell l := by
  have hcell : (s.localeRow l).text? Column.fallbackCode
      = (Value.ofText? (s.fallbackCell l)).asText? := rfl
  rw [hcell]
  cases s.fallbackCell l <;> rfl

/-- A query for a locale of the space looks values up where `Mapping.contextOf` says. -/
theorem Namespace.HasLocales.localeContext?_eq {n : Namespace} {m : Mapping}
    (h : n.HasLocales m.space) (hspace : m.space.validate = .ok ()) {d : Locale}
    (hd : m.space.defaultLocale = .ok d) (hdefault : m.default = d.code) {plan : Plan}
    (hplan : plan.locales.name = localesTable) {locale : String}
    (hlocale : locale ∈ m.space.localeCodes) :
    n.localeContext? plan locale = .ok (some (m.contextOf locale)) := by
  have hcodes := Space.nodup_localeCodes hspace
  obtain ⟨t, ht, hrows⟩ := h.get?_iff hcodes
  obtain ⟨hdMem, hdIs, hdIff⟩ := Space.default_iff hspace hd
  obtain ⟨l, hl, rfl⟩ := List.mem_map.1 hlocale
  have htable : n.table plan.locales.name = .ok t := by
    unfold Namespace.table
    rw [hplan, ht]
  have hrequested : t.rows.values.find? (fun r => r.text? Column.code == some l.code)
      = some (m.space.localeRow l) := by
    refine Space.find?_localeRow hrows hl ?_ fun l' hl' hp => ?_
    · rw [Space.code_localeRow, beq_self_eq_true]
    · rw [Space.code_localeRow, beq_iff_eq, Option.some.injEq] at hp
      exact List.inj_on_of_nodup_map hcodes hl' hl hp
  have hdefaultRow (p : Row → Bool) (hp : ∀ l, p (m.space.localeRow l) = l.isDefault) :
      t.rows.values.find? p = some (m.space.localeRow d) := by
    refine Space.find?_localeRow hrows hdMem ((hp d).trans hdIs) fun l' hl' hpl => ?_
    exact List.inj_on_of_nodup_map hcodes hl' hdMem ((hdIff l' hl').1 ((hp l').symm.trans hpl))
  have hfallback : (m.space.fallbackCell l).getD d.code = (m.contextOf l.code).fallback := by
    unfold Space.fallbackCell Mapping.contextOf
    dsimp only
    rw [hdefault]
    by_cases hlDefault : l.isDefault = true
    · rw [if_pos hlDefault, if_pos ((hdIff l hl).1 hlDefault)]
      rfl
    · rw [if_neg hlDefault, if_neg fun he => hlDefault ((hdIff l hl).2 he)]
  unfold Namespace.localeContext?
  rw [htable]
  dsimp only [bind, Except.bind, pure, Except.pure]
  rw [hrequested, hdefaultRow _ fun l => ?_]
  · dsimp only [Option.bind]
    rw [Space.code_localeRow]
    dsimp only
    rw [Space.fallbackCode_localeRow, hfallback]
    unfold Mapping.contextOf
    rw [hdefault]
  · rw [Space.isDefault_localeRow]
    cases l.isDefault <;> rfl

end ContentReplica
