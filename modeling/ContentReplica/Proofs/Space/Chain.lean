import ContentReplica.Catalog
import ContentReplica.Proofs.Space
import Mathlib.Data.List.Perm.Subperm

/-!
# Fallback chains

`Space.fallbackChain` looks at one locale after the other with a bound on their number. The search
without that bound is `Space.Ends`, a relation that also counts the locales that are looked at: in every
space, valid or not, it ends before the bound is met, since each locale that it goes on from has a code
that was not met before (`Space.ends_walk`).

What the search finds is told by the walk along the fallbacks alone (`Space.Reaches`): there is a chain
exactly when that walk comes to the default code without meeting a code twice
(`Space.fallbackChain_exact`).

A space that is not valid may have several locales that answer to a code, or several default ones. The
first of them is the one that counts, in each step of a walk.
-/

namespace ContentReplica

namespace Space

variable {s : Space} {default : String} {visited : List String} {l next d : Locale}

/-! ## Walks -/

/-- The locale that a locale leads to: the one that answers to its fallback, or the default locale if it
declares none. -/
inductive LeadsTo (s : Space) (l next : Locale) : Prop
  | declared {code : String} (hcode : l.fallback? = some code) (hfound : s.locale? code = some next)
  | undeclared (hnone : l.fallback? = none) (hfound : s.defaultLocale = .ok next)

/-- The walk from a locale to the first one that has the default code. -/
inductive Reaches (s : Space) (default : String) : Locale → List Locale → Prop
  | arrived {l : Locale} (hcode : l.code = default) : Reaches s default l [l]
  | onward {l next : Locale} {path : List Locale} (hcode : l.code ≠ default)
      (hnext : s.LeadsTo l next) (hrest : Reaches s default next path) :
      Reaches s default l (l :: path)

/-- How the search from a locale ends when it has met some codes, the latest first, and how many locales
it looks at. -/
inductive Ends (s : Space) (default : String) :
    List String → Locale → Nat → Except Error (List String) → Prop
  | repeated {visited : List String} {l : Locale} (hmet : l.code ∈ visited) :
      Ends s default visited l 1 (.error (.space (.fallbackCycle l.code)))
  | arrived {visited : List String} {l : Locale} (hnew : l.code ∉ visited) (hcode : l.code = default) :
      Ends s default visited l 1 (.ok (visited.reverse ++ [l.code]))
  | lost {visited : List String} {l : Locale} {code : String} (hnew : l.code ∉ visited)
      (hcode : l.code ≠ default) (hfallback : l.fallback? = some code)
      (hunknown : s.locale? code = none) :
      Ends s default visited l 1 (.error (.space (.unknownFallback code)))
  | onward {visited : List String} {l next : Locale} {steps : Nat} {result : Except Error (List String)}
      (hnew : l.code ∉ visited) (hcode : l.code ≠ default) (hnext : s.LeadsTo l next)
      (hrest : Ends s default (l.code :: visited) next steps result) :
      Ends s default visited l (steps + 1) result

/-- A locale leads to the one that it falls back to. -/
theorem leadsTo_iff : s.LeadsTo l next ↔ s.fallbackLocale l = .ok next := by
  unfold fallbackLocale
  constructor
  · intro h
    cases h with
    | declared hcode hfound => simp [hcode, hfound]
    | undeclared hnone hfound => simp [hnone, hfound]
  · intro h
    split at h
    · next code hcode =>
      split at h
      · next next' hfound =>
        obtain rfl := Except.ok.inj h
        exact .declared hcode hfound
      · cases h
    · next hnone => exact .undeclared hnone h

/-- A locale leads to one locale at most. -/
theorem LeadsTo.unique {next' : Locale} (h : s.LeadsTo l next) (h' : s.LeadsTo l next') :
    next = next' :=
  Except.ok.inj ((leadsTo_iff.1 h).symm.trans (leadsTo_iff.1 h'))

/-- A locale leads to a locale of the space. -/
theorem LeadsTo.mem (h : s.LeadsTo l next) : next.code ∈ s.localeCodes := by
  cases h with
  | declared _ hfound => exact List.mem_map_of_mem (List.mem_of_find?_eq_some hfound)
  | undeclared _ hfound => exact default_mem_localeCodes hfound

/-- Where there is a default locale, only an unknown fallback leads nowhere. -/
theorem fallbackLocale_cases (hd : s.defaultLocale = .ok d) (l : Locale) :
    (∃ next, s.LeadsTo l next) ∨ ∃ code, l.fallback? = some code ∧ s.locale? code = none := by
  cases hfallback : l.fallback? with
  | none => exact .inl ⟨d, .undeclared hfallback hd⟩
  | some code =>
    cases hfound : s.locale? code with
    | none => exact .inr ⟨code, rfl, hfound⟩
    | some next => exact .inl ⟨next, .declared hfallback hfound⟩

/-! ## The search -/

/-- The search ends in one way. -/
theorem Ends.unique {steps steps' : Nat} {result result' : Except Error (List String)}
    (h : s.Ends default visited l steps result) (h' : s.Ends default visited l steps' result') :
    result = result' := by
  induction h generalizing steps' with
  | repeated hmet =>
    cases h' with
    | repeated => rfl
    | arrived hnew | lost hnew | onward hnew => exact absurd hmet hnew
  | arrived hnew hcode =>
    cases h' with
    | repeated hmet => exact absurd hmet hnew
    | arrived => rfl
    | lost _ hcode' | onward _ hcode' => exact absurd hcode hcode'
  | lost hnew hcode hfallback hunknown =>
    cases h' with
    | repeated hmet => exact absurd hmet hnew
    | arrived _ hcode' => exact absurd hcode' hcode
    | lost _ _ hfallback' => rw [Option.some.inj (hfallback.symm.trans hfallback')]
    | onward _ _ hnext =>
      rw [leadsTo_iff, fallbackLocale, hfallback] at hnext
      simp [hunknown] at hnext
  | onward hnew hcode hnext _ ih =>
    cases h' with
    | repeated hmet => exact absurd hmet hnew
    | arrived _ hcode' => exact absurd hcode' hcode
    | lost _ _ hfallback hunknown =>
      rw [leadsTo_iff, fallbackLocale, hfallback] at hnext
      simp [hunknown] at hnext
    | onward _ _ hnext' hrest' =>
      obtain rfl := hnext.unique hnext'
      exact ih hrest'

/-- A search that fails has found a fault in the space. -/
theorem Ends.error {steps : Nat} {result : Except Error (List String)} {e : Error}
    (h : s.Ends default visited l steps result) (he : result = .error e) : ∃ fault, e = .space fault := by
  induction h with
  | repeated | lost => exact ⟨_, (Except.error.inj he).symm⟩
  | arrived => cases he
  | onward _ _ _ _ ih => exact ih he

/-- What a search finds are the codes of a walk that meets none of them twice. -/
theorem Ends.exists_reaches {steps : Nat} {result : Except Error (List String)} {chain : List String}
    (h : s.Ends default visited l steps result) (hchain : result = .ok chain) :
    ∃ path, s.Reaches default l path ∧ chain = visited.reverse ++ path.map Locale.code ∧
      (path.map Locale.code).Nodup ∧ ∀ code ∈ path.map Locale.code, code ∉ visited := by
  induction h with
  | repeated | lost => cases hchain
  | @arrived visited l hnew hcode =>
    exact ⟨[l], .arrived hcode, (Except.ok.inj hchain).symm, List.nodup_singleton _,
      List.forall_mem_singleton.2 hnew⟩
  | @onward visited l next steps result hnew hcode hnext _ ih =>
    obtain ⟨path, hreaches, hcodes, hnodup, hfresh⟩ := ih hchain
    refine ⟨l :: path, .onward hcode hnext hreaches, by simp [hcodes], ?_, ?_⟩
    · refine List.nodup_cons.2 ⟨fun hm => ?_, hnodup⟩
      exact hfresh _ hm (List.mem_cons_self ..)
    · intro code hm
      rcases List.mem_cons.1 hm with rfl | hm
      · exact hnew
      · exact fun hv => hfresh code hm (List.mem_cons_of_mem _ hv)

/-- The search finds a walk that meets no code twice. -/
theorem Reaches.ends {path : List Locale} (h : s.Reaches default l path)
    (hnodup : (path.map Locale.code).Nodup) (hfresh : ∀ code ∈ path.map Locale.code, code ∉ visited) :
    ∃ steps, s.Ends default visited l steps (.ok (visited.reverse ++ path.map Locale.code)) := by
  induction h generalizing visited with
  | arrived hcode => exact ⟨1, .arrived (hfresh _ (List.mem_cons_self ..)) hcode⟩
  | @onward l next path hcode hnext _ ih =>
    obtain ⟨hfirst, hrest⟩ := List.nodup_cons.1 hnodup
    obtain ⟨hnew, hlater⟩ := List.forall_mem_cons.1 hfresh
    have hmet : ∀ code ∈ path.map Locale.code, code ∉ l.code :: visited := by
      intro code hm hv
      rcases List.mem_cons.1 hv with rfl | hv
      · exact hfirst hm
      · exact hlater code hm hv
    obtain ⟨steps, hends⟩ := ih hrest hmet
    refine ⟨steps + 1, .onward hnew hcode hnext ?_⟩
    simpa using hends

/-- A walk begins where it starts and comes to the default code at its end only. -/
theorem Reaches.exists_front {path : List Locale} (h : s.Reaches default l path) :
    ∃ front, path.map Locale.code = front ++ [default] ∧ default ∉ front := by
  induction h with
  | arrived hcode => exact ⟨[], by simp [hcode], List.not_mem_nil⟩
  | @onward l next path hcode _ _ ih =>
    obtain ⟨front, hpath, hfront⟩ := ih
    exact ⟨l.code :: front, by simp [hpath], by simp [hfront, Ne.symm hcode]⟩

/-! ## The bound -/

/-- The bounded search ends like the one without a bound: the codes that it has met are different codes
of the space, so they are fewer than the locales that it may look at. -/
theorem ends_walk (hd : s.defaultLocale = .ok d) :
    ∀ {fuel : Nat} {visited : List String} {l : Locale}, l.code ∈ s.localeCodes → visited.Nodup →
      visited ⊆ s.localeCodes → s.locales.length < visited.length + fuel →
      ∃ steps ≤ fuel, s.Ends d.code visited l steps (s.walk d.code fuel visited l) := by
  intro fuel
  induction fuel with
  | zero =>
    intro visited l _ hnodup hsubset hlength
    have hmany : visited.length ≤ s.localeCodes.length :=
      (List.subperm_of_subset hnodup hsubset).length_le
    rw [localeCodes, List.length_map] at hmany
    omega
  | succ fuel ih =>
    intro visited l hl hnodup hsubset hlength
    rw [walk]
    by_cases hmet : l.code ∈ visited
    · rw [if_pos (List.contains_iff_mem.2 hmet)]
      exact ⟨1, by omega, .repeated hmet⟩
    rw [if_neg fun h => hmet (List.contains_iff_mem.1 h)]
    by_cases hcode : l.code = d.code
    · rw [if_pos hcode, List.reverse_cons]
      exact ⟨1, by omega, .arrived hmet hcode⟩
    rw [if_neg hcode]
    rcases fallbackLocale_cases hd l with ⟨next, hnext⟩ | ⟨code, hfallback, hunknown⟩
    · rw [leadsTo_iff.1 hnext]
      have hnodup' : (l.code :: visited).Nodup := List.nodup_cons.2 ⟨hmet, hnodup⟩
      obtain ⟨steps, hsteps, hends⟩ := ih hnext.mem hnodup' (List.cons_subset.2 ⟨hl, hsubset⟩)
        (by rw [List.length_cons]; omega)
      exact ⟨steps + 1, by omega, .onward hmet hcode hnext hends⟩
    · have hlost : s.fallbackLocale l = .error (.space (.unknownFallback code)) := by
        simp [fallbackLocale, hfallback, hunknown]
      rw [hlost]
      exact ⟨1, by omega, .lost hmet hcode hfallback hunknown⟩

/-- The search for a chain ends after at most one more locale than the space has. -/
theorem ends_fallbackChain {code : String} (hd : s.defaultLocale = .ok d)
    (hl : s.resolve (some code) = .ok l) :
    ∃ steps ≤ s.locales.length + 1, s.Ends d.code [] l steps (s.fallbackChain code) := by
  have hchain : s.fallbackChain code = s.walk d.code (s.locales.length + 1) [] l := by
    unfold fallbackChain
    rw [hd, hl]
    rfl
  rw [hchain]
  exact ends_walk hd (resolve_mem_localeCodes hl) .nil (List.nil_subset _) (by simp)

/-! ## Chains -/

/-- A code addresses no locale of a space that has a default locale. -/
structure Unaddressed (s : Space) (code : String) : Prop where
  hasDefault : ∃ d, s.defaultLocale = .ok d
  notFound : ∀ l, s.resolve (some code) ≠ .ok l

/-- There is a chain exactly when the walk comes to the default code and meets no code twice. -/
theorem fallbackChain_eq_ok {code : String} {chain : List String} :
    s.fallbackChain code = .ok chain ↔
      ∃ d l path, s.defaultLocale = .ok d ∧ s.resolve (some code) = .ok l ∧
        s.Reaches d.code l path ∧ (path.map Locale.code).Nodup ∧ chain = path.map Locale.code := by
  constructor
  · intro h
    obtain ⟨d, hd, h'⟩ := bind_eq_ok.1 h
    obtain ⟨l, hl, -⟩ := bind_eq_ok.1 h'
    obtain ⟨steps, -, hends⟩ := ends_fallbackChain hd hl
    obtain ⟨path, hreaches, hchain, hnodup, -⟩ := hends.exists_reaches h
    exact ⟨d, l, path, hd, hl, hreaches, hnodup, hchain⟩
  · rintro ⟨d, l, path, hd, hl, hreaches, hnodup, rfl⟩
    obtain ⟨steps, -, hends⟩ := ends_fallbackChain hd hl
    have hfound : ∃ steps, s.Ends d.code [] l steps (.ok (path.map Locale.code)) :=
      hreaches.ends hnodup fun _ _ => List.not_mem_nil
    obtain ⟨steps', hfound⟩ := hfound
    exact hends.unique hfound

/-- A code that addresses no locale is not found, and all else that fails is a fault of the space. -/
theorem error_of_fallbackChain {code : String} {e : Error} (h : s.fallbackChain code = .error e) :
    (s.Unaddressed code → e = .localeNotFound code) ∧
      (¬ s.Unaddressed code → ∃ fault, e = .space fault) := by
  rcases bind_eq_error.1 h with hd | ⟨d, hd, h'⟩
  · have hfault : e = .space .noDefault := by
      unfold defaultLocale at hd
      split at hd <;> cases hd
      rfl
    refine ⟨fun hnone => ?_, fun _ => ⟨_, hfault⟩⟩
    obtain ⟨d, hd'⟩ := hnone.hasDefault
    cases hd.symm.trans hd'
  rcases bind_eq_error.1 h' with hl | ⟨l, hl, -⟩
  · have hnotFound : e = .localeNotFound code := by
      simp only [resolve] at hl
      split at hl
      · rw [hd] at hl
        cases hl
      · split at hl <;> cases hl
        rfl
    refine ⟨fun _ => hnotFound, fun hn => absurd ⟨⟨d, hd⟩, fun l hl' => ?_⟩ hn⟩
    rw [hl] at hl'
    cases hl'
  · obtain ⟨steps, -, hends⟩ := ends_fallbackChain hd hl
    exact ⟨fun hnone => absurd hl (hnone.notFound l), fun _ => hends.error h⟩

/-- In every space and for every code, the search ends after at most one more locale than there are; it
finds the codes of the walk to the default code, if this meets no code twice, and else fails with a
fault of the space or because the code addresses no locale. A chain has no code twice and the default
code at its end, and its second code is the one that the first falls back to. -/
theorem fallbackChain_exact (s : Space) (code : String) :
    (∀ d l, s.defaultLocale = .ok d → s.resolve (some code) = .ok l →
      ∃ steps ≤ s.locales.length + 1, s.Ends d.code [] l steps (s.fallbackChain code)) ∧
    (∀ chain, s.fallbackChain code = .ok chain ↔
      ∃ d l path, s.defaultLocale = .ok d ∧ s.resolve (some code) = .ok l ∧
        s.Reaches d.code l path ∧ (path.map Locale.code).Nodup ∧ chain = path.map Locale.code) ∧
    (∀ chain, s.fallbackChain code = .ok chain → chain.Nodup ∧
      ∃ d front, s.defaultLocale = .ok d ∧ chain = front ++ [d.code] ∧ d.code ∉ front) ∧
    (∀ e, s.fallbackChain code = .error e →
      (s.Unaddressed code → e = .localeNotFound code) ∧
        (¬ s.Unaddressed code → ∃ fault, e = .space fault)) ∧
    ∀ first second rest, s.fallbackChain code = .ok (first :: second :: rest) →
      s.fallbackOf code = .ok second := by
  refine ⟨fun d l => ends_fallbackChain, fun chain => fallbackChain_eq_ok, fun chain h => ?_,
    fun e => error_of_fallbackChain, fun first second rest h => ?_⟩
  · obtain ⟨d, l, path, hd, -, hreaches, hnodup, rfl⟩ := fallbackChain_eq_ok.1 h
    obtain ⟨front, hpath, hfront⟩ := hreaches.exists_front
    exact ⟨hnodup, d, front, hd, hpath, hfront⟩
  · obtain ⟨d, l, path, -, hl, hreaches, -, hpath⟩ := fallbackChain_eq_ok.1 h
    cases hreaches with
    | arrived => simp at hpath
    | @onward _ next _ _ hnext hrest =>
      have hsecond : second = next.code := by
        cases hrest <;> simp_all
      rw [hsecond]
      exact bind_eq_ok.2 ⟨l, hl, bind_eq_ok.2 ⟨next, leadsTo_iff.1 hnext, rfl⟩⟩

/-- A space in which two locales fall back to each other, one of them by an alias. -/
def circular : Space :=
  ⟨"circular", "circular", [.new "en" true,
    { Locale.new "de" false with fallback? := some "gsw", aliases := ["nds"] },
    { Locale.new "de-CH" false with fallback? := some "nds", aliases := ["gsw"] }]⟩

/-- The chain of French leads over German to English, and in a circular space the search ends. -/
theorem fallbackChain_exact_catalog :
    Catalog.space.fallbackChain Catalog.french
        = .ok [Catalog.french, Catalog.german, Catalog.english] ∧
      Catalog.space.fallbackOf Catalog.french = .ok Catalog.german ∧
      ∃ fault, circular.fallbackChain "nds" = .error (.space fault) := by
  have hchain : Catalog.space.fallbackChain Catalog.french
      = .ok [Catalog.french, Catalog.german, Catalog.english] := rfl
  have hcycle : circular.fallbackChain "nds" = .error (.space (.fallbackCycle "de")) := rfl
  have haddressed : ¬ circular.Unaddressed "nds" := fun h => h.notFound _ rfl
  obtain ⟨fault, hfault⟩ := ((fallbackChain_exact circular "nds").2.2.2.1 _ hcycle).2 haddressed
  exact ⟨hchain, (fallbackChain_exact Catalog.space Catalog.french).2.2.2.2 _ _ _ hchain,
    fault, hfault ▸ hcycle⟩

end Space

end ContentReplica
