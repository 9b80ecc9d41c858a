import ContentReplica.Catalog
import ContentReplica.Proofs.Space
import Mathlib.Data.List.Perm.Subperm

/-!
# Fallbacks lead to the default locale

From every locale of a space its fallbacks make a walk (`Space.Walks`): from locale to locale, as long as
each names a known one, up to the default locale. A space is valid exactly when it has one default
locale, no code or alias twice, and such a walk without repetition from every locale
(`Space.validate_iff_walks`).

The word `default` addresses the default locale, so nothing is asked of the walk from a locale that has
this word for its code: `Space.validate_iff_walks_needs_keyword` is such a space.
-/

namespace ContentReplica

namespace Space

variable {s : Space} {l next d : Locale} {path : List Locale}

/-- A locale falls back to another one of the space: to the one that answers to the code that it
declares, or to the default locale if it declares none. -/
inductive FallsBack (s : Space) (l next : Locale) : Prop
  | declared {code : String} (hcode : l.fallback? = some code) (hnext : next ∈ s.locales)
      (hanswers : next.answersTo code = true)
  | undeclared (hnone : l.fallback? = none) (hnext : next ∈ s.locales)
      (hdefault : next.isDefault = true)

/-- The walk from a locale along its fallbacks to the default locale. -/
inductive Walks (s : Space) : Locale → List Locale → Prop
  | arrived {l : Locale} (hdefault : l.isDefault = true) : Walks s l [l]
  | onward {l next : Locale} {path : List Locale} (hdefault : l.isDefault = false)
      (hnext : s.FallsBack l next) (hrest : Walks s next path) : Walks s l (l :: path)

/-! ## One step -/

/-- A locale falls back to a locale of the space. -/
theorem FallsBack.mem (h : s.FallsBack l next) : next ∈ s.locales := by
  cases h with
  | declared _ hnext => exact hnext
  | undeclared _ hnext => exact hnext

/-- The fallback of a locale is the one that is found. -/
theorem fallbackLocale_eq_ok (hone : s.locales.countP (·.isDefault) = 1)
    (hnodup : s.allCodes.Nodup) : s.fallbackLocale l = .ok next ↔ s.FallsBack l next := by
  unfold fallbackLocale
  cases hfallback : l.fallback? with
  | none =>
    refine (defaultLocale_eq_ok hone).trans ⟨fun h => .undeclared hfallback h.1 h.2, fun h => ?_⟩
    cases h with
    | declared hcode => rw [hfallback] at hcode; cases hcode
    | undeclared _ hnext hdefault => exact ⟨hnext, hdefault⟩
  | some code =>
    have hfound : s.locale? code = some next ↔ s.FallsBack l next := by
      refine (locale?_eq_some hnodup).trans ⟨fun h => .declared hfallback h.1 h.2, fun h => ?_⟩
      cases h with
      | declared hcode hnext hanswers =>
        rw [hfallback] at hcode
        exact ⟨hnext, Option.some.inj hcode ▸ hanswers⟩
      | undeclared hnone => rw [hfallback] at hnone; cases hnone
    rw [← hfound]
    dsimp only
    cases s.locale? code with
    | none => exact ⟨nofun, nofun⟩
    | some next' => exact ⟨fun h => Except.ok.inj h ▸ rfl, fun h => Option.some.inj h ▸ rfl⟩

/-! ## The whole walk -/

/-- A walk stays in the space. -/
theorem Walks.mem (h : s.Walks l path) : l ∈ s.locales → ∀ l' ∈ path, l' ∈ s.locales := by
  induction h with
  | arrived => exact fun hl l' hl' => List.mem_singleton.1 hl' ▸ hl
  | onward _ hnext _ ih => exact fun hl => List.forall_mem_cons.2 ⟨hl, ih hnext.mem⟩

section
variable (hone : s.locales.countP (·.isDefault) = 1) (hnodup : s.allCodes.Nodup)
  (hd : s.defaultLocale = .ok d)
include hone hnodup hd

/-- A locale is the default one when it has its code. -/
theorem code_eq_iff (hl : l ∈ s.locales) : l.code = d.code ↔ l.isDefault = true := by
  obtain ⟨hmem, hdefault⟩ := (defaultLocale_eq_ok hone).1 hd
  constructor
  · intro he
    have hsame : l = d := eq_of_mem_codes hnodup hl hmem (List.mem_cons_self ..)
      (he ▸ List.mem_cons_self ..)
    exact hsame ▸ hdefault
  · exact fun h => eq_of_isDefault hone hl hmem h hdefault ▸ rfl

/-- Where the codes of a walk are found, it goes through new locales only. -/
theorem exists_walks_of_walk : ∀ {fuel : Nat} {visited chain : List String} {l : Locale},
    l ∈ s.locales → s.walk d.code fuel visited l = .ok chain →
      ∃ path, s.Walks l path ∧ (path.map Locale.code).Nodup ∧ ∀ l' ∈ path, l'.code ∉ visited
  | 0, _, _, _, _, h => by cases h
  | fuel + 1, visited, chain, l, hl, h => by
    rw [walk] at h
    split at h
    · cases h
    · next hnew =>
      have hnew : l.code ∉ visited := fun hm => hnew (List.contains_iff_mem.2 hm)
      split at h
      · next hcode =>
        refine ⟨[l], .arrived ((code_eq_iff hone hnodup hd hl).1 hcode), List.nodup_singleton _, ?_⟩
        exact List.forall_mem_singleton.2 hnew
      · next hcode =>
        obtain ⟨next, hnext, h⟩ := bind_eq_ok.1 h
        have hnext := (fallbackLocale_eq_ok hone hnodup).1 hnext
        obtain ⟨path, hwalks, hcodes, hvisited⟩ := exists_walks_of_walk hnext.mem h
        have hdefault : l.isDefault = false :=
          Bool.eq_false_iff.2 fun h => hcode ((code_eq_iff hone hnodup hd hl).2 h)
        refine ⟨l :: path, .onward hdefault hnext hwalks, ?_, ?_⟩
        · rw [List.map_cons, List.nodup_cons]
          refine ⟨fun hm => ?_, hcodes⟩
          obtain ⟨l', hl', he⟩ := List.mem_map.1 hm
          exact hvisited l' hl' (he ▸ List.mem_cons_self ..)
        · exact List.forall_mem_cons.2
            ⟨hnew, fun l' hl' hm => hvisited l' hl' (List.mem_cons_of_mem _ hm)⟩

/-- The codes of a walk through new locales are found, if the steps suffice. -/
theorem exists_walk_of_walks (h : s.Walks l path) : ∀ {fuel : Nat} {visited : List String},
    l ∈ s.locales → path.Nodup → (∀ l' ∈ path, l'.code ∉ visited) → path.length ≤ fuel →
      ∃ chain, s.walk d.code fuel visited l = .ok chain := by
  induction h with
  | @arrived l hdefault =>
    intro fuel visited hl _ hvisited hfuel
    obtain _ | fuel := fuel
    · cases hfuel
    rw [walk, if_neg fun hm => List.forall_mem_singleton.1 hvisited (List.contains_iff_mem.1 hm),
      if_pos ((code_eq_iff hone hnodup hd hl).2 hdefault)]
    exact ⟨_, rfl⟩
  | @onward l next path hdefault hnext hwalks ih =>
    intro fuel visited hl hpath hvisited hfuel
    obtain _ | fuel := fuel
    · cases hfuel
    obtain ⟨hnew, hvisited⟩ := List.forall_mem_cons.1 hvisited
    have hcode : l.code ≠ d.code := fun he => by
      rw [(code_eq_iff hone hnodup hd hl).1 he] at hdefault
      cases hdefault
    obtain ⟨hfirst, hpath⟩ := List.nodup_cons.1 hpath
    rw [walk, if_neg fun hm => hnew (List.contains_iff_mem.1 hm), if_neg hcode]
    have hlater : ∀ l' ∈ path, l'.code ∉ l.code :: visited := by
      intro l' hl' hm
      rcases List.mem_cons.1 hm with he | hm
      · have hsame : l' = l := eq_of_mem_codes hnodup (hwalks.mem hnext.mem l' hl') hl
          (List.mem_cons_self ..) (he ▸ List.mem_cons_self ..)
        exact hfirst (hsame ▸ hl')
      · exact hvisited l' hl' hm
    obtain ⟨chain, hchain⟩ := ih hnext.mem hpath hlater (Nat.le_of_succ_le_succ hfuel)
    exact ⟨chain, bind_eq_ok.2 ⟨next, (fallbackLocale_eq_ok hone hnodup).2 hnext, hchain⟩⟩

/-- A walk that ends in the default locale has a chain of codes, and such a chain a walk. -/
theorem exists_walk_iff (hl : l ∈ s.locales) :
    (∃ chain, s.walk d.code (s.locales.length + 1) [] l = .ok chain) ↔
      ∃ path, s.Walks l path ∧ path.Nodup := by
  constructor
  · rintro ⟨chain, hchain⟩
    obtain ⟨path, hwalks, hcodes, -⟩ := exists_walks_of_walk hone hnodup hd hl hchain
    exact ⟨path, hwalks, hcodes.of_map⟩
  · rintro ⟨path, hwalks, hpath⟩
    have hlength : path.length ≤ s.locales.length :=
      (List.subperm_of_subset hpath (hwalks.mem hl)).length_le
    exact exists_walk_of_walks hone hnodup hd hwalks hl hpath (fun _ _ => List.not_mem_nil)
      (Nat.le_succ_of_le hlength)

/-- A locale has a fallback chain when there is a walk from it. From a locale that has the word for the
default locale for its code, the walk that counts is that of the default locale. -/
theorem exists_fallbackChain_iff (hl : l ∈ s.locales) :
    (∃ chain, s.fallbackChain l.code = .ok chain) ↔
      (l.code ≠ defaultKeyword → ∃ path, s.Walks l path ∧ path.Nodup) := by
  obtain ⟨hmem, hdefault⟩ := (defaultLocale_eq_ok hone).1 hd
  by_cases hkeyword : l.code = defaultKeyword
  · have hresolve : s.resolve (some l.code) = .ok d := by
      rw [resolve, if_pos hkeyword, hd]
    have hchain : s.fallbackChain l.code = s.walk d.code (s.locales.length + 1) [] d := by
      unfold fallbackChain
      rw [hd, hresolve]
      rfl
    rw [hchain, exists_walk_iff hone hnodup hd hmem]
    exact ⟨fun _ h => absurd hkeyword h,
      fun _ => ⟨[d], .arrived hdefault, List.nodup_singleton d⟩⟩
  · have hresolve : s.resolve (some l.code) = .ok l := by
      have hfound : s.locale? l.code = some l := (locale?_eq_some hnodup).2
        ⟨hl, List.contains_iff_mem.2 (List.mem_cons_self ..)⟩
      simp only [resolve]
      rw [if_neg hkeyword, hfound]
    have hchain : s.fallbackChain l.code = s.walk d.code (s.locales.length + 1) [] l := by
      unfold fallbackChain
      rw [hd, hresolve]
      rfl
    rw [hchain, exists_walk_iff hone hnodup hd hl]
    exact ⟨fun h _ => h, fun h => h hkeyword⟩

end

/-! ## Validity -/

/-- A space is valid when one locale is the default, no code or alias occurs twice, and from every locale
the fallbacks lead to the default locale and repeat none. The one exception is a locale that has the
word for the default locale for its code; where only the default locale may, there is none. -/
theorem validate_iff_walks (s : Space) :
    (s.validate = .ok () ↔
      s.locales.countP (·.isDefault) = 1 ∧ s.allCodes.Nodup ∧
        ∀ l ∈ s.locales, l.code ≠ defaultKeyword → ∃ path, s.Walks l path ∧ path.Nodup) ∧
    ((∀ l ∈ s.locales, l.code = defaultKeyword → l.isDefault = true) →
      (s.validate = .ok () ↔
        s.locales.countP (·.isDefault) = 1 ∧ s.allCodes.Nodup ∧
          ∀ l ∈ s.locales, ∃ path, s.Walks l path ∧ path.Nodup)) := by
  have hvalid : s.validate = .ok () ↔
      s.locales.countP (·.isDefault) = 1 ∧ s.allCodes.Nodup ∧
        ∀ l ∈ s.locales, l.code ≠ defaultKeyword → ∃ path, s.Walks l path ∧ path.Nodup := by
    refine validate_eq_ok.trans (and_congr_right fun hone => and_congr_right fun hnodup => ?_)
    obtain ⟨d, hd⟩ := exists_default hone
    exact forall₂_congr fun l hl => exists_fallbackChain_iff hone hnodup hd hl
  refine ⟨hvalid, fun hkeyword => hvalid.trans ?_⟩
  refine and_congr_right fun _ => and_congr_right fun _ => forall₂_congr fun l hl => ?_
  refine ⟨fun h => ?_, fun h _ => h⟩
  by_cases hcode : l.code = defaultKeyword
  · exact ⟨[l], .arrived (hkeyword l hl hcode), List.nodup_singleton l⟩
  · exact h hcode

/-- In the catalog the walk from French leads over German to the default locale. -/
theorem validate_iff_walks_catalog :
    (∀ l ∈ Catalog.space.locales, l.code = defaultKeyword → l.isDefault = true) ∧
      Catalog.space.validate = .ok () ∧
      ∀ l ∈ Catalog.space.locales, ∃ path, Catalog.space.Walks l path ∧ path.Nodup := by
  have hkeyword : ∀ l ∈ Catalog.space.locales, l.code = defaultKeyword → l.isDefault = true := by
    decide
  have hvalid : Catalog.space.validate = .ok () := rfl
  exact ⟨hkeyword, hvalid, (((validate_iff_walks Catalog.space).2 hkeyword).1 hvalid).2.2⟩

/-- A locale with the word for the default locale for its code may fall back to a locale that is not
known. -/
theorem validate_iff_walks_needs_keyword :
    ¬ ∀ s : Space, s.validate = .ok () → ∀ l ∈ s.locales, ∃ path, s.Walks l path ∧ path.Nodup := by
  intro h
  let lost : Locale := { Locale.new "default" false with fallback? := some "xx" }
  obtain ⟨path, hwalks, -⟩ := h ⟨"s", "s", [.new "en" true, lost]⟩ rfl lost (by decide)
  cases hwalks with
  | arrived hdefault => cases hdefault
  | onward _ hnext _ =>
    cases hnext with
    | declared hcode hmem hanswers =>
      obtain rfl := Option.some.inj hcode
      rcases List.mem_pair.1 hmem with rfl | rfl
      · exact absurd hanswers (by decide)
      · exact absurd hanswers (by decide)
    | undeclared hnone => cases hnone

end Space

end ContentReplica
