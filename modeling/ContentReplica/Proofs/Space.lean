import ContentReplica.Proofs.Outcome
import ContentReplica.Space
import Mathlib.Data.List.Nodup
import Mathlib.Data.List.Pairwise

/-!
# Valid spaces

What `Space.validate` promises of the locales of a space: no code occurs twice (`nodup_localeCodes`),
and there is a default locale, whose code is among those of the space (`default_mem_localeCodes`).
Where no code occurs twice a code addresses one locale (`locale?_eq_some`), and where one locale is the
default it is the one that is found (`defaultLocale_eq_ok`).
-/

namespace ContentReplica

/-- What is found is the one element that passes the test. -/
theorem find?_eq_some_of_unique {α : Type} {p : α → Bool} {a : α} :
    ∀ {l : List α}, a ∈ l → p a = true → (∀ b ∈ l, p b = true → b = a) → l.find? p = some a
  | b :: l, ha, hpa, hunique => by
    by_cases hpb : p b = true
    · rw [List.find?_cons_of_pos hpb, hunique b (List.mem_cons_self ..) hpb]
    · rw [List.find?_cons_of_neg hpb]
      rcases List.mem_cons.1 ha with rfl | ha
      · exact absurd hpa hpb
      · exact find?_eq_some_of_unique ha hpa fun c hc => hunique c (List.mem_cons_of_mem _ hc)

namespace Space

variable {s : Space} {l l' : Locale} {code : String}

/-! ## Looking up locales -/

/-- Where no code occurs twice, different locales have none in common. -/
theorem eq_of_mem_codes (h : s.allCodes.Nodup) (hl : l ∈ s.locales) (hl' : l' ∈ s.locales)
    (hcode : code ∈ l.codes) (hcode' : code ∈ l'.codes) : l = l' := by
  by_contra hne
  have : Std.Symm (Function.onFun List.Disjoint Locale.codes) := ⟨fun _ _ => List.disjoint_symm⟩
  exact (List.nodup_flatMap.1 h).2.forall hl hl' hne hcode hcode'

/-- Where no code occurs twice, a code addresses the one locale that answers to it. -/
theorem locale?_eq_some (h : s.allCodes.Nodup) :
    s.locale? code = some l ↔ l ∈ s.locales ∧ l.answersTo code = true := by
  unfold locale?
  constructor
  · intro hfind
    exact ⟨List.mem_of_find?_eq_some hfind, by simpa using List.find?_some hfind⟩
  · rintro ⟨hl, hanswers⟩
    refine find?_eq_some_of_unique hl hanswers fun l' hl' hanswers' => ?_
    exact eq_of_mem_codes h hl' hl (List.contains_iff_mem.1 hanswers')
      (List.contains_iff_mem.1 hanswers)

/-- Where one locale is the default there is no other. -/
theorem eq_of_isDefault (h : s.locales.countP (·.isDefault) = 1) (hl : l ∈ s.locales)
    (hl' : l' ∈ s.locales) (hdefault : l.isDefault = true) (hdefault' : l'.isDefault = true) :
    l = l' := by
  rw [List.countP_eq_length_filter] at h
  obtain ⟨d, hd⟩ := List.length_eq_one_iff.1 h
  have hin : ∀ l ∈ s.locales, l.isDefault = true → l = d := fun l hl hdefault =>
    List.mem_singleton.1 (hd ▸ List.mem_filter.2 ⟨hl, hdefault⟩)
  exact (hin l hl hdefault).trans (hin l' hl' hdefault').symm

/-- Where one locale is the default it is the default locale. -/
theorem defaultLocale_eq_ok (h : s.locales.countP (·.isDefault) = 1) :
    s.defaultLocale = .ok l ↔ l ∈ s.locales ∧ l.isDefault = true := by
  have hfind : s.defaultLocale = .ok l ↔ s.locales.find? (·.isDefault) = some l := by
    unfold defaultLocale
    cases s.locales.find? (·.isDefault) with
    | none => exact ⟨nofun, nofun⟩
    | some d => exact ⟨fun h => Except.ok.inj h ▸ rfl, fun h => Option.some.inj h ▸ rfl⟩
  rw [hfind]
  constructor
  · exact fun hfind => ⟨List.mem_of_find?_eq_some hfind, List.find?_some hfind⟩
  · rintro ⟨hl, hdefault⟩
    exact find?_eq_some_of_unique hl hdefault fun l' hl' hdefault' =>
      eq_of_isDefault h hl' hl hdefault' hdefault

/-! ## What a valid space has -/

/-- Without a repeated element a list has no duplicates, and nothing that was seen before. -/
theorem firstRepeated?_eq_none :
    ∀ {codes seen : List String}, firstRepeated? seen codes = none ↔
      codes.Nodup ∧ ∀ code ∈ codes, code ∉ seen
  | [], seen => by simp [firstRepeated?]
  | code :: codes, seen => by
    unfold firstRepeated?
    by_cases hseen : code ∈ seen
    · simp [hseen]
    · rw [if_neg (by simpa using hseen), firstRepeated?_eq_none]
      simp only [List.nodup_cons, List.mem_cons, forall_eq_or_imp, not_or]
      constructor
      · rintro ⟨hnodup, hall⟩
        exact ⟨⟨fun hm => (hall code hm).1 rfl, hnodup⟩, hseen, fun c hc => (hall c hc).2⟩
      · rintro ⟨⟨hcode, hnodup⟩, -, hall⟩
        exact ⟨hnodup, fun c hc => ⟨fun he => hcode (he ▸ hc), hall c hc⟩⟩

/-- The canonical codes occur among all codes and aliases, in their order. -/
theorem localeCodes_sublist : s.localeCodes.Sublist s.allCodes := by
  unfold localeCodes allCodes
  induction s.locales with
  | nil => exact .slnil
  | cons l locales ih =>
    rw [List.map_cons, List.flatMap_cons]
    exact List.Sublist.cons_cons l.code (ih.trans (List.sublist_append_right l.aliases _))

/-- A space is valid when it has one default locale, no code or alias twice, and a fallback chain
from every locale. -/
theorem validate_eq_ok : s.validate = .ok () ↔
    s.locales.countP (·.isDefault) = 1 ∧ s.allCodes.Nodup ∧
      ∀ l ∈ s.locales, ∃ chain, s.fallbackChain l.code = .ok chain := by
  have hchain (l : Locale) : (do let _ ← s.fallbackChain l.code : Except Error Unit) = .ok () ↔
      ∃ chain, s.fallbackChain l.code = .ok chain := by
    rw [bind_eq_ok]
    exact ⟨fun ⟨chain, h, _⟩ => ⟨chain, h⟩, fun ⟨chain, h⟩ => ⟨chain, h, rfl⟩⟩
  unfold validate
  dsimp only
  by_cases hcount : s.locales.countP (·.isDefault) = 1
  · rw [if_neg (not_not.2 hcount)]
    cases hrepeated : firstRepeated? [] s.allCodes with
    | some code =>
      refine ⟨nofun, fun ⟨_, hnodup, _⟩ => ?_⟩
      rw [firstRepeated?_eq_none.2 ⟨hnodup, by simp⟩] at hrepeated
      cases hrepeated
    | none =>
      have hnodup := (firstRepeated?_eq_none.1 hrepeated).1
      refine forM_eq_ok.trans ⟨fun h => ⟨hcount, hnodup, fun l hl => (hchain l).1 (h l hl)⟩, ?_⟩
      exact fun h l hl => (hchain l).2 (h.2.2 l hl)
  · rw [if_pos hcount]
    exact ⟨nofun, fun h => absurd h.1 hcount⟩

/-- No locale code of a valid space occurs twice. -/
theorem nodup_localeCodes (h : s.validate = .ok ()) : s.localeCodes.Nodup :=
  localeCodes_sublist.nodup (validate_eq_ok.1 h).2.1

/-- The code of the default locale is one of the space. -/
theorem default_mem_localeCodes {l : Locale} (h : s.defaultLocale = .ok l) :
    l.code ∈ s.localeCodes := by
  unfold defaultLocale at h
  split at h
  · next hfind =>
    cases h
    exact List.mem_map_of_mem (List.mem_of_find?_eq_some hfind)
  · cases h

/-- A request is for a locale of the space. -/
theorem resolve_mem_localeCodes {code? : Option String} {l : Locale}
    (h : s.resolve code? = .ok l) : l.code ∈ s.localeCodes := by
  cases code? with
  | none => exact default_mem_localeCodes h
  | some code =>
    simp only [resolve] at h
    split at h
    · exact default_mem_localeCodes h
    · split at h
      · next l' hfind =>
        obtain rfl := Except.ok.inj h
        exact List.mem_map_of_mem (List.mem_of_find?_eq_some hfind)
      · cases h

/-- Where one locale is the default there is a default locale. -/
theorem exists_default (h : s.locales.countP (·.isDefault) = 1) :
    ∃ l, s.defaultLocale = .ok l := by
  have hpos : 0 < s.locales.countP (·.isDefault) := h ▸ Nat.one_pos
  obtain ⟨l, hl, hdefault⟩ := List.countP_pos_iff.1 hpos
  exact ⟨l, (defaultLocale_eq_ok h).2 ⟨hl, hdefault⟩⟩

/-- A valid space has a default locale. -/
theorem exists_defaultLocale (h : s.validate = .ok ()) : ∃ l, s.defaultLocale = .ok l :=
  exists_default (validate_eq_ok.1 h).1

end Space

end ContentReplica
