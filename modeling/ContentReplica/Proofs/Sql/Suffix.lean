import ContentReplica.Sql.Ident
import Mathlib.Data.String.Basic

/-!
# Names with a suffix

`Ident.withSuffix` appends a text to a name and makes a name of the whole. What that adds to a plain
name is `Ident.continuation`: the suffix in snake case, read after the name. It can be less than the
suffix says. The name can take a suffix in, so that nothing is added (`Ident.Swallows`), and two
suffixes can read alike (`Ident.Merges`). Apart from tags that meet by chance (`Ident.TagEnds`) these
are the only ways in which two of the names coincide (`Ident.withSuffix_eq_self`,
`Ident.withSuffix_eq_withSuffix`), and suffixes in plain form are safe (`Ident.not_swallows_of_parts`,
`Ident.not_merges_of_parts`).
-/

namespace ContentReplica.Ident

/-! ## Characters -/

/-- The bar is no upper-case letter, no lower-case letter and no digit. -/
theorem classes_bar : isUpper '_' = false ∧ isLower '_' = false ∧ isDigitChar '_' = false := by
  decide

/-- A character that may stand in a name is no upper-case letter. -/
theorem isUpper_of_isPart {c : Char} (h : isPart c = true) : isUpper c = false := by
  by_contra hupper
  simp only [isPart, isLower, isDigitChar, isUpper, Bool.or_eq_true, Bool.and_eq_true,
    decide_eq_true_eq, Char.le_def, UInt32.le_iff_toNat_le, Bool.not_eq_false] at h hupper
  rcases h with (h | h) | rfl
  · have : 'a'.val.toNat = 97 ∧ 'Z'.val.toNat = 90 := ⟨rfl, rfl⟩
    omega
  · have : 'A'.val.toNat = 65 ∧ '9'.val.toNat = 57 := ⟨rfl, rfl⟩
    omega
  · revert hupper
    decide

/-- A character that may begin a name may stand in it, and is no digit. -/
theorem isStart_spec {c : Char} (h : isStart c = true) : isPart c = true ∧ isDigitChar c = false := by
  simp only [isStart, Bool.or_eq_true, decide_eq_true_eq] at h
  rcases h with h | rfl
  · refine ⟨by simp [isPart, h], ?_⟩
    by_contra hdigit
    simp only [isLower, isDigitChar, Bool.and_eq_true, decide_eq_true_eq, Char.le_def,
      UInt32.le_iff_toNat_le, Bool.not_eq_false] at h hdigit
    have : 'a'.val.toNat = 97 ∧ '9'.val.toNat = 57 := ⟨rfl, rfl⟩
    omega
  · decide

/-! ## Plain names -/

/-- A text has no more characters than bytes. -/
theorem length_le_utf8ByteSize (s : String) : s.toList.length ≤ s.utf8ByteSize := by
  have hlength : ∀ cs : List Char, cs.length ≤ String.utf8Len cs := by
    intro cs
    induction cs with
    | nil => simp
    | cons c cs ih =>
      have := c.utf8Size_pos
      rw [List.length_cons, String.utf8Len_cons]
      omega
  simpa using hlength s.toList

/-- A plain name has a first character, which may begin a name, is made of characters that may stand
in a name, and is not too long. -/
theorem isPlain_spec {s : String} (h : isPlain s = true) :
    (∃ c rest, s.toList = c :: rest ∧ isStart c = true) ∧ (∀ c ∈ s.toList, isPart c = true) ∧
      s.toList.length ≤ maxLength := by
  have hsize := length_le_utf8ByteSize s
  unfold isPlain at h
  cases hs : s.toList with
  | nil => simp [hs] at h
  | cons c rest =>
    simp only [hs, Bool.and_eq_true, List.all_eq_true, decide_eq_true_eq] at h
    obtain ⟨⟨hstart, hrest⟩, hlength⟩ := h
    refine ⟨⟨c, rest, rfl, hstart⟩, ?_, hs ▸ Nat.le_trans hsize hlength⟩
    exact List.forall_mem_cons.2 ⟨(isStart_spec hstart).1, hrest⟩

/-- The identifier of a plain text is that text. -/
theorem new?_eq_ok {s : String} {i : Ident} : new? s = .ok i ↔ isPlain s = true ∧ i.text = s := by
  cases i
  by_cases h : isPlain s = true
  · simp [new?, h, eq_comm]
  · simp [new?, h]

/-! ## Snake case -/

/-- Snake case keeps a character that may stand in a name. -/
theorem snake_cons {c : Char} (h : isPart c = true) (afterWord afterBar : Bool) (rest : List Char) :
    snake afterWord afterBar (c :: rest) = c :: snake (c != '_') (c == '_') rest := by
  have hupper := isUpper_of_isPart h
  by_cases hbar : c = '_'
  · subst hbar
    simp [snake, classes_bar]
  · have hword : isLower c = true ∨ isDigitChar c = true := by
      simpa [isPart, hbar] using h
    have hafter : (c != '_') = true ∧ (c == '_') = false := by simp [hbar]
    simp [snake, hupper, hword, hafter]

/-- Snake case keeps the beginning of a text that may stand in a name, and goes on after its last
character. -/
theorem snake_append {cs : List Char} (hne : cs ≠ []) (h : ∀ c ∈ cs, isPart c = true)
    (afterWord afterBar : Bool) (rest : List Char) :
    snake afterWord afterBar (cs ++ rest)
      = cs ++ snake (cs.getLast? != some '_') (cs.getLast? == some '_') rest := by
  induction cs generalizing afterWord afterBar with
  | nil => exact absurd rfl hne
  | cons c cs ih =>
    obtain ⟨hc, hcs⟩ := List.forall_mem_cons.1 h
    rw [List.cons_append, snake_cons hc]
    cases cs with
    | nil => rfl
    | cons d cs => rw [ih (List.cons_ne_nil d cs) hcs, List.getLast?_cons_cons, List.cons_append,
      List.cons_append, List.cons_append]

/-- Snake case keeps a text whose characters may stand in a name. -/
theorem snake_of_parts {cs : List Char} (h : ∀ c ∈ cs, isPart c = true) (afterWord afterBar : Bool) :
    snake afterWord afterBar cs = cs := by
  by_cases hne : cs = []
  · simp [hne, snake]
  · simpa [snake] using snake_append hne h afterWord afterBar []

/-! ## What a suffix adds -/

/-- The name of a text before it is shortened. -/
def unshortened (raw : String) : List Char := afterDigit (named (snake false false raw.toList))

/-- What a suffix adds to a plain name: the suffix in snake case, read after the name. -/
def continuation (i : Ident) (suffix : String) : List Char :=
  snake (i.text.toList.getLast? != some '_') (i.text.toList.getLast? == some '_') suffix.toList

/-- A text of bars. -/
def OnlyBars (cs : List Char) : Prop := ∀ c ∈ cs, c = '_'

instance (cs : List Char) : Decidable (OnlyBars cs) := List.decidableBAll (· = '_') cs

/-- A text of bars has no name of its own. -/
theorem named_of_onlyBars {cs : List Char} (h : OnlyBars cs) : named cs = ['x'] := by
  have hall : cs.all (· = '_') = true := by simpa [OnlyBars] using h
  simp only [named, hall, if_true]

/-- Any other text keeps its name. -/
theorem named_of_not_onlyBars {cs : List Char} (h : ¬ OnlyBars cs) : named cs = cs := by
  have hall : cs.all (· = '_') = false := by simpa [OnlyBars] using h
  simp only [named, hall, Bool.false_eq_true, if_false]

/-- The characters of a name. -/
theorem toList_sanitize (raw : String) :
    (sanitize raw).text.toList = shortened raw (unshortened raw) := by
  simp [sanitize, unshortened]

/-- Before it is shortened, a plain name with a suffix is the name and what the suffix adds. -/
theorem unshortened_append {i : Ident} (hi : isPlain i.text = true) (suffix : String) :
    unshortened (i.text ++ suffix) = named (i.text.toList ++ i.continuation suffix) := by
  obtain ⟨⟨c, rest, hcs, hstart⟩, hparts, -⟩ := isPlain_spec hi
  have hne : i.text.toList ≠ [] := by simp [hcs]
  unfold unshortened
  rw [String.toList_append, snake_append hne hparts]
  change afterDigit (named (i.text.toList ++ i.continuation suffix)) = _
  by_cases hbars : OnlyBars (i.text.toList ++ i.continuation suffix)
  · rw [named_of_onlyBars hbars]
    rfl
  · rw [named_of_not_onlyBars hbars, hcs]
    simp [afterDigit, (isStart_spec hstart).2]

/-! ## Names that coincide -/

/-- The tag of a text that is too long for a name ends another name. -/
def TagEnds (raw : String) (i : Ident) : Prop :=
  maxLength < (unshortened raw).length ∧ tag raw <:+ i.text.toList

instance (raw : String) (i : Ident) : Decidable (TagEnds raw i) := inferInstanceAs (Decidable (_ ∧ _))

/-- A name takes a suffix in: nothing of it is left behind the name. -/
def Swallows (i : Ident) (suffix : String) : Prop :=
  i.continuation suffix = [] ∧ ¬ OnlyBars i.text.toList

instance (i : Ident) (suffix : String) : Decidable (i.Swallows suffix) :=
  inferInstanceAs (Decidable (_ ∧ _))

/-- Two suffixes read alike behind a name: both leave only bars, or both add the same to it and the
whole is not too long for a name. -/
def Merges (i : Ident) (suffix suffix' : String) : Prop :=
  OnlyBars (i.text.toList ++ i.continuation suffix) ∧
      OnlyBars (i.text.toList ++ i.continuation suffix') ∨
    i.continuation suffix = i.continuation suffix' ∧
      (i.text.toList ++ i.continuation suffix).length ≤ maxLength

instance (i : Ident) (suffix suffix' : String) : Decidable (i.Merges suffix suffix') :=
  inferInstanceAs (Decidable (_ ∨ _))

variable {i j : Ident} {raw suffix suffix' : String}

/-- A name that is not too long is kept whole. -/
theorem toList_sanitize_of_le (h : (unshortened raw).length ≤ maxLength) :
    (sanitize raw).text.toList = unshortened raw := by
  rw [toList_sanitize, shortened, if_neg (Nat.not_lt.2 h)]

/-- The tag of a text that is too long for a name ends its own name. -/
theorem tagEnds_of_sanitize_eq (hlong : maxLength < (unshortened raw).length)
    (h : sanitize raw = j) : TagEnds raw j := by
  refine ⟨hlong, ?_⟩
  rw [← h, toList_sanitize, shortened, if_pos hlong]
  exact (List.suffix_cons _ _).trans (List.suffix_append _ _)

/-- Names with the same characters are the same. -/
theorem eq_of_toList_eq (h : i.text.toList = j.text.toList) : i = j := by
  cases i
  cases j
  exact congrArg Ident.mk (String.toList_inj.1 h)

/-- Where no tag meets the name by chance, a plain name with a suffix is the name itself exactly when
it takes the suffix in. -/
theorem withSuffix_eq_self (hi : isPlain i.text = true) (htag : ¬ TagEnds (i.text ++ suffix) i) :
    i.withSuffix suffix = i ↔ i.Swallows suffix := by
  obtain ⟨⟨c, rest, hcs, -⟩, -, hlength⟩ := isPlain_spec hi
  have hunshortened := unshortened_append hi suffix
  constructor
  · intro heq
    have hshort : (unshortened (i.text ++ suffix)).length ≤ maxLength :=
      Nat.not_lt.1 fun hlong => htag (tagEnds_of_sanitize_eq hlong heq)
    have hlist : named (i.text.toList ++ i.continuation suffix) = i.text.toList := by
      rw [← hunshortened, ← toList_sanitize_of_le hshort]
      exact congrArg (fun k : Ident => k.text.toList) heq
    by_cases hbars : OnlyBars (i.text.toList ++ i.continuation suffix)
    · -- the name of bars begins with a bar, the name that stands for them does not
      rw [named_of_onlyBars hbars, hcs] at hlist
      have hc : c = '_' := hbars c (by simp [hcs])
      exact absurd ((List.cons.inj hlist).1.trans hc) (by decide)
    · rw [named_of_not_onlyBars hbars, List.append_right_eq_self] at hlist
      rw [hlist, List.append_nil] at hbars
      exact ⟨hlist, hbars⟩
  · rintro ⟨hnothing, hbars⟩
    rw [hnothing, List.append_nil, named_of_not_onlyBars hbars] at hunshortened
    refine eq_of_toList_eq ?_
    rw [withSuffix, toList_sanitize_of_le (hunshortened ▸ hlength), hunshortened]

/-- What is named alike behind a plain name reads alike, or leaves only bars. -/
theorem named_append_inj (hi : isPlain i.text = true) {cs cs' : List Char}
    (h : named (i.text.toList ++ cs) = named (i.text.toList ++ cs')) :
    OnlyBars (i.text.toList ++ cs) ∧ OnlyBars (i.text.toList ++ cs') ∨
      cs = cs' ∧ ¬ OnlyBars (i.text.toList ++ cs) := by
  obtain ⟨⟨c, rest, hcs, -⟩, -, -⟩ := isPlain_spec hi
  -- the name that stands for bars begins otherwise than a name behind bars
  have hclash : ∀ ds ds' : List Char, OnlyBars (i.text.toList ++ ds) →
      ['x'] ≠ i.text.toList ++ ds' := by
    intro ds ds' hbars heq
    have hc : c = '_' := hbars c (by simp [hcs])
    rw [hcs, hc] at heq
    exact absurd (List.cons.inj heq).1 (by decide)
  by_cases hbars : OnlyBars (i.text.toList ++ cs) <;>
    by_cases hbars' : OnlyBars (i.text.toList ++ cs')
  · exact .inl ⟨hbars, hbars'⟩
  · rw [named_of_onlyBars hbars, named_of_not_onlyBars hbars'] at h
    exact absurd h (hclash _ _ hbars)
  · rw [named_of_not_onlyBars hbars, named_of_onlyBars hbars'] at h
    exact absurd h.symm (hclash _ _ hbars')
  · rw [named_of_not_onlyBars hbars, named_of_not_onlyBars hbars'] at h
    exact .inr ⟨List.append_cancel_left h, hbars⟩

/-- Where no tag meets a name by chance, a plain name with one suffix is that with another exactly when
the two read alike behind it. -/
theorem withSuffix_eq_withSuffix (hi : isPlain i.text = true)
    (htag : ¬ TagEnds (i.text ++ suffix) (i.withSuffix suffix'))
    (htag' : ¬ TagEnds (i.text ++ suffix') (i.withSuffix suffix)) :
    i.withSuffix suffix = i.withSuffix suffix' ↔ i.Merges suffix suffix' := by
  have hunshortened := unshortened_append hi suffix
  have hunshortened' := unshortened_append hi suffix'
  constructor
  · intro heq
    have hshort : (unshortened (i.text ++ suffix)).length ≤ maxLength :=
      Nat.not_lt.1 fun hlong => htag (tagEnds_of_sanitize_eq hlong heq)
    have hshort' : (unshortened (i.text ++ suffix')).length ≤ maxLength :=
      Nat.not_lt.1 fun hlong => htag' (tagEnds_of_sanitize_eq hlong heq.symm)
    have hlist : unshortened (i.text ++ suffix) = unshortened (i.text ++ suffix') := by
      rw [← toList_sanitize_of_le hshort, ← toList_sanitize_of_le hshort']
      exact congrArg (fun k : Ident => k.text.toList) heq
    rw [hunshortened, hunshortened'] at hlist
    rcases named_append_inj hi hlist with hbars | ⟨hsame, hbars⟩
    · exact .inl hbars
    · rw [hunshortened, named_of_not_onlyBars hbars] at hshort
      exact .inr ⟨hsame, hshort⟩
  · intro hmerges
    have hsame : unshortened (i.text ++ suffix) = unshortened (i.text ++ suffix') ∧
        (unshortened (i.text ++ suffix)).length ≤ maxLength := by
      rw [hunshortened, hunshortened']
      rcases hmerges with ⟨hbars, hbars'⟩ | ⟨hsame, hshort⟩
      · rw [named_of_onlyBars hbars, named_of_onlyBars hbars']
        exact ⟨rfl, by decide⟩
      · refine ⟨by rw [hsame], ?_⟩
        by_cases hbars : OnlyBars (i.text.toList ++ i.continuation suffix)
        · rw [named_of_onlyBars hbars]
          decide
        · rwa [named_of_not_onlyBars hbars]
    refine eq_of_toList_eq ?_
    rw [withSuffix, withSuffix, toList_sanitize_of_le hsame.2,
      toList_sanitize_of_le (hsame.1 ▸ hsame.2), hsame.1]

/-! ## Suffixes in plain form -/

/-- A suffix whose characters may stand in a name is added as it is. -/
theorem continuation_of_parts (h : ∀ c ∈ suffix.toList, isPart c = true) :
    i.continuation suffix = suffix.toList :=
  snake_of_parts h _ _

/-- No name takes in a suffix whose characters may stand in a name, unless it is empty. -/
theorem not_swallows_of_parts (h : ∀ c ∈ suffix.toList, isPart c = true) (hne : suffix ≠ "") :
    ¬ i.Swallows suffix := by
  rintro ⟨hnothing, -⟩
  rw [continuation_of_parts h] at hnothing
  exact hne (String.toList_inj.1 hnothing)

/-- Different suffixes whose characters may stand in a name do not read alike behind a name that has
a letter or a digit. -/
theorem not_merges_of_parts (hi : ¬ OnlyBars i.text.toList)
    (h : ∀ c ∈ suffix.toList, isPart c = true) (h' : ∀ c ∈ suffix'.toList, isPart c = true)
    (hne : suffix ≠ suffix') : ¬ i.Merges suffix suffix' := by
  rintro (⟨hbars, -⟩ | ⟨hsame, -⟩)
  · exact hi fun c hc => hbars c (List.mem_append_left _ hc)
  · rw [continuation_of_parts h, continuation_of_parts h'] at hsame
    exact hne (String.toList_inj.1 hsame)

end ContentReplica.Ident
