import ContentReplica.Store.Like
import Mathlib.Logic.Basic

/-!
# What a pattern matches

`Like.Matches` says which texts a pattern matches, by recursion on the pattern. The decision fills a
row for every token, and each row tells which beginnings of the text the tokens so far match
(`Like.Tells`): this holds of the row before any token (`Like.start?_tells`), a token keeps it
(`Like.step?_tells`), and so do all tokens of a pattern (`Like.foldlM_tells`). Every index the
decision uses lies inside the row and the text.
-/

namespace ContentReplica.Like

/-- A text matches a pattern. -/
inductive Matches : List Char → List Char → Prop
  | nil : Matches [] []
  /-- `%` stands for any run of characters. -/
  | run {p t : List Char} (u : List Char) : Matches p t → Matches ('%' :: p) (u ++ t)
  /-- `_` stands for one character. -/
  | single {p t : List Char} (c : Char) : Matches p t → Matches ('_' :: p) (c :: t)
  /-- Behind a backslash a character stands for itself. -/
  | escaped {p t : List Char} (c : Char) : Matches p t → Matches ('\\' :: c :: p) (c :: t)
  /-- A backslash at the end stands for itself. -/
  | backslash : Matches ['\\'] ['\\']
  /-- Any other character stands for itself. -/
  | plain {p t : List Char} {c : Char} : c ≠ '%' → c ≠ '_' → c ≠ '\\' → Matches p t →
    Matches (c :: p) (c :: t)

/-! ## Tokens -/

/-- A token stands for a text. -/
def Token.Takes : Token → List Char → Prop
  | .any, _ => True
  | .one, u => ∃ c, u = [c]
  | .lit c, u => u = [c]

/-- A text is made of texts that the tokens stand for. -/
def Fits : List Token → List Char → Prop
  | [], t => t = []
  | k :: ts, t => ∃ u v, t = u ++ v ∧ k.Takes u ∧ Fits ts v

section
variable {ts ts' : List Token} {k : Token} {c : Char} {t : List Char}

@[simp] theorem fits_nil : Fits [] t ↔ t = [] := Iff.rfl

@[simp] theorem fits_any : Fits (.any :: ts) t ↔ ∃ u v, t = u ++ v ∧ Fits ts v := by
  simp [Fits, Token.Takes]

@[simp] theorem fits_one : Fits (.one :: ts) t ↔ ∃ c v, t = c :: v ∧ Fits ts v := by
  constructor
  · rintro ⟨_, v, rfl, ⟨c, rfl⟩, hv⟩
    exact ⟨c, v, rfl, hv⟩
  · rintro ⟨c, v, rfl, hv⟩
    exact ⟨[c], v, rfl, ⟨c, rfl⟩, hv⟩

@[simp] theorem fits_lit : Fits (.lit c :: ts) t ↔ ∃ v, t = c :: v ∧ Fits ts v := by
  constructor
  · rintro ⟨_, v, rfl, rfl, hv⟩
    exact ⟨v, rfl, hv⟩
  · rintro ⟨v, rfl, hv⟩
    exact ⟨[c], v, rfl, rfl, hv⟩

/-- What tokens fit is cut where they are cut. -/
theorem fits_append : Fits (ts ++ ts') t ↔ ∃ u v, t = u ++ v ∧ Fits ts u ∧ Fits ts' v := by
  induction ts generalizing t with
  | nil =>
    constructor
    · exact fun h => ⟨[], t, rfl, rfl, h⟩
    · rintro ⟨_, v, rfl, rfl, hv⟩
      exact hv
  | cons k ts ih =>
    rw [List.cons_append, Fits]
    constructor
    · rintro ⟨u, _, rfl, hu, hv⟩
      obtain ⟨v, w, rfl, hv, hw⟩ := ih.1 hv
      exact ⟨u ++ v, w, by simp, ⟨u, v, rfl, hu, hv⟩, hw⟩
    · rintro ⟨_, w, rfl, ⟨u, v, rfl, hu, hv⟩, hw⟩
      exact ⟨u, v ++ w, by simp, hu, ih.2 ⟨v, w, rfl, hv, hw⟩⟩

/-- A character without a meaning of its own is a token. -/
theorem tokens_plain {rest : List Char} (h1 : c ≠ '%') (h2 : c ≠ '_') (h3 : c ≠ '\\') :
    tokens (c :: rest) = .lit c :: tokens rest := by
  rw [tokens]
  all_goals simp_all

/-- The tokens of a pattern fit the texts that the pattern matches. -/
theorem fits_tokens {p : List Char} : Fits (tokens p) t ↔ Matches p t := by
  constructor
  · intro h
    induction p using tokens.induct generalizing t with
    | case1 => simp_all [tokens, Matches.nil]
    | case2 rest ih =>
      obtain ⟨u, v, rfl, hv⟩ := fits_any.1 h
      exact .run u (ih hv)
    | case3 rest ih =>
      obtain ⟨c, v, rfl, hv⟩ := fits_one.1 h
      exact .single c (ih hv)
    | case4 =>
      obtain ⟨v, rfl, rfl⟩ := fits_lit.1 h
      exact .backslash
    | case5 c rest ih =>
      obtain ⟨v, rfl, hv⟩ := fits_lit.1 h
      exact .escaped c (ih hv)
    | case6 c rest h1 h2 h3 h4 ih =>
      have hback : c ≠ '\\' := by
        rintro rfl
        cases rest with
        | nil => exact h3 rfl rfl
        | cons d rest => exact h4 d rest rfl rfl
      rw [tokens_plain h1 h2 hback] at h
      obtain ⟨v, rfl, hv⟩ := fits_lit.1 h
      exact .plain h1 h2 hback (ih hv)
  · intro h
    induction h with
    | nil => simp [tokens]
    | run u _ ih => exact fits_any.2 ⟨u, _, rfl, ih⟩
    | single c _ ih => exact fits_one.2 ⟨c, _, rfl, ih⟩
    | escaped c _ ih => exact fits_lit.2 ⟨_, rfl, ih⟩
    | backslash => simp [tokens]
    | plain h1 h2 h3 _ ih => exact tokens_plain h1 h2 h3 ▸ fits_lit.2 ⟨_, rfl, ih⟩

/-- What a last token takes is the end of the text. -/
theorem fits_concat_take {j : Nat} (hj : j ≤ t.length) :
    Fits (ts ++ [k]) (t.take j) ↔ ∃ i ≤ j, Fits ts (t.take i) ∧ k.Takes ((t.take j).drop i) := by
  rw [fits_append]
  constructor
  · rintro ⟨u, v, hcut, hu, w, _, rfl, hw, rfl⟩
    rw [List.append_nil] at hcut
    have hlen : u.length ≤ j := by
      have := congrArg List.length hcut
      simp at this
      omega
    have htake : t.take u.length = u := by
      have hcut' := congrArg (List.take u.length) hcut
      rwa [List.take_take, Nat.min_eq_left hlen, List.take_left] at hcut'
    refine ⟨u.length, hlen, by rwa [htake], ?_⟩
    rwa [hcut, List.drop_left]
  · rintro ⟨i, hi, hu, hv⟩
    have htake : (t.take j).take i = t.take i := by rw [List.take_take, Nat.min_eq_left hi]
    refine ⟨t.take i, (t.take j).drop i, ?_, hu, _, [], by simp, hv, rfl⟩
    rw [← htake, List.take_append_drop]

end

/-! ## Rows -/

/-- Writing inside a row succeeds. -/
theorem write?_of_lt {row : Array Bool} {j : Nat} (h : j < row.size) (b : Bool) :
    write? row j b = some (row.setIfInBounds j b) := if_pos h

/-- Entries that are computed from the one before are written in their places. `f i` is the entry in
front of index `i`. -/
theorem fill?_eq (entry : Bool → Nat → Option Bool) (f : Nat → Bool) :
    ∀ (count j : Nat) (row : Array Bool), j + count ≤ row.size →
      (∀ i, j ≤ i → i < j + count → entry (f i) i = some (f (i + 1))) →
      ∃ filled, fill? entry (f j) j count row = some filled ∧ filled.size = row.size ∧
        ∀ i, filled[i]? = if j ≤ i ∧ i < j + count then some (f (i + 1)) else row[i]?
  | 0, j, row, _, _ => ⟨row, rfl, rfl, fun i => by rw [if_neg (by omega)]⟩
  | count + 1, j, row, hsize, hentry => by
    obtain ⟨filled, hfill, hlen, hget⟩ := fill?_eq entry f count (j + 1)
      (row.setIfInBounds j (f (j + 1))) (by simp; omega)
      (fun i h1 h2 => hentry i (by omega) (by omega))
    refine ⟨filled, ?_, by simpa using hlen, fun i => ?_⟩
    · rw [fill?, hentry j (by omega) (by omega), Option.bind_eq_bind, Option.bind_some,
        write?_of_lt (by omega)]
      exact hfill
    · rw [hget, Array.getElem?_setIfInBounds]
      by_cases hij : j = i
      · subst hij
        rw [if_neg (by omega), if_pos rfl, if_pos (by omega), if_pos (by omega)]
      · rw [if_neg hij]
        exact if_congr (by omega) rfl rfl

/-- No entry of a blank row holds. -/
theorem blank_getElem? {text : Array Char} {j : Nat} (hj : j ≤ text.size) :
    (blank text)[j]? = some false := by
  rw [blank, Array.getElem?_replicate, if_pos (by omega)]

/-- Entries behind the first that do not depend on each other are written in their places. -/
theorem fill?_blank (text : Array Char) (entry : Nat → Option Bool) (g : Nat → Bool)
    (hentry : ∀ j < text.size, entry (j + 1) = some (g j)) :
    ∃ next, fill? (fun _ => entry) false 1 text.size (blank text) = some next ∧
      next.size = text.size + 1 ∧ next[0]? = some false ∧
      ∀ j < text.size, next[j + 1]? = some (g j) := by
  -- the first entry is not written, and it is the one in front of index 1
  let f : Nat → Bool
    | j + 2 => g j
    | _ => false
  obtain ⟨next, hfill, hsize, hget⟩ := fill?_eq (fun _ => entry) f text.size 1 (blank text)
    (by simp [blank]; omega) fun i h1 hi => by
      obtain ⟨j, rfl⟩ := Nat.exists_eq_add_of_le' h1
      exact hentry j (by omega)
  refine ⟨next, hfill, by simpa [blank] using hsize, ?_, fun j hj => ?_⟩
  · rw [hget, if_neg (by omega), blank_getElem? (by omega)]
  · rw [hget, if_pos (by omega)]

/-- A row tells which beginnings of the text the tokens fit. -/
structure Tells (text : Array Char) (ts : List Token) (row : Array Bool) : Prop where
  size : row.size = text.size + 1
  entry : ∀ {j}, j ≤ text.size → (row[j]? = some true ↔ Fits ts (text.toList.take j))

section
variable {text : Array Char} {ts : List Token} {k : Token} {row : Array Bool}

/-- A row has an entry for every beginning of the text. -/
theorem Tells.exists_entry (h : Tells text ts row) (j : Nat) (hj : j ≤ text.size) :
    ∃ b, row[j]? = some b := by
  have := h.size
  exact ⟨row[j], Array.getElem?_eq_getElem (by omega)⟩

/-- The row before any token tells that the empty beginning alone fits no tokens. -/
theorem start?_tells (text : Array Char) : ∃ row, start? text = some row ∧ Tells text [] row := by
  refine ⟨(blank text).setIfInBounds 0 true, write?_of_lt (by simp [blank]) true,
    by simp [blank], fun {j} hj => ?_⟩
  cases j with
  | zero => simp [blank]
  | succ j =>
    have hne : text ≠ #[] := by
      rintro rfl
      simp at hj
    simp [blank_getElem? hj, hne]

/-- After `%` an entry holds if one up to it did. -/
theorem step?_any (h : Tells text ts row) :
    ∃ next, step? text row .any = some next ∧ Tells text (ts ++ [.any]) next := by
  -- the running truth value in front of index `j`
  let reached (j : Nat) : Bool := decide (∃ i < j, row[i]? = some true)
  obtain ⟨next, hfill, hsize, hget⟩ := fill?_eq (fun reached j => do return reached || (← row[j]?))
    reached (text.size + 1) 0 (blank text) (by simp [blank]) fun i _ hi => by
      obtain ⟨b, hb⟩ := h.exists_entry i (by omega)
      have hreached : reached (i + 1) = (reached i || b) := by
        simp only [reached, Nat.exists_lt_succ_right, hb, Option.some.injEq, Bool.decide_or,
          Bool.decide_eq_true]
      rw [hreached, hb]
      rfl
  refine ⟨next, hfill, by simpa [blank] using hsize, fun {j} hj => ?_⟩
  rw [hget, if_pos (by omega), fits_concat_take (by simpa using hj)]
  simp only [reached, Option.some.injEq, decide_eq_true_eq, Token.Takes, and_true]
  constructor
  · rintro ⟨i, hi, hrow⟩
    exact ⟨i, by omega, (h.entry (by omega)).1 hrow⟩
  · rintro ⟨i, hi, hfits⟩
    exact ⟨i, by omega, (h.entry (by omega)).2 hfits⟩

/-- After a token for one character an entry holds if the one in front of it did and the token
stands for the character between them. -/
theorem Tells.concat {next : Array Bool} {g : Nat → Bool} (h : Tells text ts row)
    (hk : ∀ u, k.Takes u → u.length = 1) (hsize : next.size = text.size + 1)
    (hzero : next[0]? = some false) (hget : ∀ j < text.size, next[j + 1]? = some (g j))
    (hg : ∀ j (hj : j < text.size), g j = true ↔ row[j]? = some true ∧ k.Takes [text[j]]) :
    Tells text (ts ++ [k]) next := by
  refine ⟨hsize, fun {j} hj => ?_⟩
  rw [fits_concat_take (by simpa using hj)]
  cases j with
  | zero =>
    rw [hzero]
    refine ⟨nofun, fun ⟨i, _, _, htake⟩ => ?_⟩
    have := hk _ htake
    simp at this
  | succ j =>
    have hlast : (text.toList.take (j + 1)).drop j = [text[j]] := by
      rw [List.drop_take, List.drop_eq_getElem_cons (by simp; omega)]
      simp
    rw [hget j (by omega), Option.some.injEq, hg j (by omega), h.entry (by omega)]
    constructor
    · rintro ⟨hfits, htakes⟩
      exact ⟨j, by omega, hfits, hlast ▸ htakes⟩
    · rintro ⟨i, hi, hfits, htakes⟩
      have hlen := hk _ htakes
      obtain rfl : i = j := by
        simp at hlen
        omega
      exact ⟨hfits, hlast ▸ htakes⟩

/-- The entries after `_` are those in front of them. -/
theorem step?_one (h : Tells text ts row) :
    ∃ next, step? text row .one = some next ∧ Tells text (ts ++ [.one]) next := by
  obtain ⟨next, hfill, hsize, hzero, hget⟩ := fill?_blank text (before? row)
    (fun j => row[j]?.getD false) fun j hj => by
      obtain ⟨b, hb⟩ := h.exists_entry j (by omega)
      simp [before?, hb]
  refine ⟨next, hfill, h.concat ?_ hsize hzero hget fun j hj => ?_⟩
  · rintro _ ⟨c, rfl⟩
    rfl
  · obtain ⟨b, hb⟩ := h.exists_entry j (by omega)
    simp [hb, Token.Takes]

/-- The entries after a literal are those in front of them whose character follows. -/
theorem step?_lit (h : Tells text ts row) (c : Char) :
    ∃ next, step? text row (.lit c) = some next ∧ Tells text (ts ++ [.lit c]) next := by
  obtain ⟨next, hfill, hsize, hzero, hget⟩ := fill?_blank text
    (fun j => do if ← before? row j then return (← before? text j) == c else return false)
    (fun j => row[j]?.getD false && text[j]? == some c) fun j hj => by
      obtain ⟨b, hb⟩ := h.exists_entry j (by omega)
      simp [before?, hb, hj]
      cases b <;> simp
  refine ⟨next, hfill, h.concat ?_ hsize hzero hget fun j hj => ?_⟩
  · rintro _ rfl
    rfl
  · obtain ⟨b, hb⟩ := h.exists_entry j (by omega)
    simp [hb, hj, Token.Takes]

/-- A token keeps that the row tells what the tokens fit. -/
theorem step?_tells (h : Tells text ts row) (k : Token) :
    ∃ next, step? text row k = some next ∧ Tells text (ts ++ [k]) next := by
  cases k with
  | any => exact step?_any h
  | one => exact step?_one h
  | lit c => exact step?_lit h c

/-- The tokens of a pattern keep it one after the other. -/
theorem foldlM_tells (h : Tells text ts row) (ts' : List Token) :
    ∃ last, ts'.foldlM (step? text) row = some last ∧ Tells text (ts ++ ts') last := by
  induction ts' generalizing ts row with
  | nil => exact ⟨row, rfl, by rwa [List.append_nil]⟩
  | cons k ts' ih =>
    obtain ⟨next, hstep, hnext⟩ := step?_tells h k
    obtain ⟨last, hlast, htells⟩ := ih hnext
    refine ⟨last, ?_, by simpa using htells⟩
    rw [List.foldlM_cons, hstep]
    exact hlast

end

/-- The decision has an answer: whether the tokens fit the text. -/
theorem matchTokens?_eq (text : List Char) (ts : List Token) :
    ∃ b, matchTokens? text.toArray ts = some b ∧ (b = true ↔ Fits ts text) := by
  obtain ⟨first, hstart, hfirst⟩ := start?_tells text.toArray
  obtain ⟨last, hfold, hlast⟩ := foldlM_tells hfirst ts
  obtain ⟨b, hb⟩ := hlast.exists_entry _ (Nat.le_refl _)
  refine ⟨b, ?_, ?_⟩
  · simpa [matchTokens?, hstart, hfold] using hb
  · have hfits := hlast.entry (Nat.le_refl _)
    rw [hb, Option.some.injEq] at hfits
    simpa using hfits

/-- A text matches if the tokens of the pattern fit it, upper and lower case alike. -/
theorem holds_iff_fits (text pattern : String) :
    holds text pattern = true ↔
      Fits (tokens (Text.lowerChars pattern.toList)) (Text.lowerChars text.toList) := by
  obtain ⟨b, hb, hfits⟩ := matchTokens?_eq (Text.lowerChars text.toList)
    (tokens (Text.lowerChars pattern.toList))
  rw [holds, decide?, hb, Option.getD_some, hfits]

/-- The decision has an answer for every text and pattern, so no index lies outside the row or the
text, and the answer is whether the text matches the pattern when both are in lower case. -/
theorem decide?_matches (text pattern : String) :
    decide? text pattern = some (holds text pattern) ∧
      (holds text pattern = true ↔
        Matches (Text.lowerChars pattern.toList) (Text.lowerChars text.toList)) := by
  obtain ⟨b, hb, -⟩ := matchTokens?_eq (Text.lowerChars text.toList)
    (tokens (Text.lowerChars pattern.toList))
  refine ⟨?_, (holds_iff_fits text pattern).trans fits_tokens⟩
  rw [holds, decide?, hb, Option.getD_some]

/-- The wildcard `_` takes the one character between, a literal one does not take another. -/
example : holds "AxB" "a_b" = true ∧ holds "axb" "a\\_b" = false := by decide

end ContentReplica.Like
