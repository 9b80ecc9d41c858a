import ContentReplica.Proofs.Store.Patterns
import ContentReplica.Query.Literal
import ContentReplica.Text.Split

/-!
# Wildcard searches

A search is cut at its stars into pieces, and it finds a text in which the pieces stand in their
order, with any texts before, between and behind them. The pattern of a search escapes the signs of
patterns before it is put into lower case. Lower case keeps every sign and makes none
(`Text.lowerChar_sign`, `Text.eq_of_sign_mem_lowerChar`), so an escaped sign stays behind its
backslash, and the tokens of the pattern are the pieces, each between runs of any characters
(`Literal.tokens_pattern`).
-/

namespace ContentReplica

namespace Text

/-- A list without the separator is a single piece. -/
theorem pieces_of_not_mem {α : Type} [DecidableEq α] {sep : α} {xs : List α} (h : sep ∉ xs) :
    pieces sep xs = [xs] := by
  rw [pieces_eq_splitOn, List.splitOn_eq_singleton h]

/-! ## Signs in lower case -/

/-- The characters that mean something in a search or a pattern. -/
def signs : List Char := ['%', '_', '\\', '*']

/-- The signs are the wildcards of patterns, their escape, and the star of a search. -/
theorem mem_signs {c : Char} : c ∈ signs ↔ c = '%' ∨ c = '_' ∨ c = '\\' ∨ c = '*' := by
  simp [signs]

/-- The signs lie between the character of code 0 and the lower-case letters. -/
theorem code_of_mem_signs {c : Char} (h : c ∈ signs) : 0 < c.toNat ∧ c.toNat ≤ 0x5F := by
  obtain rfl | rfl | rfl | rfl := mem_signs.1 h <;> decide

/-- A code above the signs is not that of a sign. -/
theorem ofNat_not_mem_signs {n : Nat} (h : 0x5F < n) : Char.ofNat n ∉ signs := by
  by_cases hvalid : n.isValidChar
  · intro hmem
    rw [Char.ofNat, dif_pos hvalid] at hmem
    have hle : n ≤ 0x5F := (code_of_mem_signs hmem).2
    exact absurd h (Nat.not_lt.2 hle)
  · rw [Char.ofNat, dif_neg hvalid]
    decide

/-- The lower-case forms beyond ASCII lie above the signs. -/
theorem code_of_mem_caseRuns : ∀ r ∈ caseRuns, (0x5F : Int) < r.first + r.offset := by
  decide +kernel

@[simp] theorem lowerChars_cons (c : Char) (cs : List Char) :
    lowerChars (c :: cs) = lowerChar c ++ lowerChars cs := rfl

@[simp] theorem lowerChars_append (cs ds : List Char) :
    lowerChars (cs ++ ds) = lowerChars cs ++ lowerChars ds := List.flatMap_append

/-- A sign is its own lower case. -/
theorem lowerChar_sign {c : Char} (h : c ∈ signs) : lowerChar c = [c] := by
  obtain rfl | rfl | rfl | rfl := mem_signs.1 h <;> rfl

/-- No other character has a sign in its lower case. -/
theorem eq_of_sign_mem_lowerChar {c d : Char} (hd : d ∈ signs) (h : d ∈ lowerChar c) : d = c := by
  unfold lowerChar at h
  dsimp only at h
  split at h
  · split at h
    · rename_i hupper
      have hcode : 65 ≤ c.toNat := UInt32.le_iff_toNat_le.1 hupper.1
      rw [List.mem_singleton.1 h] at hd
      exact absurd hd (ofNat_not_mem_signs (by omega))
    · exact List.mem_singleton.1 h
  · split at h
    · obtain rfl | h := List.mem_cons.1 h
      · exact absurd hd (by decide)
      · rw [List.mem_singleton.1 h] at hd
        exact absurd hd (ofNat_not_mem_signs (by omega))
    · split at h
      · rename_i r hr
        have hcode := code_of_mem_caseRuns r (List.mem_of_find?_eq_some hr)
        have hfirst := List.find?_some hr
        simp only [CaseRun.holds, Bool.and_eq_true, decide_eq_true_eq] at hfirst
        rw [List.mem_singleton.1 h] at hd
        exact absurd hd (ofNat_not_mem_signs (by omega))
      · exact List.mem_singleton.1 h

end Text

/-! ## The tokens of a search -/

namespace Literal

open Text Like

/-- A character of a search as a token. -/
def searchToken (c : Char) : Token := if c = '*' then .any else .lit c

/-- Characters that are no signs are literal tokens. -/
theorem tokens_append_of_no_sign {cs rest : List Char} (h : ∀ c ∈ cs, c ∉ signs) :
    tokens (cs ++ rest) = cs.map searchToken ++ tokens rest := by
  induction cs with
  | nil => rfl
  | cons c cs ih =>
    obtain ⟨hc, hcs⟩ := List.forall_mem_cons.1 h
    simp only [mem_signs, not_or] at hc
    obtain ⟨h1, h2, h3, h4⟩ := hc
    rw [List.cons_append, tokens_plain h1 h2 h3, ih hcs, List.map_cons, searchToken, if_neg h4,
      List.cons_append]

/-- A character of a search becomes the tokens of its lower case. -/
theorem tokens_patternChars (c : Char) (rest : List Char) :
    tokens (lowerChars (patternChars c) ++ rest)
      = (lowerChar c).map searchToken ++ tokens rest := by
  by_cases h : c ∈ signs
  -- what is written for a sign, a backslash or a run, is its own lower case
  · rw [lowerChar_sign h]
    obtain rfl | rfl | rfl | rfl := mem_signs.1 h <;> rfl
  · have hplain : patternChars c = [c] := by
      simp_all [patternChars, mem_signs]
    rw [hplain, lowerChars, List.flatMap_singleton]
    -- the lower case may be more than one character, but none of them is a sign
    refine tokens_append_of_no_sign fun d hd hsign => h ?_
    rwa [← eq_of_sign_mem_lowerChar hsign hd]

/-- A search becomes the tokens of its lower case, one for each character. -/
theorem tokens_search (raw rest : List Char) :
    tokens (lowerChars (raw.flatMap patternChars) ++ rest)
      = (lowerChars raw).map searchToken ++ tokens rest := by
  induction raw with
  | nil => rfl
  | cons c raw ih =>
    rw [List.flatMap_cons, lowerChars_append, List.append_assoc, tokens_patternChars, ih,
      lowerChars_cons, List.map_append, List.append_assoc]

/-- The tokens of a search with a run behind it are those of its pieces, each with a run behind
it. -/
theorem map_searchToken (cs : List Char) :
    cs.map searchToken ++ [.any]
      = (pieces '*' cs).flatMap fun piece => piece.map .lit ++ [.any] := by
  induction cs with
  | nil => rfl
  | cons c cs ih =>
    rw [pieces, List.map_cons, List.cons_append, ih, searchToken]
    split
    · simp
    · cases hp : pieces '*' cs with
      | nil => exact absurd hp (pieces_ne_nil _ _)
      | cons piece more => simp

/-- The pattern of a search: its pieces in lower case with runs of any characters around them. -/
theorem tokens_pattern (raw : String) :
    tokens (lowerChars (pattern raw).toList)
      = .any :: (pieces '*' (lowerChars raw.toList)).flatMap fun piece =>
          piece.map .lit ++ [.any] := by
  have hrun : lowerChars ['%'] = ['%'] := rfl
  rw [pattern, String.toList_ofList, lowerChars_cons, lowerChars_append, hrun, ← map_searchToken,
    lowerChar_sign (by decide), List.singleton_append, tokens, tokens_search]
  rfl

/-! ## What a search finds -/

/-- Literal tokens stand for their characters. -/
theorem fits_map_lit {p t : List Char} {ts : List Token} :
    Fits (p.map .lit ++ ts) t ↔ ∃ v, t = p ++ v ∧ Fits ts v := by
  induction p generalizing t with
  | nil => simp
  | cons c p ih =>
    simp only [List.map_cons, List.cons_append, fits_lit, ih]
    constructor
    · rintro ⟨_, rfl, v, rfl, hv⟩
      exact ⟨v, rfl, hv⟩
    · rintro ⟨v, rfl, hv⟩
      exact ⟨p ++ v, rfl, v, rfl, hv⟩

/-- Pieces with runs of any characters around them fit a text in which they stand in order. -/
theorem fits_pieces {ps : List (List Char)} {t : List Char} :
    Fits (.any :: ps.flatMap fun piece => piece.map .lit ++ [.any]) t ↔
      ∃ (gap : List Char) (gaps : List (List Char)), gaps.length = ps.length ∧
        t = gap ++ (List.zipWith (· ++ ·) ps gaps).flatten := by
  induction ps generalizing t with
  | nil => simp
  | cons p ps ih =>
    rw [fits_any, List.flatMap_cons]
    simp only [List.append_assoc, fits_map_lit, List.singleton_append, ih]
    constructor
    · rintro ⟨gap, _, rfl, _, rfl, gap', gaps, hlen, rfl⟩
      exact ⟨gap, gap' :: gaps, by simpa using hlen, by simp⟩
    · rintro ⟨gap, _ | ⟨gap', gaps⟩, hlen, rfl⟩
      · simp at hlen
      · exact ⟨gap, _, by simp, _, rfl, gap', gaps, by simpa using hlen, rfl⟩

/-- A search without a star is one piece, in lower case too. -/
theorem pieces_lowerChars {raw : List Char} (h : '*' ∉ raw) :
    pieces '*' (lowerChars raw) = [lowerChars raw] := by
  refine pieces_of_not_mem fun hmem => h ?_
  obtain ⟨c, hc, hstar⟩ := List.mem_flatMap.1 hmem
  rwa [eq_of_sign_mem_lowerChar (by decide) hstar]

/-- A search finds a text in which its pieces between the stars stand in their order, upper and
lower case alike, with any texts before, between and behind them. Without a star it finds the texts
that have it as a part, so a sign of patterns in a search stands for itself. -/
theorem search_finds (text raw : String) :
    (Like.holds text (pattern raw) = true ↔
      ∃ (gap : List Char) (gaps : List (List Char)),
        gaps.length = (pieces '*' (lowerChars raw.toList)).length ∧
        lowerChars text.toList
          = gap ++ (List.zipWith (· ++ ·) (pieces '*' (lowerChars raw.toList)) gaps).flatten) ∧
    ('*' ∉ raw.toList →
      (Like.holds text (pattern raw) = true ↔
        lowerChars raw.toList <:+: lowerChars text.toList)) := by
  have hfinds := holds_iff_fits text (pattern raw)
  rw [tokens_pattern, fits_pieces] at hfinds
  refine ⟨hfinds, fun hstar => hfinds.trans ?_⟩
  rw [pieces_lowerChars hstar]
  constructor
  · rintro ⟨gap, gaps, hlen, htext⟩
    obtain ⟨gap', rfl⟩ := List.length_eq_one_iff.1 hlen
    exact ⟨gap, gap', by simp [htext]⟩
  · rintro ⟨gap, gap', htext⟩
    exact ⟨gap, [gap'], rfl, by simp [← htext]⟩

/-- A percent sign and a bar in a search are found as they are, and only so; a star is any text, and
a dotted `İ` is found by its lower case of two characters. -/
theorem search_finds_catalog :
    '*' ∉ "50%_o".toList ∧
    Like.holds "Now 50%_OFF" (pattern "50%_o") = true ∧
    Like.holds "Now 50 on offer" (pattern "50%_o") = false ∧
    Like.holds "ISTANBUL, İzmir" (pattern "is*l*İz") = true := by
  have hstar : '*' ∉ "50%_o".toList := by decide
  have hfound := (search_finds "Now 50%_OFF" "50%_o").2 hstar
  have hmissed := (search_finds "Now 50 on offer" "50%_o").2 hstar
  have hgaps := (search_finds "ISTANBUL, İzmir" "is*l*İz").1
  refine ⟨hstar, ?_, Bool.eq_false_iff.2 fun h => ?_, ?_⟩
  · exact hfound.2 ⟨"now ".toList, "ff".toList, by decide⟩
  · have hsign : '%' ∈ lowerChars "50%_o".toList := by decide
    exact absurd ((hmissed.1 h).subset hsign) (by decide)
  · exact hgaps.2 ⟨[], ["tanbu".toList, ", ".toList, "mir".toList], rfl, by decide⟩

end Literal

end ContentReplica
