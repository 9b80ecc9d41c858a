import ContentReplica.Proofs.Sql.Suffix

/-!
# Names of any text

`Ident.sanitize` makes a plain name of any text: snake case leaves only characters that may stand in a
name, and the three repairs after it (a name for bars, a bar before a digit, a tag for what is too long)
keep that and do not undo each other. A plain name with a letter or a digit passes through all of them
as it is, so that naming a name again changes nothing and a suffix that leaves a plain name is appended
(`Ident.sanitize_stable`). The program cuts a long name after a number of bytes; no character is split
there, because every character of the name is one byte (`Ident.cutInBytes?_unshortened`).
-/

namespace ContentReplica

/-! ## The digest -/

namespace Blake3

/-- Cutting a list leaves at least one part. -/
theorem parts_ne_nil {α : Type} (size : Nat) (xs : List α) : parts size xs ≠ [] := by
  unfold parts parts.go
  split
  · exact List.cons_ne_nil _ _
  · exact List.cons_ne_nil _ _

/-- Merging a level halves the number of nodes, an odd one out counted as a pair. -/
theorem length_mergeLevel (nodes : List Node) :
    (mergeLevel nodes).length = (nodes.length + 1) / 2 := by
  fun_induction mergeLevel nodes with
  | case1 a b rest ih =>
    simp only [List.length_cons, ih]
    omega
  | case2 nodes hshort =>
    match nodes, hshort with
    | [], _ => simp
    | [_], _ => simp
    | a :: b :: rest, hshort => exact absurd rfl (hshort a b rest)

/-- A list that is neither empty nor a single node has two nodes. -/
theorem two_le_length {nodes : List Node} (hnil : nodes ≠ []) (hone : ∀ node, nodes ≠ [node]) :
    2 ≤ nodes.length := by
  match nodes, hnil, hone with
  | [], hnil, _ => exact absurd rfl hnil
  | [node], _, hone => exact absurd rfl (hone node)
  | _ :: _ :: _, _, _ => simp

/-- As many levels as there are nodes are enough to reach a root. -/
theorem exists_root {fuel : Nat} {nodes : List Node} (hne : nodes ≠ [])
    (hfuel : nodes.length ≤ fuel + 1) : ∃ root, mergeAll fuel nodes = some root := by
  fun_induction mergeAll fuel nodes with
  | case1 => exact absurd rfl hne
  | case2 fuel node => exact ⟨node, rfl⟩
  | case3 nodes hnil hone =>
    have htwo := two_le_length hnil hone
    omega
  | case4 fuel nodes hnil hone ih =>
    have htwo := two_le_length hnil hone
    have hlength := length_mergeLevel nodes
    refine ih ?_ (by omega)
    intro hmerged
    rw [hmerged, List.length_nil] at hlength
    omega

/-- A digest is 32 bytes long. -/
theorem length_hash (bytes : List UInt8) : (hash bytes).length = 32 := by
  have hne : (parts 1024 bytes).mapIdx (fun i chunk =>
      chunkNode (UInt64.ofNat i) initial chunkStart (parts 64 chunk)) ≠ [] := by
    simpa using parts_ne_nil 1024 bytes
  obtain ⟨root, hroot⟩ := exists_root hne (Nat.le_succ _)
  simp only [hash, hroot]
  simp [List.length_flatMap, wordBytes]

end Blake3

namespace Ident

/-- A lower-case hexadecimal digit. -/
def IsHexDigit (c : Char) : Prop := isDigitChar c = true ∨ 'a' ≤ c ∧ c ≤ 'f'

instance (c : Char) : Decidable (IsHexDigit c) := inferInstanceAs (Decidable (_ ∨ _))

/-- The digit of a number below sixteen is a hexadecimal digit, may stand in a name and is no bar. -/
theorem digitChar_spec {n : Nat} (h : n < 16) :
    IsHexDigit (Nat.digitChar n) ∧ isPart (Nat.digitChar n) = true ∧ Nat.digitChar n ≠ '_' := by
  have hall : ∀ m < 16, IsHexDigit (Nat.digitChar m) ∧ isPart (Nat.digitChar m) = true ∧
      Nat.digitChar m ≠ '_' := by decide
  exact hall n h

/-- A tag has eight characters. -/
theorem length_tag (raw : String) : (tag raw).length = 8 := by
  simp [tag, List.length_flatMap, Blake3.hexByte, Blake3.length_hash]

/-- The characters of a tag are hexadecimal digits, which may stand in a name and are no bars. -/
theorem tag_spec {raw : String} {c : Char} (h : c ∈ tag raw) :
    IsHexDigit c ∧ isPart c = true ∧ c ≠ '_' := by
  obtain ⟨byte, -, hbyte⟩ := List.mem_flatMap.1 h
  have hbound := byte.toNat_lt
  simp only [Blake3.hexByte, List.mem_cons, List.not_mem_nil, or_false] at hbyte
  rcases hbyte with rfl | rfl
  · exact digitChar_spec (by omega)
  · exact digitChar_spec (by omega)

/-! ## Characters of a name -/

/-- The lower-case form of an upper-case letter may stand in a name. -/
theorem isPart_toLower {c : Char} (h : isUpper c = true) : isPart (toLower c) = true := by
  have hall : ∀ n ≤ 90, 65 ≤ n → isPart (Char.ofNat (n + 32)) = true := by decide
  simp only [isUpper, Bool.and_eq_true, decide_eq_true_eq, Char.le_def, UInt32.le_iff_toNat_le] at h
  exact hall c.toNat h.2 h.1

/-- Snake case leaves only characters that may stand in a name. -/
theorem isPart_of_mem_snake (afterWord afterBar : Bool) (cs : List Char) :
    ∀ c ∈ snake afterWord afterBar cs, isPart c = true := by
  have hbar : isPart '_' = true := by decide
  -- one case for each kind of character and what was written before it
  fun_induction snake afterWord afterBar cs with
  | case1 => simp
  | case2 _ c rest hupper ih =>
    exact List.forall_mem_cons.2 ⟨hbar, List.forall_mem_cons.2 ⟨isPart_toLower hupper, ih⟩⟩
  | case3 _ _ c rest hupper _ ih => exact List.forall_mem_cons.2 ⟨isPart_toLower hupper, ih⟩
  | case4 _ _ c rest _ hword ih =>
    have hpart : isPart c = true := by
      rw [isPart, hword, Bool.true_or]
    exact List.forall_mem_cons.2 ⟨hpart, ih⟩
  | case5 _ _ rest _ _ ih => exact List.forall_mem_cons.2 ⟨hbar, ih⟩
  | case6 _ _ _ _ _ _ ih => exact ih
  | case7 _ _ _ _ _ _ _ _ ih => exact List.forall_mem_cons.2 ⟨hbar, ih⟩

/-- A character that may stand in a name is one byte. -/
theorem utf8Size_of_isPart {c : Char} (h : isPart c = true) : c.utf8Size = 1 := by
  rw [Char.utf8Size_eq_one_iff]
  simp only [isPart, isLower, isDigitChar, Bool.or_eq_true, Bool.and_eq_true, decide_eq_true_eq,
    Char.le_def, UInt32.le_iff_toNat_le] at h ⊢
  have : 'z'.val.toNat = 122 ∧ '9'.val.toNat = 57 ∧ '_'.val.toNat = 95 := ⟨rfl, rfl, rfl⟩
  have hmax : (127 : UInt32).toNat = 127 := rfl
  rcases h with (h | h) | rfl
  · omega
  · omega
  · omega

/-- A text whose characters may stand in a name has as many bytes as characters. -/
theorem utf8ByteSize_of_parts {cs : List Char} (h : ∀ c ∈ cs, isPart c = true) :
    (String.ofList cs).utf8ByteSize = cs.length := by
  rw [String.utf8ByteSize_ofList]
  induction cs with
  | nil => rfl
  | cons c cs ih =>
    obtain ⟨hc, hcs⟩ := List.forall_mem_cons.1 h
    rw [String.utf8Len_cons, utf8Size_of_isPart hc, ih hcs, List.length_cons]

/-! ## The repairs -/

/-- A name that is only too long: it begins as a name may begin, goes on with what may stand in a name
and is not made of bars alone. -/
def Sound (cs : List Char) : Prop :=
  (∃ c ∈ cs.head?, isStart c = true) ∧ (∀ c ∈ cs, isPart c = true) ∧ ¬ OnlyBars cs

/-- Before it is shortened, the name of any text is sound. -/
theorem sound_unshortened (raw : String) : Sound (unshortened raw) := by
  have hsnake := isPart_of_mem_snake false false raw.toList
  -- the name for bars is sound, any other name is left as snake case gives it
  have hnamed : (∀ c ∈ named (snake false false raw.toList), isPart c = true) ∧
      ¬ OnlyBars (named (snake false false raw.toList)) := by
    by_cases hbars : OnlyBars (snake false false raw.toList)
    · rw [named_of_onlyBars hbars]
      exact ⟨List.all_eq_true.1 (by decide), by decide⟩
    · rw [named_of_not_onlyBars hbars]
      exact ⟨hsnake, hbars⟩
  unfold unshortened
  cases hcs : named (snake false false raw.toList) with
  | nil => exact absurd (hcs ▸ fun c hc => absurd hc List.not_mem_nil) hnamed.2
  | cons c cs =>
    rw [hcs] at hnamed
    obtain ⟨hparts, hbars⟩ := hnamed
    by_cases hdigit : isDigitChar c = true
    · rw [afterDigit, if_pos hdigit]
      refine ⟨⟨'_', rfl, by decide⟩, List.forall_mem_cons.2 ⟨by decide, hparts⟩, fun hall => hbars ?_⟩
      exact (List.forall_mem_cons.1 hall).2
    · rw [afterDigit, if_neg hdigit]
      refine ⟨⟨c, rfl, ?_⟩, hparts, hbars⟩
      have hpart := (List.forall_mem_cons.1 hparts).1
      simp only [isPart, Bool.or_eq_true] at hpart
      rw [isStart, Bool.or_eq_true]
      exact hpart.imp_left fun h => h.resolve_right hdigit

/-- Shortening keeps a name sound, and leaves no more characters than a name may have. -/
theorem sound_shortened (raw : String) {cs : List Char} (h : Sound cs) :
    Sound (shortened raw cs) ∧ (shortened raw cs).length ≤ maxLength := by
  obtain ⟨⟨c, hc, hstart⟩, hparts, hbars⟩ := h
  by_cases hlong : maxLength < cs.length
  · rw [shortened, if_pos hlong]
    refine ⟨⟨⟨c, ?_, hstart⟩, fun d hd => ?_, fun hall => ?_⟩, ?_⟩
    · obtain ⟨rest, rfl⟩ : ∃ rest, cs = c :: rest := List.head?_eq_some_iff.1 hc
      exact rfl
    · rcases List.mem_append.1 hd with hd | hd
      · exact hparts d (List.mem_of_mem_take hd)
      · rcases List.mem_cons.1 hd with rfl | hd
        · decide
        · exact (tag_spec hd).2.1
    · -- the tag holds a character, and it is no bar
      obtain ⟨d, hd⟩ := List.exists_mem_of_length_pos
        (show 0 < (tag raw).length by rw [length_tag]; omega)
      exact (tag_spec hd).2.2 (hall d (by simp [hd]))
    · rw [List.length_append, List.length_take, List.length_cons, length_tag]
      simp only [maxLength] at hlong ⊢
      omega
  · rw [shortened, if_neg hlong]
    exact ⟨⟨⟨c, hc, hstart⟩, hparts, hbars⟩, Nat.not_lt.1 hlong⟩

/-- A sound name that is not too long is plain. -/
theorem isPlain_of_sound {s : String} (h : Sound s.toList) (hlength : s.toList.length ≤ maxLength) :
    isPlain s = true := by
  obtain ⟨⟨c, hc, hstart⟩, hparts, -⟩ := h
  have hsize := utf8ByteSize_of_parts hparts
  rw [String.ofList_toList] at hsize
  obtain ⟨rest, hrest⟩ : ∃ rest, s.toList = c :: rest := List.head?_eq_some_iff.1 hc
  rw [hrest] at hparts
  simp only [isPlain, hrest, hstart, Bool.true_and, Bool.and_eq_true, List.all_eq_true,
    decide_eq_true_eq]
  exact ⟨(List.forall_mem_cons.1 hparts).2, by omega⟩

/-- The name of any text is plain and not made of bars alone. -/
theorem sanitize_spec (raw : String) :
    isPlain (sanitize raw).text = true ∧ ¬ OnlyBars (sanitize raw).text.toList := by
  obtain ⟨hsound, hlength⟩ := sound_shortened raw (sound_unshortened raw)
  rw [← toList_sanitize] at hsound hlength
  exact ⟨isPlain_of_sound hsound hlength, hsound.2.2⟩

/-- The name of a plain text is the text itself, except that bars get a name of their own. -/
theorem sanitize_of_plain {s : String} (h : isPlain s = true) :
    (sanitize s).text = s ↔ ¬ OnlyBars s.toList := by
  obtain ⟨⟨c, rest, hcs, hstart⟩, hparts, hlength⟩ := isPlain_spec h
  constructor
  · intro hkept
    rw [← hkept]
    exact (sanitize_spec s).2
  · intro hbars
    have hunshortened : unshortened s = s.toList := by
      rw [unshortened, snake_of_parts hparts, named_of_not_onlyBars hbars, hcs, afterDigit,
        (isStart_spec hstart).2]
      rfl
    refine String.toList_inj.1 ?_
    rw [toList_sanitize_of_le (hunshortened ▸ hlength), hunshortened]

/-! ## Cutting in bytes -/

/-- The first bytes of a text; nothing where they end inside a character. -/
def truncate? (s : String) (bytes : Nat) : Option String :=
  String.fromUTF8? (s.toUTF8.extract 0 bytes)

/-- A name of at most 63 bytes as the program makes it: measured and cut in bytes, so that it can miss
the end of a character. -/
def cutInBytes? (raw name : String) : Option String :=
  let digest := String.ofList (tag raw)
  if maxLength < name.utf8ByteSize then
    (truncate? name (maxLength - digest.utf8ByteSize - 1)).map (· ++ "_" ++ digest)
  else some name

/-- A text is cut between two characters if the bytes are those of its first characters. -/
theorem truncate?_append (s t : String) : truncate? (s ++ t) s.utf8ByteSize = some s := by
  have hbytes : (s ++ t).toUTF8.extract 0 s.utf8ByteSize = s.toUTF8 := by
    rw [String.toUTF8_eq_toByteArray, String.toUTF8_eq_toByteArray, String.toByteArray_append]
    exact ByteArray.extract_append_eq_left String.size_toByteArray.symm
  rw [truncate?, hbytes, String.toUTF8_eq_toByteArray, String.fromUTF8?, dif_pos s.isValidUTF8]
  rfl

/-- No character of a name is split by cutting it, wherever the cut is made. -/
theorem truncate?_of_parts {cs : List Char} (h : ∀ c ∈ cs, isPart c = true) {bytes : Nat}
    (hbytes : bytes ≤ cs.length) :
    truncate? (String.ofList cs) bytes = some (String.ofList (cs.take bytes)) := by
  have htake : (String.ofList (cs.take bytes)).utf8ByteSize = bytes := by
    rw [utf8ByteSize_of_parts fun c hc => h c (List.mem_of_mem_take hc), List.length_take]
    omega
  have hcut := truncate?_append (String.ofList (cs.take bytes)) (String.ofList (cs.drop bytes))
  rwa [htake, ← String.ofList_append, List.take_append_drop] at hcut

/-- Cutting the name of a text in bytes gives what cutting it in characters gives. -/
theorem cutInBytes?_unshortened (raw : String) :
    cutInBytes? raw (String.ofList (unshortened raw)) = some (sanitize raw).text := by
  have hparts := (sound_unshortened raw).2.1
  have htag : (String.ofList (tag raw)).utf8ByteSize = 8 := by
    rw [utf8ByteSize_of_parts fun c hc => (tag_spec hc).2.1, length_tag]
  have hname : (sanitize raw).text = String.ofList (shortened raw (unshortened raw)) := by
    rw [← toList_sanitize, String.ofList_toList]
  simp only [cutInBytes?, hname, shortened, utf8ByteSize_of_parts hparts, htag]
  by_cases hlong : maxLength < (unshortened raw).length
  · have hcut : maxLength - 8 - 1 ≤ (unshortened raw).length := by omega
    simp only [if_pos hlong, truncate?_of_parts hparts hcut, Option.map_some]
    rw [String.append_assoc, String.ofList_append, ← List.singleton_append (l := tag raw),
      String.ofList_append]
  · simp only [if_neg hlong]

/-! ## The whole -/

/-- The name of any text is a plain identifier, and its own name. A plain name is kept exactly when it
is not made of bars alone, so a suffix that leaves a plain name is appended exactly when the whole is
not made of bars. The name is what cutting in bytes gives, which splits no character, and the digest
that ends a long name is eight hexadecimal digits. -/
theorem sanitize_stable (raw : String) :
    new? (sanitize raw).text = .ok (sanitize raw) ∧
      sanitize (sanitize raw).text = sanitize raw ∧
      (∀ s, isPlain s = true → ((sanitize s).text = s ↔ ¬ OnlyBars s.toList)) ∧
      (∀ (i : Ident) (suffix : String), isPlain (i.text ++ suffix) = true →
        ((i.withSuffix suffix).text = i.text ++ suffix ↔ ¬ OnlyBars (i.text ++ suffix).toList)) ∧
      cutInBytes? raw (String.ofList (unshortened raw)) = some (sanitize raw).text ∧
      (tag raw).length = 8 ∧ ∀ c ∈ tag raw, IsHexDigit c := by
  obtain ⟨hplain, hbars⟩ := sanitize_spec raw
  refine ⟨new?_eq_ok.2 ⟨hplain, rfl⟩, ?_, fun s hs => sanitize_of_plain hs,
    fun i suffix h => sanitize_of_plain h, cutInBytes?_unshortened raw, length_tag raw,
    fun c hc => (tag_spec hc).1⟩
  exact congrArg Ident.mk ((sanitize_of_plain hplain).2 hbars)

/-- The name of `2fa` is `_2fa`, which is kept; the plain name of two bars is not; and `product` with
`_tags` is `product_tags`. -/
theorem sanitize_stable_catalog :
    (sanitize "2fa").text = "_2fa" ∧ sanitize "_2fa" = sanitize "2fa" ∧ (sanitize "__").text ≠ "__" ∧
      (withSuffix ⟨"product"⟩ "_tags").text = "product_tags" := by
  obtain ⟨-, hkept, hplain, hsuffix, -⟩ := sanitize_stable "2fa"
  have hname : (sanitize "2fa").text = "_2fa" := by decide +kernel
  refine ⟨hname, hname ▸ hkept, fun hbars => ?_, ?_⟩
  · exact (hplain "__" (by decide +kernel)).1 hbars (by decide +kernel)
  · exact (hsuffix ⟨"product"⟩ "_tags" (by decide +kernel)).2 (by decide +kernel)

end Ident

end ContentReplica
