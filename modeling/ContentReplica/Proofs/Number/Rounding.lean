import ContentReplica.Number.Double
import Mathlib.Algebra.Order.Group.Nat
import Mathlib.Tactic.SplitIfs

/-!
# Integers as binary64 numbers

An integer of 64 bits becomes the multiple of a power of two that is nearest to it
(`Double.nearest?_one`). A greater integer never becomes a smaller number (`Double.scaled_ofInt_mono`),
and integers up to 2^53 keep their value (`Double.scaled_ofInt_of_small`). Beyond, different integers
can become one number.
-/

namespace ContentReplica.Double

/-! ## Quotients rounded to an integer -/

section
variable {a b den k : Nat}

/-- Rounding keeps the order. -/
theorem roundHalfEven_mono (h : a ≤ b) : roundHalfEven a den ≤ roundHalfEven b den := by
  have hquotient : a / den ≤ b / den := Nat.div_le_div_right h
  have hrest : a / den = b / den → a % den ≤ b % den := fun he => by
    have ha := Nat.div_add_mod a den
    have hb := Nat.div_add_mod b den
    rw [he] at ha
    omega
  simp only [roundHalfEven]
  split_ifs <;> omega

/-- A multiple is not rounded. -/
theorem roundHalfEven_mul (hden : 0 < den) : roundHalfEven (k * den) den = k := by
  simp only [roundHalfEven, Nat.mul_div_cancel k hden, Nat.mul_mod_left, Nat.mul_zero, if_pos hden]

end

/-! ## Magnitudes rounded to 53 bits -/

/-- The distance between numbers of the size of a magnitude. -/
def spacing (s : Nat) : Nat := 2 ^ (s.log2 + 1 - 53)

/-- The magnitude rounded to a multiple of the spacing. -/
def rounded (s : Nat) : Nat := roundHalfEven s (spacing s) * spacing s

variable {s t m k : Nat}

/-- Numbers are apart. -/
theorem spacing_pos (s : Nat) : 0 < spacing s := Nat.two_pow_pos _

/-- The spacing divides the powers of two down to the last of a magnitude's 53 highest bits. -/
theorem exists_mul_spacing (h : s.log2 < 53 + k) : ∃ j, 2 ^ k = j * spacing s :=
  ⟨2 ^ (k - (s.log2 + 1 - 53)), by rw [spacing, ← Nat.pow_add]; congr 1; omega⟩

/-- A magnitude is not rounded up beyond a multiple of the spacing. -/
theorem rounded_le (h : s ≤ k * spacing s) : rounded s ≤ k * spacing s := by
  refine Nat.mul_le_mul_right _ ?_
  rw [← roundHalfEven_mul (k := k) (spacing_pos s)]
  exact roundHalfEven_mono h

/-- A magnitude is not rounded down beyond a multiple of the spacing. -/
theorem le_rounded (h : k * spacing s ≤ s) : k * spacing s ≤ rounded s := by
  refine Nat.mul_le_mul_right _ ?_
  rw [← roundHalfEven_mul (k := k) (spacing_pos s)]
  exact roundHalfEven_mono h

/-- Trailing zeros shift the highest bit. -/
theorem log2_mul_two_pow_lt {j : Nat} (hm : m < 2 ^ j) (hzero : m ≠ 0) :
    (m * 2 ^ k).log2 < j + k := by
  refine (Nat.log2_lt (Nat.mul_ne_zero hzero (Nat.two_pow_pos k).ne')).2 ?_
  rw [Nat.pow_add]
  exact Nat.mul_lt_mul_of_pos_right hm (Nat.two_pow_pos k)

/-- A magnitude that has no more than 53 bits before its trailing zeros is not rounded. -/
theorem rounded_mul_two_pow (hm : m < 2 ^ 53) (k : Nat) : rounded (m * 2 ^ k) = m * 2 ^ k := by
  by_cases hzero : m = 0
  · simp [hzero, rounded, roundHalfEven]
  obtain ⟨j, hj⟩ := exists_mul_spacing (log2_mul_two_pow_lt hm hzero)
  have hmultiple : m * 2 ^ k = m * j * spacing (m * 2 ^ k) := by rw [Nat.mul_assoc, ← hj]
  exact Nat.le_antisymm ((rounded_le hmultiple.le).trans hmultiple.ge)
    (hmultiple.le.trans (le_rounded hmultiple.ge))

/-- So it is with 2^53 itself. -/
theorem rounded_mul_two_pow_of_le (hm : m ≤ 2 ^ 53) (k : Nat) :
    rounded (m * 2 ^ k) = m * 2 ^ k := by
  rcases Nat.lt_or_eq_of_le hm with hlt | rfl
  · exact rounded_mul_two_pow hlt k
  · have hone := rounded_mul_two_pow (m := 1) (by decide) (53 + k)
    rwa [Nat.one_mul, Nat.pow_add] at hone

/-- Rounding to 53 bits keeps the order of magnitudes, also where the spacing grows. -/
theorem rounded_mono (h : s ≤ t) : rounded s ≤ rounded t := by
  rcases Nat.eq_zero_or_pos s with rfl | hs
  · simp [rounded, roundHalfEven]
  have ht : t ≠ 0 := (Nat.lt_of_lt_of_le hs h).ne'
  have hlog : s.log2 ≤ t.log2 := (Nat.le_log2 ht).2 (Nat.le_trans (Nat.log2_self_le hs.ne') h)
  rcases Nat.lt_or_eq_of_le hlog with hlt | heq
  · -- A power of two lies between the magnitudes, and it is not rounded.
    obtain ⟨i, hi⟩ := exists_mul_spacing (s := s) (k := s.log2 + 1) (by omega)
    obtain ⟨j, hj⟩ := exists_mul_spacing (s := t) (k := t.log2) (by omega)
    calc rounded s ≤ 2 ^ (s.log2 + 1) := hi ▸ rounded_le (hi ▸ Nat.lt_log2_self.le)
      _ ≤ 2 ^ t.log2 := Nat.pow_le_pow_right (by omega) hlt
      _ ≤ rounded t := hj ▸ le_rounded (hj ▸ Nat.log2_self_le ht)
  · rw [rounded, rounded, show spacing s = spacing t by rw [spacing, spacing, heq]]
    exact Nat.mul_le_mul_right _ (roundHalfEven_mono h)

/-- The rounded mantissa can carry, to a power of two. -/
theorem roundHalfEven_spacing_le (s : Nat) : roundHalfEven s (spacing s) ≤ 2 ^ 53 := by
  have h : s ≤ 2 ^ 53 * spacing s := by
    rw [spacing, ← Nat.pow_add]
    exact Nat.lt_log2_self.le.trans (Nat.pow_le_pow_right (by omega) (by omega))
  rw [← roundHalfEven_mul (k := 2 ^ 53) (spacing_pos s)]
  exact roundHalfEven_mono h

/-- Above the smallest exponent the rounded mantissa has all 53 bits. -/
theorem le_roundHalfEven_spacing (h : 53 ≤ s.log2) : 2 ^ 52 ≤ roundHalfEven s (spacing s) := by
  have hs : s ≠ 0 := by
    rintro rfl
    simp at h
  have hle : 2 ^ 52 * spacing s ≤ s := by
    rw [spacing, ← Nat.pow_add]
    exact (Nat.pow_le_pow_right (by omega) (by omega)).trans (Nat.log2_self_le hs)
  rw [← roundHalfEven_mul (k := 2 ^ 52) (spacing_pos s)]
  exact roundHalfEven_mono hle

/-- The number with canonical parts has their magnitude. -/
theorem ofParts?_eq_some {mantissa exponent : Nat} (h : Canonical mantissa exponent) :
    ∃ x, ofParts? mantissa exponent = some x ∧ x.magnitude = mantissa * 2 ^ exponent :=
  ⟨⟨false, mantissa, exponent, h⟩, dif_pos h, rfl⟩

/-! ## Integers -/

/-- The unit in powers of two. -/
theorem unit_eq : unit = 2 ^ 1074 := by
  unfold unit
  -- A numeral as exponent would be computed with.
  generalize 1074 = k
  exact Nat.pow_eq

/-- The unit is not zero. -/
theorem unit_pos : 0 < unit := by
  rw [unit_eq]
  generalize 1074 = k
  exact Nat.two_pow_pos k

/-- The number nearest to an integer of 64 bits has the rounded magnitude. -/
theorem nearest?_one {n : Nat} (hn : n < 2 ^ 64) :
    ∃ x, nearest? n 1 = some x ∧ x.magnitude = rounded (n * unit) := by
  have hlog : (n * unit).log2 < 1138 := by
    by_cases hzero : n = 0
    · simp [hzero]
    · rw [unit_eq]
      exact log2_mul_two_pow_lt hn hzero
  have hle := roundHalfEven_spacing_le (n * unit)
  have hbits := @le_roundHalfEven_spacing (n * unit)
  simp only [nearest?, Nat.div_one, Nat.one_mul, Nat.pow_eq, rounded]
  generalize n * unit = s at *
  rw [← spacing]
  split
  · next hcarry =>
    have hcanonical : Canonical (Nat.pow 2 52) (s.log2 + 1 - 53 + 1) :=
      ⟨by decide, by omega, .inr (Nat.le_refl _)⟩
    obtain ⟨x, hx, hmagnitude⟩ := ofParts?_eq_some hcanonical
    refine ⟨x, hx, ?_⟩
    rw [hmagnitude, hcarry, spacing, Nat.pow_eq, ← Nat.pow_add, ← Nat.pow_add]
    congr 1
    omega
  · next hcarry =>
    refine ofParts?_eq_some ⟨Nat.lt_of_le_of_ne hle hcarry, by omega, ?_⟩
    by_cases hlarge : 53 ≤ s.log2
    · exact .inr (hbits hlarge)
    · exact .inl (by omega)

/-- The value of the number nearest to an integer of 64 bits. -/
theorem scaled_ofInt {n : Int} (hn : n.natAbs < 2 ^ 64) :
    (ofInt n).scaled = if n < 0 then -(rounded (n.natAbs * unit) : Int)
      else rounded (n.natAbs * unit) := by
  obtain ⟨x, hx, hmagnitude⟩ := nearest?_one hn
  have hsigned : ofInt n = withSign (decide (n < 0)) x := by
    rw [ofInt, ofInt?, hx]
    rfl
  rw [hsigned, scaled, withSign, ← hmagnitude]
  simp only [decide_eq_true_eq]
  rfl

/-- A greater integer does not become a smaller number. -/
theorem scaled_ofInt_mono {m n : Int} (hm : m.natAbs < 2 ^ 64) (hn : n.natAbs < 2 ^ 64)
    (h : m ≤ n) : (ofInt m).scaled ≤ (ofInt n).scaled := by
  have hrounded {j k : Nat} (h : j ≤ k) : rounded (j * unit) ≤ rounded (k * unit) :=
    rounded_mono (Nat.mul_le_mul_right _ h)
  rw [scaled_ofInt hm, scaled_ofInt hn]
  split <;> split
  · have := hrounded (show n.natAbs ≤ m.natAbs by omega)
    omega
  · omega
  · omega
  · have := hrounded (show m.natAbs ≤ n.natAbs by omega)
    omega

/-- An integer up to 2^53 keeps its value. -/
theorem scaled_ofInt_of_small {n : Int} (hn : n.natAbs ≤ 2 ^ 53) :
    (ofInt n).scaled = n * unit := by
  have hrounded : rounded (n.natAbs * unit) = n.natAbs * unit := by
    rw [unit_eq, rounded_mul_two_pow_of_le hn]
  rw [scaled_ofInt (by omega), hrounded, Int.natCast_mul]
  split
  · rw [show (n.natAbs : Int) = -n by omega, Int.neg_mul, Int.neg_neg]
  · rw [show (n.natAbs : Int) = n by omega]

end ContentReplica.Double
