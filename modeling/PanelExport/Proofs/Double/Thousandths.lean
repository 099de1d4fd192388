import PanelExport.Proofs.Double.Rounding

/-!
# Thousandths as doubles

A whole number of thousandths is divided by a thousand and multiplied by it again, and each time the
result is rounded to a double. What comes back is the number itself, or a value less than two units
of its last place away. Where it is a lower one, the fraction is cut off and one thousandth is lost.

* `LosesThousandth`: the numbers that lose one.
* `ofQuotient_seconds`, `mul_thousand`: the two roundings.
* `trunc?_thousandths`: what comes back of a number of thousandths.
-/

namespace PanelExport.Double

/-! ## Mantissas -/

/-- The mantissa of a whole number below `2 ^ 53`, as a double. -/
def wholeMantissa (n : Nat) : Nat := n * 2 ^ (52 - n.log2)

/-- The exponent of a whole number as a double. -/
def wholeExponent (n : Nat) : ℤ := n.log2 - 52

/-- Divided by a thousand and multiplied by it again, both times with a rounding, the number falls
below itself. The double of the quotient is too small by more than a quarter of its unit, which is
a half of the unit of the number. -/
def LosesThousandth (n : Nat) : Prop :=
  1000 * 2 ^ 43 ≤ wholeMantissa n ∧
    32 < 64 * wholeMantissa n % 125 ∧ 64 * wholeMantissa n % 125 < 63

instance (n : Nat) : Decidable (LosesThousandth n) := by
  unfold LosesThousandth; infer_instance

section

variable {n : Nat}

theorem log2_lt_of_lt (hn : 0 < n) (hsmall : n < 2 ^ 48) : n.log2 < 48 :=
  (Nat.log2_lt hn.ne').2 hsmall

theorem wholeMantissa_bounds (hn : 0 < n) (hsmall : n < 2 ^ 48) :
    2 ^ 52 ≤ wholeMantissa n ∧ wholeMantissa n < 2 ^ 53 := by
  have hlog := log2_lt_of_lt hn hsmall
  have hpow : ∀ k, 2 ^ (n.log2 + k) * 2 ^ (52 - n.log2) = 2 ^ (52 + k) := by
    intro k
    rw [← Nat.pow_add]
    congr 1
    omega
  constructor
  · rw [← hpow 0]
    exact Nat.mul_le_mul_right _ (Nat.log2_self_le hn.ne')
  · rw [← hpow 1]
    exact Nat.mul_lt_mul_of_pos_right Nat.lt_log2_self (Nat.two_pow_pos _)

/-- The last bits of a mantissa are free, as a number below `2 ^ 48` does not need them. -/
theorem dvd_wholeMantissa (hn : 0 < n) (hsmall : n < 2 ^ 48) : 32 ∣ wholeMantissa n := by
  have hlog := log2_lt_of_lt hn hsmall
  exact Dvd.dvd.mul_left (pow_dvd_pow 2 (by omega : 5 ≤ 52 - n.log2)) n

theorem wholeMantissa_mul (hn : 0 < n) (hsmall : n < 2 ^ 48) :
    (wholeMantissa n : ℚ) * 2 ^ wholeExponent n = n := by
  have hlog := log2_lt_of_lt hn hsmall
  rw [wholeMantissa, wholeExponent, Nat.cast_mul, Nat.cast_pow, Nat.cast_ofNat, mul_assoc,
    ← zpow_natCast, ← zpow_add₀ two_ne_zero,
    show ((52 - n.log2 : ℕ) : ℤ) + (n.log2 - 52) = 0 by omega, zpow_zero, mul_one]

end

/-! ## The quotient -/

/-- A quotient at its place, less than half a unit away from a double, rounds to it. -/
theorem ofQuotient_of_isPlace (negative : Bool) {a b : Nat} (ha : 0 < a) (hb : 0 < b) {m : Nat}
    {e : ℤ} (fits : FitsDouble m e) (hplace : IsPlace (a / b) e)
    (low : (2 * m - 1) * 2 ^ e < 2 * (a / b : ℚ)) (high : 2 * (a / b : ℚ) < (2 * m + 1) * 2 ^ e) :
    ofQuotient negative a b = .finite negative m e fits :=
  ofQuotient_of_halfEven negative ha fits (place_eq ha hb hplace)
    (halfEven_scaled hb low.le high.le fun _ => ⟨low, high⟩)

/-- The mantissa of a thousandth of a number with mantissa `m`, where `c` is 128 or 64: a thousandth
lies ten or nine bits lower. -/
def thousandthMantissa (c m : Nat) : Nat := (c * m + 62) / 125

theorem thousandthMantissa_eq (c m : Nat) :
    thousandthMantissa c m = if c * m % 125 < 63 then c * m / 125 else c * m / 125 + 1 := by
  rw [thousandthMantissa]
  split_ifs <;> omega

/-- The unit of a number over that of its thousandth is eight times this. -/
structure IsScale (n c : Nat) (e : ℤ) : Prop where
  eq : 8 * (c : ℚ) * 2 ^ e = 2 ^ wholeExponent n
  low : 125 * 2 ^ 52 ≤ c * wholeMantissa n
  high : c * wholeMantissa n + 62 < 125 * 2 ^ 53
  least : -1074 ≤ e
  greatest : e ≤ 971

theorem IsScale.fits {n c : Nat} {e : ℤ} (h : IsScale n c e) :
    FitsDouble (thousandthMantissa c (wholeMantissa n)) e := by
  have hlow := h.low
  have hhigh := h.high
  refine ⟨?_, h.least, h.greatest, .inl ?_⟩ <;> simp only [thousandthMantissa, Nat.pow_eq] <;> omega

/-- The thousandth of a number as a double. -/
theorem ofQuotient_seconds (negative : Bool) {n c : Nat} {e : ℤ} (hn : 0 < n)
    (hsmall : n < 2 ^ 48) (h : IsScale n c e) :
    ofQuotient negative (1000 * n) 1000000 =
      .finite negative (thousandthMantissa c (wholeMantissa n)) e h.fits := by
  have he : (0 : ℚ) < 2 ^ e := by positivity
  -- The exact quotient is `c * m / 125` units.
  have hvalue : ((1000 * n : ℕ) : ℚ) / (1000000 : ℕ) =
      (c * wholeMantissa n : ℕ) / 125 * 2 ^ e := by
    rw [Nat.cast_mul, ← wholeMantissa_mul hn hsmall, ← h.eq]
    push_cast
    ring
  have hlow := h.low
  have hhigh := h.high
  obtain ⟨x, hx⟩ : ∃ x, x = c * wholeMantissa n := ⟨_, rfl⟩
  have hfloor : thousandthMantissa c (wholeMantissa n) = (x + 62) / 125 := by
    rw [thousandthMantissa, hx]
  rw [← hx] at hvalue hlow hhigh
  refine ofQuotient_of_isPlace negative (by omega) (by decide) h.fits ⟨h.least, ?_, .inl ?_⟩ ?_ ?_
    <;> rw [hvalue]
  · gcongr
    rw [div_lt_iff₀ (by norm_num)]
    exact_mod_cast (by omega : x < 2 ^ 53 * 125)
  · gcongr
    rw [le_div_iff₀ (by norm_num)]
    exact_mod_cast (by omega : 2 ^ 52 * 125 ≤ x)
  · rw [← mul_assoc]
    gcongr
    have : 2 * 125 * ((x + 62) / 125) < 2 * x + 125 := by omega
    rw [hfloor, sub_lt_iff_lt_add]
    have : (2 * 125 * ((x + 62) / 125 : ℕ) : ℚ) < 2 * x + 125 := by exact_mod_cast this
    linarith
  · rw [← mul_assoc]
    gcongr
    have : 2 * x < 2 * 125 * ((x + 62) / 125) + 125 := by omega
    rw [hfloor]
    have : (2 * x : ℚ) < 2 * 125 * ((x + 62) / 125 : ℕ) + 125 := by exact_mod_cast this
    linarith

/-! ## The product -/

theorem ofInt_thousand : ofInt 1000 = .finite false (1000 * Nat.pow 2 43) (-43) (by decide) := by
  decide +kernel

/-- Where a value that is measured in the unit of the quotient lies between the doubles in the unit
of the number. -/
theorem IsScale.rounds {n c t m : Nat} {e : ℤ} (h : IsScale n c e)
    (low : 4 * m * c ≤ 500 * t + quartersBelow m (wholeExponent n) * c)
    (high : 500 * t ≤ (4 * m + 2) * c)
    (inside : m % 2 = 1 → 4 * m * c < 500 * t + quartersBelow m (wholeExponent n) * c ∧
      500 * t < (4 * m + 2) * c) :
    Rounds m (wholeExponent n) (1000 * t * 2 ^ e) := by
  have he : (0 : ℚ) < 2 * 2 ^ e := by positivity
  have hunit : (2 : ℚ) ^ (wholeExponent n - 2) = c * (2 * 2 ^ e) := by
    have := two_zpow_eq_four_mul (wholeExponent n)
    rw [← h.eq] at this
    linarith
  have hvalue : (1000 * t * 2 ^ e : ℚ) = 500 * t * (2 * 2 ^ e) := by ring
  rw [hvalue]
  refine ⟨?_, ?_, fun hodd => ⟨?_, ?_⟩⟩ <;> rw [hunit, ← mul_assoc _ (c : ℚ) _]
  · rw [mul_le_mul_iff_left₀ he, sub_mul, sub_le_iff_le_add]
    exact_mod_cast low
  · rw [mul_le_mul_iff_left₀ he]
    exact_mod_cast high
  · rw [mul_lt_mul_iff_left₀ he, sub_mul, sub_lt_iff_lt_add]
    exact_mod_cast (inside hodd).1
  · rw [mul_lt_mul_iff_left₀ he]
    exact_mod_cast (inside hodd).2

/-- A double times a thousand, exactly. -/
theorem thousand_value (t : Nat) (e : ℤ) :
    ((t * (1000 * Nat.pow 2 43) : ℕ) : ℚ) * 2 ^ (e + -43) = 1000 * t * 2 ^ e := by
  rw [zpow_add₀ two_ne_zero, Nat.pow_eq]
  push_cast
  norm_num
  ring

/-- A double times a thousand, rounded. -/
theorem mul_thousand (negative : Bool) {t m : Nat} {e f : ℤ} (ht : 0 < t) (htfits : FitsDouble t e)
    (fits : FitsDouble m f) (h : Rounds m f (1000 * t * 2 ^ e)) :
    (finite negative t e htfits).mul (ofInt 1000) = .finite negative m f fits := by
  rw [ofInt_thousand]
  simp only [mul, Bool.xor_false]
  exact ofBinary_eq negative (Nat.mul_pos ht (by decide)) fits (thousand_value t e ▸ h)

/-! ## There and back -/

section

variable {n : Nat}

/-- A thousandth has its own place nine or ten bits below that of the number. -/
theorem exists_isScale (hn : 0 < n) (hsmall : n < 2 ^ 48) :
    ∃ c e, IsScale n c e ∧
      (c = 64 ∧ 1000 * 2 ^ 43 ≤ wholeMantissa n ∨ c = 128 ∧ wholeMantissa n < 1000 * 2 ^ 43) := by
  have hlog := log2_lt_of_lt hn hsmall
  obtain ⟨hlow, hhigh⟩ := wholeMantissa_bounds hn hsmall
  have hdvd := dvd_wholeMantissa hn hsmall
  have hunit : wholeExponent n = n.log2 - 52 := rfl
  by_cases h : 1000 * 2 ^ 43 ≤ wholeMantissa n
  · refine ⟨64, wholeExponent n - 9, ⟨?_, by omega, by omega, by omega, by omega⟩, .inl ⟨rfl, h⟩⟩
    rw [zpow_sub₀ two_ne_zero]
    norm_num
    ring
  · refine ⟨128, wholeExponent n - 10, ⟨?_, by omega, by omega, by omega, by omega⟩,
      .inr ⟨rfl, by omega⟩⟩
    rw [zpow_sub₀ two_ne_zero]
    norm_num
    ring

/-- The mantissa that comes back: that of the number or one of its neighbours. -/
def returnedMantissa (n : Nat) : Nat :=
  if LosesThousandth n then wholeMantissa n - 1
  else if 1000 * 2 ^ 43 ≤ wholeMantissa n ∧ 63 ≤ 64 * wholeMantissa n % 125 ∧
      64 * wholeMantissa n % 125 < 93 then wholeMantissa n + 1
  else wholeMantissa n

/-- The three ways back, by the remainder of the division. -/
theorem returnedMantissa_cases (n : Nat) :
    (LosesThousandth n ∧ returnedMantissa n = wholeMantissa n - 1) ∨
    (¬ LosesThousandth n ∧ (1000 * 2 ^ 43 ≤ wholeMantissa n ∧ 63 ≤ 64 * wholeMantissa n % 125 ∧
      64 * wholeMantissa n % 125 < 93) ∧ returnedMantissa n = wholeMantissa n + 1) ∨
    (¬ LosesThousandth n ∧ (1000 * 2 ^ 43 ≤ wholeMantissa n → 64 * wholeMantissa n % 125 ≤ 32 ∨
      93 ≤ 64 * wholeMantissa n % 125) ∧ returnedMantissa n = wholeMantissa n) := by
  rw [returnedMantissa]
  by_cases hloses : LosesThousandth n
  · exact .inl ⟨hloses, if_pos hloses⟩
  rw [if_neg hloses]
  split
  · rename_i hup
    exact .inr (.inl ⟨hloses, hup, rfl⟩)
  · rename_i hup
    refine .inr (.inr ⟨hloses, ?_, rfl⟩)
    unfold LosesThousandth at hloses
    omega

theorem returnedMantissa_bounds (hn : 0 < n) (hsmall : n < 2 ^ 48) :
    2 ^ 52 ≤ returnedMantissa n ∧ returnedMantissa n < 2 ^ 53 ∧
      (returnedMantissa n = 2 ^ 52 → wholeMantissa n = 2 ^ 52) := by
  obtain ⟨hlow, hhigh⟩ := wholeMantissa_bounds hn hsmall
  have hdvd := dvd_wholeMantissa hn hsmall
  have hcases := returnedMantissa_cases n
  unfold LosesThousandth at hcases
  omega

theorem fits_returnedMantissa (hn : 0 < n) (hsmall : n < 2 ^ 48) :
    FitsDouble (returnedMantissa n) (wholeExponent n) := by
  obtain ⟨hlow, hhigh, -⟩ := returnedMantissa_bounds hn hsmall
  have hlog := log2_lt_of_lt hn hsmall
  have hunit : wholeExponent n = n.log2 - 52 := rfl
  exact ⟨hhigh, by omega, by omega, .inl hlow⟩

theorem rounds_returnedMantissa {c : Nat} {e : ℤ} (hn : 0 < n) (hsmall : n < 2 ^ 48)
    (h : IsScale n c e)
    (hc : c = 64 ∧ 1000 * 2 ^ 43 ≤ wholeMantissa n ∨ c = 128 ∧ wholeMantissa n < 1000 * 2 ^ 43) :
    Rounds (returnedMantissa n) (wholeExponent n)
      (1000 * thousandthMantissa c (wholeMantissa n) * 2 ^ e) := by
  have hdvd := dvd_wholeMantissa hn hsmall
  obtain ⟨hlow, hhigh, hleast⟩ := returnedMantissa_bounds hn hsmall
  -- The lower neighbour is nearer only below the least mantissa, where nothing is lost.
  have hk : quartersBelow (returnedMantissa n) (wholeExponent n) = 2 ∨
      quartersBelow (returnedMantissa n) (wholeExponent n) = 1 ∧ wholeMantissa n = 2 ^ 52 := by
    unfold quartersBelow
    split_ifs with hcase
    · exact .inr ⟨rfl, hleast hcase.1⟩
    · exact .inl rfl
  have hcases := returnedMantissa_cases n
  unfold LosesThousandth at hcases
  refine h.rounds ?_ ?_ fun hodd => ⟨?_, ?_⟩ <;> rw [thousandthMantissa_eq] <;>
    rcases hc with ⟨rfl, hc⟩ | ⟨rfl, hc⟩ <;> split_ifs <;> omega

/-- Without its fraction, what comes back is the number, or one less. -/
theorem returnedMantissa_div (hn : 0 < n) (hsmall : n < 2 ^ 48) :
    returnedMantissa n / 2 ^ (52 - n.log2) = if LosesThousandth n then n - 1 else n := by
  have hlog := log2_lt_of_lt hn hsmall
  obtain ⟨d, hd⟩ : ∃ d, d = 2 ^ (52 - n.log2) := ⟨_, rfl⟩
  have hd1 : 1 < d := hd ▸ Nat.one_lt_two_pow (by omega)
  have hm : wholeMantissa n = n * d := by rw [hd, wholeMantissa]
  have hpos : d ≤ n * d := Nat.le_mul_of_pos_left d hn
  rw [← hd]
  rcases returnedMantissa_cases n with ⟨hloses, heq⟩ | ⟨hloses, -, heq⟩ | ⟨hloses, -, heq⟩
  · rw [if_pos hloses, heq, hm, Nat.div_eq_iff (by omega), Nat.sub_mul]
    omega
  · rw [if_neg hloses, heq, hm, Nat.div_eq_iff (by omega)]
    omega
  · rw [if_neg hloses, heq, hm, Nat.mul_div_cancel _ (by omega)]

/-- A thousandth of a number, times a thousand. -/
theorem mul_thousand_ofQuotient (negative : Bool) (hn : 0 < n) (hsmall : n < 2 ^ 48) :
    (ofQuotient negative (1000 * n) 1000000).mul (ofInt 1000) =
      .finite negative (returnedMantissa n) (wholeExponent n)
        (fits_returnedMantissa hn hsmall) := by
  obtain ⟨c, e, hscale, hc⟩ := exists_isScale hn hsmall
  have hpos : 0 < thousandthMantissa c (wholeMantissa n) :=
    Nat.div_pos (by have := hscale.low; omega) (by decide)
  rw [ofQuotient_seconds negative hn hsmall hscale]
  exact mul_thousand negative hpos hscale.fits _ (rounds_returnedMantissa hn hsmall hscale hc)

end

/-- What comes back of a whole number of thousandths, when it is divided by a thousand, multiplied
by it and cut off. -/
theorem trunc?_thousandths {k : ℤ} (hk : k.natAbs < 2 ^ 48) :
    ((ofRatio (1000 * k) 1000000).mul (ofInt 1000)).trunc? =
      some (if LosesThousandth k.natAbs then k - k.sign else k) := by
  by_cases hzero : k = 0
  · subst hzero
    decide +kernel
  have hn : 0 < k.natAbs := Int.natAbs_pos.2 hzero
  have hlog := log2_lt_of_lt hn hk
  have habs : (1000 * k).natAbs = 1000 * k.natAbs := by rw [Int.natAbs_mul]; rfl
  have hup : (wholeExponent k.natAbs).toNat = 0 := by
    rw [wholeExponent]
    omega
  have hdown : (-wholeExponent k.natAbs).toNat = 52 - k.natAbs.log2 := by
    rw [wholeExponent]
    omega
  rw [ofRatio, habs, mul_thousand_ofQuotient _ hn hk]
  simp only [trunc?, hup, hdown, Nat.pow_eq, Nat.pow_zero, Nat.mul_one,
    returnedMantissa_div hn hk, decide_eq_true_eq]
  rcases lt_or_gt_of_ne hzero with hneg | hpos
  · rw [Int.sign_eq_neg_one_of_neg hneg, if_pos (by omega)]
    split_ifs <;> simp only [Option.some.injEq] <;> omega
  · rw [Int.sign_eq_one_of_pos hpos, if_neg (by omega)]
    split_ifs <;> simp only [Option.some.injEq] <;> omega

/-- The first number of thousandths that loses one. -/
example : LosesThousandth 1001 ∧ ¬ LosesThousandth 1000 := by decide

end PanelExport.Double
