import Mathlib.Algebra.Order.Field.Power
import Mathlib.Tactic.FieldSimp
import Mathlib.Tactic.Linarith
import Mathlib.Tactic.NormNum
import Mathlib.Tactic.Positivity
import Mathlib.Tactic.Ring
import PanelExport.Double.Basic

/-!
# Rounding to doubles

A quotient is rounded at its place, the exponent at which it has 53 bits before the point. What is
rounded depends on the value of the quotient alone, and every value between the middles to the
neighbours of a double is rounded to it.

* `place_eq`: the place of a quotient from its value.
* `ofQuotient_eq`: what lies between the middles to the neighbours of a double rounds to it.
* `ofQuotient_ne_infinite`: what is below `2 ^ 1023` does not round to an infinity.
-/

namespace PanelExport

/-- What is within a half of a whole number is rounded to it, and the ends only if it is even. -/
theorem halfEven_eq {n d m : Nat} (low : 2 * (m * d) ≤ 2 * n + d) (high : 2 * n ≤ 2 * (m * d) + d)
    (hd : 0 < d) (inside : m % 2 = 1 → 2 * (m * d) < 2 * n + d ∧ 2 * n < 2 * (m * d) + d) :
    halfEven n d = m := by
  have hr : n % d < d := Nat.mod_lt n hd
  have hn : n / d * d + n % d = n := Nat.div_add_mod' n d
  -- The whole part of the quotient is `m` or the number before it.
  have hm : m = n / d ∨ m = n / d + 1 := by
    have h₁ : m < n / d + 2 := by
      refine lt_of_mul_lt_mul_right (a := d) ?_ (Nat.zero_le d)
      rw [Nat.add_mul]
      omega
    have h₂ : n / d < m + 1 := by
      refine lt_of_mul_lt_mul_right (a := d) ?_ (Nat.zero_le d)
      rw [Nat.add_mul]
      omega
    omega
  simp only [halfEven]
  rcases hm with hm | hm
  · rw [← hm] at hn ⊢
    split_ifs <;> omega
  · rw [hm, Nat.add_mul] at low high inside
    rw [hm]
    split_ifs <;> omega

/-- What is rounded to a whole number is less than one away from it. -/
theorem halfEven_bounds (n d : Nat) : n / d ≤ halfEven n d ∧ halfEven n d ≤ n / d + 1 := by
  simp only [halfEven]
  split_ifs <;> omega

namespace Double

/-! ## Powers -/

theorem zpow_eq_div (x : ℚ) (k : ℤ) : x ^ k = x ^ k.toNat / x ^ (-k).toNat := by
  rcases Int.le_total 0 k with h | h
  · obtain ⟨n, rfl⟩ := Int.eq_ofNat_of_zero_le h
    simp
  · obtain ⟨n, hn⟩ := Int.eq_ofNat_of_zero_le (Int.neg_nonneg_of_nonpos h)
    obtain rfl : k = -n := by omega
    simp

/-- Parts of a quotient that are scaled by a power of two. -/
theorem scaled_div (a b : Nat) (e : ℤ) :
    ((scaled a b e).1 : ℚ) / (scaled a b e).2 = a / b / 2 ^ e := by
  simp only [scaled, Nat.cast_mul, Nat.pow_eq, Nat.cast_pow, Nat.cast_ofNat]
  rw [zpow_eq_div 2 e]
  have h₁ : (2 : ℚ) ^ e.toNat ≠ 0 := by positivity
  have h₂ : (2 : ℚ) ^ (-e).toNat ≠ 0 := by positivity
  by_cases hb : (b : ℚ) = 0
  · simp [hb]
  · field_simp

/-! ## Places -/

/-- The exponent is that at which a value has 53 bits before the point, or the least one. -/
structure IsPlace (q : ℚ) (e : ℤ) : Prop where
  least : -1074 ≤ e
  below : q < 2 ^ 53 * 2 ^ e
  above : 2 ^ 52 * 2 ^ e ≤ q ∨ e = -1074

/-- A value has one place only. -/
theorem IsPlace.unique {q : ℚ} {e f : ℤ} (he : IsPlace q e) (hf : IsPlace q f) : e = f := by
  have le : ∀ {e f : ℤ}, IsPlace q e → IsPlace q f → e ≤ f := by
    intro e f he hf
    rcases he.above with habove | hleast
    · have hlt : (2 : ℚ) ^ (52 + e) < 2 ^ (53 + f) := by
        rw [zpow_add₀ two_ne_zero, zpow_add₀ two_ne_zero]
        exact habove.trans_lt hf.below
      have := (zpow_lt_zpow_iff_right₀ one_lt_two).1 hlt
      omega
    · exact hleast ▸ hf.least
  exact le_antisymm (le he hf) (le hf he)

/-- The logarithm of a whole number is its exponent. -/
theorem log2_bounds {n : Nat} (hn : 0 < n) :
    (2 : ℚ) ^ (n.log2 : ℤ) ≤ n ∧ (n : ℚ) < 2 ^ ((n.log2 : ℤ) + 1) := by
  constructor
  · rw [zpow_natCast]
    exact_mod_cast Nat.log2_self_le hn.ne'
  · rw [← Nat.cast_succ, zpow_natCast]
    exact_mod_cast Nat.lt_log2_self

/-- The logarithms of the parts of a quotient tell where it lies, up to a factor of four. -/
theorem quotient_bounds {a b : Nat} (ha : 0 < a) (hb : 0 < b) :
    (2 : ℚ) ^ ((a.log2 : ℤ) - b.log2 - 1) ≤ a / b ∧
      (a / b : ℚ) < 2 ^ ((a.log2 : ℤ) - b.log2 + 1) := by
  have hb' : (0 : ℚ) < b := Nat.cast_pos.2 hb
  obtain ⟨hal, hah⟩ := log2_bounds ha
  obtain ⟨hbl, hbh⟩ := log2_bounds hb
  constructor
  · rw [le_div_iff₀ hb']
    calc (2 : ℚ) ^ ((a.log2 : ℤ) - b.log2 - 1) * b
        ≤ 2 ^ ((a.log2 : ℤ) - b.log2 - 1) * 2 ^ ((b.log2 : ℤ) + 1) := by gcongr
      _ = 2 ^ (a.log2 : ℤ) := by
        rw [← zpow_add₀ two_ne_zero]
        congr 1
        omega
      _ ≤ a := hal
  · rw [div_lt_iff₀ hb']
    calc (a : ℚ) < 2 ^ ((a.log2 : ℤ) + 1) := hah
      _ = 2 ^ ((a.log2 : ℤ) - b.log2 + 1) * 2 ^ (b.log2 : ℤ) := by
        rw [← zpow_add₀ two_ne_zero]
        congr 1
        omega
      _ ≤ 2 ^ ((a.log2 : ℤ) - b.log2 + 1) * b := by gcongr

/-- The whole part of a scaled quotient is below a number just if the quotient is. -/
theorem scaled_div_lt {a b : Nat} (hb : 0 < b) (e : ℤ) (k : Nat) :
    (scaled a b e).1 / (scaled a b e).2 < k ↔ (a / b : ℚ) < k * 2 ^ e := by
  have hd : 0 < (scaled a b e).2 := Nat.mul_pos hb (Nat.pow_pos Nat.two_pos)
  have he : (0 : ℚ) < 2 ^ e := by positivity
  rw [Nat.div_lt_iff_lt_mul hd, ← div_lt_iff₀ he, ← scaled_div, div_lt_iff₀ (Nat.cast_pos.2 hd)]
  exact_mod_cast Iff.rfl

theorem isPlace_place {a b : Nat} (ha : 0 < a) (hb : 0 < b) : IsPlace (a / b) (place a b) := by
  obtain ⟨hlow, hhigh⟩ := quotient_bounds ha hb
  obtain ⟨e, he⟩ : ∃ e : ℤ, e = (a.log2 : ℤ) - b.log2 - 53 := ⟨_, rfl⟩
  -- Without a least exponent the place is this one.
  obtain ⟨f, hf⟩ : ∃ f : ℤ,
      f = if (scaled a b e).1 / (scaled a b e).2 < Nat.pow 2 53 then e else e + 1 := ⟨_, rfl⟩
  have hplace : place a b = max f (-1074) := by simp only [place, hf, he]
  have hbetween : (a / b : ℚ) < 2 ^ 53 * 2 ^ f ∧ 2 ^ 52 * 2 ^ f ≤ (a / b : ℚ) := by
    have hfour : (2 : ℚ) ^ ((a.log2 : ℤ) - b.log2 + 1) = 2 ^ 54 * 2 ^ e := by
      rw [← zpow_natCast, ← zpow_add₀ two_ne_zero]
      congr 1
      omega
    have hone : (2 : ℚ) ^ ((a.log2 : ℤ) - b.log2 - 1) = 2 ^ 52 * 2 ^ e := by
      rw [← zpow_natCast, ← zpow_add₀ two_ne_zero]
      congr 1
      omega
    have hiff : (scaled a b e).1 / (scaled a b e).2 < Nat.pow 2 53 ↔
        (a / b : ℚ) < 2 ^ 53 * 2 ^ e := by
      rw [scaled_div_lt hb, Nat.pow_eq, Nat.cast_pow, Nat.cast_ofNat]
    rw [hfour] at hhigh
    rw [hone] at hlow
    by_cases h : (scaled a b e).1 / (scaled a b e).2 < Nat.pow 2 53
    · rw [if_pos h] at hf
      exact ⟨hf ▸ hiff.1 h, hf ▸ hlow⟩
    · rw [if_neg h] at hf
      have hle : (2 : ℚ) ^ 53 * 2 ^ e ≤ a / b := not_lt.1 (mt hiff.2 h)
      rw [hf, zpow_add_one₀ two_ne_zero]
      constructor <;> linarith
  rw [hplace]
  refine ⟨le_max_right _ _, ?_, ?_⟩
  · refine hbetween.1.trans_le ?_
    gcongr
    · norm_num
    · exact le_max_left _ _
  · rcases max_choice f (-1074) with hmax | hmax
    · rw [hmax]
      exact .inl hbetween.2
    · exact .inr hmax

theorem place_eq {a b : Nat} (ha : 0 < a) (hb : 0 < b) {e : ℤ} (h : IsPlace (a / b) e) :
    place a b = e :=
  (isPlace_place ha hb).unique h

/-! ## Neighbours -/

/-- The quarters of a unit between a double and the middle to its lower neighbour. -/
def quartersBelow (mantissa : Nat) (exponent : ℤ) : Nat :=
  if mantissa = Nat.pow 2 52 ∧ -1074 < exponent then 1 else 2

/-- A value lies between the middles to the neighbours of a double, or on one of them if the
mantissa is even. -/
structure Rounds (mantissa : Nat) (exponent : ℤ) (q : ℚ) : Prop where
  low : (4 * mantissa - quartersBelow mantissa exponent) * 2 ^ (exponent - 2) ≤ q
  high : q ≤ (4 * mantissa + 2) * 2 ^ (exponent - 2)
  inside : mantissa % 2 = 1 →
    (4 * mantissa - quartersBelow mantissa exponent) * 2 ^ (exponent - 2) < q ∧
      q < (4 * mantissa + 2) * 2 ^ (exponent - 2)

/-- A value that is at most a half of a unit away rounds at its own place. -/
theorem halfEven_scaled {m : Nat} {e : ℤ} {a b : Nat} (hb : 0 < b)
    (low : (2 * m - 1) * 2 ^ e ≤ 2 * (a / b : ℚ)) (high : 2 * (a / b : ℚ) ≤ (2 * m + 1) * 2 ^ e)
    (inside : m % 2 = 1 →
      (2 * m - 1) * 2 ^ e < 2 * (a / b : ℚ) ∧ 2 * (a / b : ℚ) < (2 * m + 1) * 2 ^ e) :
    halfEven (scaled a b e).1 (scaled a b e).2 = m := by
  have hd : 0 < (scaled a b e).2 := Nat.mul_pos hb (Nat.pow_pos Nat.two_pos)
  have hd' : (0 : ℚ) < (scaled a b e).2 := Nat.cast_pos.2 hd
  have he : (0 : ℚ) < 2 ^ e := by positivity
  have hq : 2 * (a / b : ℚ) = 2 * (scaled a b e).1 / (scaled a b e).2 * 2 ^ e := by
    rw [mul_div_assoc, mul_assoc, scaled_div, div_mul_cancel₀ _ he.ne']
  rw [hq] at low high inside
  simp only [mul_le_mul_iff_left₀ he, mul_lt_mul_iff_left₀ he, le_div_iff₀ hd', div_le_iff₀ hd',
    lt_div_iff₀ hd', div_lt_iff₀ hd'] at low high inside
  refine halfEven_eq ?_ ?_ hd fun hodd => ⟨?_, ?_⟩
  · have : 2 * (m * (scaled a b e).2 : ℚ) ≤ 2 * (scaled a b e).1 + (scaled a b e).2 := by linarith
    exact_mod_cast this
  · have : 2 * ((scaled a b e).1 : ℚ) ≤ 2 * (m * (scaled a b e).2) + (scaled a b e).2 := by linarith
    exact_mod_cast this
  · have : 2 * (m * (scaled a b e).2 : ℚ) < 2 * (scaled a b e).1 + (scaled a b e).2 := by
      linarith [(inside hodd).1]
    exact_mod_cast this
  · have : 2 * ((scaled a b e).1 : ℚ) < 2 * (m * (scaled a b e).2) + (scaled a b e).2 := by
      linarith [(inside hodd).2]
    exact_mod_cast this

theorem two_zpow_eq_four_mul (e : ℤ) : (2 : ℚ) ^ e = 4 * 2 ^ (e - 2) := by
  rw [show (4 : ℚ) = 2 ^ (2 : ℤ) by norm_num, ← zpow_add₀ two_ne_zero]
  congr 1
  omega

theorem two_zpow_pred (e : ℤ) : (2 : ℚ) ^ (e - 1) = 2 * 2 ^ (e - 2) := by
  rw [← zpow_one_add₀ two_ne_zero]
  congr 1
  omega

theorem quartersBelow_le (m : Nat) (e : ℤ) : quartersBelow m e ≤ 2 := by
  unfold quartersBelow
  split_ifs <;> decide

/-- A quotient whose rounding at its place gives a mantissa. -/
theorem ofQuotient_of_halfEven (negative : Bool) {a b : Nat} (ha : 0 < a) {m : Nat} {e : ℤ}
    (fits : FitsDouble m e) (he : place a b = e)
    (hm : halfEven (scaled a b e).1 (scaled a b e).2 = m) :
    ofQuotient negative a b = .finite negative m e fits := by
  have hne : m ≠ Nat.pow 2 53 := Nat.ne_of_lt fits.1
  simp only [ofQuotient, ha.ne', if_false, he, hm, hne, ofParts, dif_pos fits]

/-- A value above the least mantissa, or at the least exponent, has the place of the double. -/
theorem ofQuotient_eq_of_le (negative : Bool) {a b : Nat} (ha : 0 < a) (hb : 0 < b) {m : Nat}
    {e : ℤ} (fits : FitsDouble m e) (h : Rounds m e (a / b))
    (hplace : (2 : ℚ) ^ 52 * 2 ^ e ≤ a / b ∨ e = -1074) :
    ofQuotient negative a b = .finite negative m e fits := by
  obtain ⟨hlow, hhigh, hinside⟩ := h
  have hu : (0 : ℚ) < 2 ^ (e - 2) := by positivity
  have hk : (quartersBelow m e : ℚ) * 2 ^ (e - 2) ≤ 2 * 2 ^ (e - 2) := by
    gcongr
    exact_mod_cast quartersBelow_le m e
  have hm : (m : ℚ) * 2 ^ (e - 2) ≤ (2 ^ 53 - 1) * 2 ^ (e - 2) := by
    gcongr
    have : m + 1 ≤ 2 ^ 53 := fits.1
    rw [le_sub_iff_add_le]
    exact_mod_cast this
  refine ofQuotient_of_halfEven negative ha fits (place_eq ha hb ⟨fits.2.1, ?_, hplace⟩)
    (halfEven_scaled hb ?_ ?_ fun hodd => ⟨?_, ?_⟩) <;> rw [two_zpow_eq_four_mul e]
  · linarith
  · linarith
  · linarith
  · linarith [(hinside hodd).1]
  · linarith [(hinside hodd).2]

/-- A value below the least mantissa has its place one exponent lower, where it is rounded up to the
greatest mantissa and one more. -/
theorem ofQuotient_eq_of_lt (negative : Bool) {a b : Nat} (ha : 0 < a) (hb : 0 < b) {m : Nat}
    {e : ℤ} (fits : FitsDouble m e) (h : Rounds m e (a / b)) (he : -1074 < e)
    (hlt : (a / b : ℚ) < 2 ^ 52 * 2 ^ e) :
    ofQuotient negative a b = .finite negative m e fits := by
  have hu : (0 : ℚ) < 2 ^ (e - 2) := by positivity
  have hlow := h.low
  rw [two_zpow_eq_four_mul e] at hlt
  have hm : m = Nat.pow 2 52 := by
    rcases fits.2.2.2 with hle | hleast
    · by_contra hne
      have hsucc : (2 ^ 52 + 1 : ℚ) ≤ m := by
        have : 2 ^ 52 + 1 ≤ m := Nat.lt_of_le_of_ne hle (Ne.symm hne)
        exact_mod_cast this
      have hmu : (2 ^ 52 + 1) * 2 ^ (e - 2) ≤ (m : ℚ) * 2 ^ (e - 2) := by gcongr
      have hk : (quartersBelow m e : ℚ) * 2 ^ (e - 2) ≤ 2 * 2 ^ (e - 2) := by
        gcongr
        exact_mod_cast quartersBelow_le m e
      linarith
    · omega
  have hk : quartersBelow m e = 1 := if_pos ⟨hm, he⟩
  rw [hk, hm, Nat.pow_eq, Nat.cast_pow, Nat.cast_ofNat, Nat.cast_one] at hlow
  have hplace : place a b = e - 1 := by
    refine place_eq ha hb ⟨by omega, ?_, .inl ?_⟩ <;> rw [two_zpow_pred]
    · linarith
    · linarith
  have hround : halfEven (scaled a b (e - 1)).1 (scaled a b (e - 1)).2 = Nat.pow 2 53 := by
    refine halfEven_scaled hb ?_ ?_ fun hodd => absurd hodd (by decide) <;>
      rw [two_zpow_pred, Nat.pow_eq, Nat.cast_pow, Nat.cast_ofNat]
    · linarith
    · linarith
  subst hm
  simp only [ofQuotient, ha.ne', if_false, hplace, hround, if_true, Int.sub_add_cancel, ofParts,
    dif_pos fits]

/-- What lies between the middles to the neighbours of a double rounds to it. -/
theorem ofQuotient_eq (negative : Bool) {a b : Nat} (ha : 0 < a) (hb : 0 < b) {m : Nat} {e : ℤ}
    (fits : FitsDouble m e) (h : Rounds m e (a / b)) :
    ofQuotient negative a b = .finite negative m e fits := by
  by_cases hplace : (2 : ℚ) ^ 52 * 2 ^ e ≤ a / b ∨ e = -1074
  · exact ofQuotient_eq_of_le negative ha hb fits h hplace
  · rw [not_or, not_le] at hplace
    have := fits.2.1
    exact ofQuotient_eq_of_lt negative ha hb fits h (by omega) hplace.1

/-- A whole number times a power of two, as a quotient of whole numbers. -/
theorem binary_div (n : Nat) (f : ℤ) :
    ((n * Nat.pow 2 f.toNat : ℕ) : ℚ) / (Nat.pow 2 (-f).toNat : ℕ) = n * 2 ^ f := by
  rw [zpow_eq_div 2 f]
  simp only [Nat.pow_eq, Nat.cast_mul, Nat.cast_pow, Nat.cast_ofNat]
  ring

/-- The same for a whole number times a power of two. -/
theorem ofBinary_eq (negative : Bool) {n : Nat} (hn : 0 < n) {f : ℤ} {m : Nat} {e : ℤ}
    (fits : FitsDouble m e) (h : Rounds m e (n * 2 ^ f)) :
    ofBinary negative n f = .finite negative m e fits :=
  ofQuotient_eq negative (Nat.mul_pos hn (Nat.pow_pos Nat.two_pos))
    (Nat.pow_pos Nat.two_pos) fits (binary_div n f ▸ h)

/-! ## Finite values -/

theorem ofParts_ne_infinite {m : Nat} {e : ℤ} (fits : FitsDouble m e) (negative s : Bool) :
    ofParts negative m e ≠ .infinite s := by
  rw [ofParts, dif_pos fits]
  exact nofun

/-- What is below the last power of two among the doubles does not round to an infinity. -/
theorem ofQuotient_ne_infinite (negative : Bool) {a b : Nat} (hb : 0 < b)
    (h : (a / b : ℚ) < 2 ^ 1023) (s : Bool) : ofQuotient negative a b ≠ .infinite s := by
  by_cases ha : a = 0
  · rw [ofQuotient, if_pos ha]
    exact nofun
  obtain ⟨least, below, above⟩ := isPlace_place (Nat.pos_of_ne_zero ha) hb
  have hgreatest : place a b ≤ 970 := by
    rcases above with habove | hleast
    · have hlt : (2 : ℚ) ^ (52 + place a b) < 2 ^ (1023 : ℤ) := by
        rw [zpow_add₀ two_ne_zero]
        exact habove.trans_lt h
      have := (zpow_lt_zpow_iff_right₀ one_lt_two).1 hlt
      omega
    · omega
  have hquotient : (scaled a b (place a b)).1 / (scaled a b (place a b)).2 < 2 ^ 53 := by
    rw [scaled_div_lt hb]
    exact_mod_cast below
  have hnormal : 2 ^ 52 ≤ (scaled a b (place a b)).1 / (scaled a b (place a b)).2 ∨
      place a b = -1074 := by
    refine above.imp_left fun habove => not_lt.1 fun hlt => ?_
    rw [scaled_div_lt hb] at hlt
    exact absurd habove (not_le.2 (by exact_mod_cast hlt))
  obtain ⟨hlow, hhigh⟩ := halfEven_bounds (scaled a b (place a b)).1 (scaled a b (place a b)).2
  simp only [ofQuotient, ha, if_false]
  split
  · exact ofParts_ne_infinite (by unfold FitsDouble; norm_num; omega) negative s
  · rename_i hne
    refine ofParts_ne_infinite ⟨?_, least, by omega, ?_⟩ negative s
    · rw [Nat.pow_eq] at hne ⊢
      omega
    · exact hnormal.imp_left fun hle => hle.trans hlow

/-! ## Signs -/

theorem rounds_self (m : Nat) (e : ℤ) : Rounds m e (m * 2 ^ e) := by
  have hu : (0 : ℚ) < 2 ^ (e - 2) := by positivity
  have hk : (1 : ℚ) ≤ quartersBelow m e := by
    unfold quartersBelow
    split_ifs <;> norm_num
  have hku : 1 * (2 : ℚ) ^ (e - 2) ≤ quartersBelow m e * 2 ^ (e - 2) := by gcongr
  constructor <;> rw [two_zpow_eq_four_mul e]
  · linarith
  · linarith
  · exact fun _ => ⟨by linarith, by linarith⟩

theorem ofInt_neg_one : ofInt (-1) = .finite true (Nat.pow 2 52) (-52) (by decide) := by
  decide +kernel

/-- A product with minus one changes the sign and nothing else. -/
theorem neg_one_mul (x : Double) (hx : x.isNegative = false) : (ofInt (-1)).mul x = x.neg := by
  rw [ofInt_neg_one]
  cases x with
  | nan => rfl
  | infinite s => cases s <;> rfl
  | finite s m e fits =>
    obtain rfl : s = false := hx
    simp only [mul, neg, Bool.xor_false, Bool.not_false]
    by_cases hm : m = 0
    · subst hm
      obtain rfl : e = -1074 := fits.2.2.2.resolve_left (by decide)
      simp only [ofBinary, ofQuotient, Nat.mul_zero, Nat.zero_mul, if_true]
      rfl
    · have hm : 0 < m := Nat.pos_of_ne_zero hm
      have hvalue : ((Nat.pow 2 52 * m : ℕ) : ℚ) * 2 ^ (-52 + e) = m * 2 ^ e := by
        have he : (2 : ℚ) ^ e = 2 ^ 52 * 2 ^ (-52 + e) := by
          rw [← zpow_natCast, ← zpow_add₀ two_ne_zero]
          congr 1
          omega
        rw [he, Nat.pow_eq, Nat.cast_mul, Nat.cast_pow, Nat.cast_ofNat]
        ring
      exact ofBinary_eq true (Nat.mul_pos (Nat.pow_pos Nat.two_pos) hm) fits
        (hvalue ▸ rounds_self m e)

end Double

end PanelExport
