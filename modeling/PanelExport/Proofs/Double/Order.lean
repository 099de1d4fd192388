import Mathlib.Algebra.Order.Floor.Semifield
import Mathlib.Data.Nat.Cast.Order.Field
import Mathlib.Data.Rat.Floor
import PanelExport.Proofs.Double.Thousandths

/-!
# Rounding keeps the order

Of two values the greater one is not rounded to the lesser double, whatever the places of the two:
a place ends where the next one starts. So the order is kept by a division, by a product with a
thousand and by cutting off the fraction, also below zero, where the order of the magnitudes is the
other way round.

* `RoundsTo`, `RoundsTo.mono`: what a value is rounded to, and its order.
* `IsRounding`: a finite double as the rounding of a value with a sign.
* `trunc?_thousandths_mono`: seconds to thousandths, without the fraction.
-/

namespace PanelExport

section

variable {n d n' d' : Nat}

/-- The whole numbers nearest to two quotients are ordered as the quotients are. -/
theorem halfEven_mono (hd : 0 < d) (hd' : 0 < d') (h : n * d' ≤ n' * d) :
    halfEven n d ≤ halfEven n' d' := by
  have hn := Nat.div_add_mod n d
  have hn' := Nat.div_add_mod n' d'
  have hfloor : n / d ≤ n' / d' := by
    rw [Nat.le_div_iff_mul_le hd']
    refine le_of_mul_le_mul_right (a := d) ?_ hd
    calc n / d * d' * d = n / d * d * d' := by ring
      _ ≤ n * d' := Nat.mul_le_mul_right _ (Nat.div_mul_le_self n d)
      _ ≤ n' * d := h
  rcases Nat.lt_or_eq_of_le hfloor with hlt | heq
  · exact (halfEven_bounds n d).2.trans (Nat.le_trans hlt (halfEven_bounds n' d').1)
  · have hrest : n % d * d' ≤ n' % d' * d := by
      rw [← hn, ← hn', ← heq] at h
      nlinarith
    have habove : d < 2 * (n % d) → d' < 2 * (n' % d') := fun hlt => by nlinarith
    have hhalf : d ≤ 2 * (n % d) → d' ≤ 2 * (n' % d') := fun hle => by nlinarith
    simp only [halfEven, ← heq]
    split_ifs <;> omega

theorem halfEven_le_of_lt {k : Nat} (hd : 0 < d) (h : (n / d : ℚ) < k) : halfEven n d ≤ k := by
  rw [div_lt_iff₀ (Nat.cast_pos.2 hd)] at h
  have hlt : n / d < k := (Nat.div_lt_iff_lt_mul hd).2 (by exact_mod_cast h)
  exact (halfEven_bounds n d).2.trans hlt

theorem le_halfEven {k : Nat} (hd : 0 < d) (h : (k : ℚ) ≤ n / d) : k ≤ halfEven n d := by
  rw [le_div_iff₀ (Nat.cast_pos.2 hd)] at h
  have hle : k ≤ n / d := (Nat.le_div_iff_mul_le hd).2 (by exact_mod_cast h)
  exact hle.trans (halfEven_bounds n d).1

end

namespace Double

/-! ## Magnitudes -/

/-- A value that is not negative is rounded to another one, at its place. -/
def RoundsTo (q v : ℚ) : Prop :=
  ∃ (e : ℤ) (n d : Nat), IsPlace q e ∧ 0 < d ∧ q = n / d * 2 ^ e ∧ v = halfEven n d * 2 ^ e

namespace RoundsTo

variable {q v q' v' : ℚ}

theorem zero : RoundsTo 0 0 :=
  ⟨-1074, 0, 1, ⟨le_refl _, by positivity, .inr rfl⟩, Nat.one_pos, by simp, by simp [halfEven]⟩

theorem nonneg (h : RoundsTo q v) : 0 ≤ q ∧ 0 ≤ v := by
  obtain ⟨e, n, d, -, -, rfl, rfl⟩ := h
  constructor <;> positivity

/-- A greater value is not rounded to a lesser one. -/
theorem mono (h : RoundsTo q v) (h' : RoundsTo q' v') (hle : q ≤ q') : v ≤ v' := by
  obtain ⟨e, n, d, hplace, hd, rfl, rfl⟩ := h
  obtain ⟨f, n', d', hplace', hd', rfl, rfl⟩ := h'
  have he : (0 : ℚ) < 2 ^ e := by positivity
  have hf : (0 : ℚ) < 2 ^ f := by positivity
  have next {e f : ℤ} (hlt : e < f) : (2 : ℚ) ^ 53 * 2 ^ e ≤ 2 ^ 52 * 2 ^ f := by
    have hpow : (2 : ℚ) ^ (e + 1) ≤ 2 ^ f := zpow_le_zpow_right₀ one_le_two hlt
    rw [zpow_add_one₀ two_ne_zero] at hpow
    linarith
  rcases lt_trichotomy e f with hlt | rfl | hlt
  · -- The lower place ends where the mantissas of the higher one start.
    have hhigh : (halfEven n d : ℚ) ≤ 2 ^ 53 := by
      have hbelow := (mul_lt_mul_iff_left₀ he).1 hplace.below
      exact_mod_cast halfEven_le_of_lt (k := 2 ^ 53) hd (by exact_mod_cast hbelow)
    have hlow : (2 : ℚ) ^ 52 ≤ halfEven n' d' := by
      have habove := hplace'.above.resolve_right (by have := hplace.least; omega)
      have habove := (mul_le_mul_iff_left₀ hf).1 habove
      exact_mod_cast le_halfEven (k := 2 ^ 52) hd' (by exact_mod_cast habove)
    calc (halfEven n d : ℚ) * 2 ^ e ≤ 2 ^ 53 * 2 ^ e := by gcongr
      _ ≤ 2 ^ 52 * 2 ^ f := next hlt
      _ ≤ halfEven n' d' * 2 ^ f := by gcongr
  · have hquotients := (mul_le_mul_iff_left₀ he).1 hle
    rw [div_le_div_iff₀ (Nat.cast_pos.2 hd) (Nat.cast_pos.2 hd')] at hquotients
    have hmono : halfEven n d ≤ halfEven n' d' := halfEven_mono hd hd' (by exact_mod_cast hquotients)
    gcongr
  · have habove := hplace.above.resolve_right (by have := hplace'.least; omega)
    exact absurd (hle.trans_lt hplace'.below) (not_lt.2 ((next hlt).trans habove))

/-- A value is at most doubled, apart from one. -/
theorem le_double (h : RoundsTo q v) : v ≤ 2 * q + 1 := by
  obtain ⟨e, n, d, hplace, hd, rfl, rfl⟩ := h
  have he : (0 : ℚ) < 2 ^ e := by positivity
  have hfloor : (halfEven n d : ℚ) ≤ n / d + 1 := by
    have hbound : ((halfEven n d : ℕ) : ℚ) ≤ (n / d : ℕ) + 1 := by
      exact_mod_cast (halfEven_bounds n d).2
    exact hbound.trans (by gcongr; exact Nat.cast_div_le)
  have hunit : (2 : ℚ) ^ e ≤ n / d * 2 ^ e + 1 := by
    have hq : (0 : ℚ) ≤ n / d * 2 ^ e := by positivity
    rcases hplace.above with habove | hleast
    · linarith
    · rw [hleast] at hq ⊢
      have hone : (2 : ℚ) ^ (-1074 : ℤ) ≤ 1 := zpow_le_one_of_nonpos₀ one_le_two (by decide)
      linarith
  calc (halfEven n d : ℚ) * 2 ^ e ≤ (n / d + 1) * 2 ^ e := by gcongr
    _ ≤ 2 * (n / d * 2 ^ e) + 1 := by linarith

end RoundsTo

/-! ## Signs -/

/-- A magnitude with a sign. -/
def signed (negative : Bool) (q : ℚ) : ℚ := if negative then -q else q

/-- The greater of two values with signs is not rounded to the lesser number. -/
theorem RoundsTo.signed_mono {s s' : Bool} {q v q' v' : ℚ} (h : RoundsTo q v) (h' : RoundsTo q' v')
    (hle : signed s q ≤ signed s' q') : signed s v ≤ signed s' v' := by
  have hq := h.nonneg
  have hq' := h'.nonneg
  cases s <;> cases s' <;> simp only [signed, if_true, if_false, Bool.false_eq_true] at hle ⊢
  · exact h.mono h' hle
  · -- Only zero is neither above nor below a value of the other sign.
    obtain rfl : q = 0 := by linarith
    obtain rfl : q' = 0 := by linarith
    have hv := h.mono .zero le_rfl
    have hv' := h'.mono .zero le_rfl
    linarith
  · linarith
  · exact neg_le_neg (h'.mono h (neg_le_neg_iff.1 hle))

/-- A finite double is what a value of this sign and this magnitude is rounded to. -/
def IsRounding (x : Double) (negative : Bool) (q v : ℚ) : Prop :=
  RoundsTo q v ∧ ∃ m e fits, x = .finite negative m e fits ∧ v = m * 2 ^ e

theorem isRounding_ofQuotient (negative : Bool) {a b : Nat} (hb : 0 < b)
    (hsmall : (a / b : ℚ) < 2 ^ 1023) :
    ∃ v, IsRounding (ofQuotient negative a b) negative (a / b) v := by
  by_cases ha : a = 0
  · subst ha
    refine ⟨0, ?_, 0, -1074, by decide, by simp [ofQuotient, zero], by simp⟩
    rw [Nat.cast_zero, zero_div]
    exact .zero
  · have hfinite := ofQuotient_ne_infinite negative hb hsmall negative
    have hplace := isPlace_place (Nat.pos_of_ne_zero ha) hb
    have hd : 0 < (scaled a b (place a b)).2 := Nat.mul_pos hb (Nat.pow_pos Nat.two_pos)
    have hvalue : (a / b : ℚ) =
        (scaled a b (place a b)).1 / (scaled a b (place a b)).2 * 2 ^ place a b := by
      rw [scaled_div, div_mul_cancel₀ _ (by positivity)]
    refine ⟨_, ⟨_, _, _, hplace, hd, hvalue, rfl⟩, ?_⟩
    unfold ofQuotient at hfinite ⊢
    simp only [ha, if_false, ofParts] at hfinite ⊢
    split_ifs at hfinite ⊢ with htop hfits hfits
    · refine ⟨_, _, hfits, rfl, ?_⟩
      rw [htop, zpow_add_one₀ two_ne_zero]
      norm_num
      ring
    · exact absurd rfl hfinite
    · exact ⟨_, _, hfits, rfl, rfl⟩
    · exact absurd rfl hfinite

/-! ## Seconds and thousandths -/

theorem signed_natAbs (t : ℤ) (d : Nat) : signed (decide (t < 0)) (t.natAbs / d) = t / d := by
  have habs : ((t.natAbs : ℕ) : ℚ) = |(t : ℚ)| := by
    rw [Nat.cast_natAbs, Int.cast_abs]
  by_cases h : t < 0
  · have ht : (t : ℚ) < 0 := by exact_mod_cast h
    rw [signed, decide_eq_true h, if_pos rfl, habs, abs_of_neg ht]
    ring
  · have ht : (0 : ℚ) ≤ t := by exact_mod_cast not_lt.1 h
    rw [signed, decide_eq_false h, if_neg Bool.false_ne_true, habs, abs_of_nonneg ht]

theorem signed_mul (s : Bool) {c : ℚ} (q : ℚ) : signed s (c * q) = c * signed s q := by
  cases s <;> simp [signed]

namespace IsRounding

variable {x : Double} {s : Bool} {q v : ℚ}

/-- A product with a thousand is rounded once more. -/
theorem mul_thousand (h : IsRounding x s q v) (hsmall : q < 2 ^ 64) :
    ∃ w, IsRounding (x.mul (ofInt 1000)) s (1000 * v) w := by
  obtain ⟨hrounds, m, e, fits, rfl, rfl⟩ := h
  have hle := hrounds.le_double
  have hvalue := (binary_div (m * (1000 * Nat.pow 2 43)) (e + -43)).trans (thousand_value m e)
  rw [mul_assoc (1000 : ℚ)] at hvalue
  rw [ofInt_thousand, mul, Bool.xor_false, ofBinary, ← hvalue]
  refine isRounding_ofQuotient s (Nat.pow_pos Nat.two_pos) ?_
  rw [hvalue]
  calc 1000 * (m * 2 ^ e : ℚ) ≤ 1000 * (2 * 2 ^ 64 + 1) := by linarith
    _ < 2 ^ 80 := by norm_num
    _ ≤ 2 ^ 1023 := pow_le_pow_right₀ one_le_two (by decide)

/-- The number without its fraction. -/
theorem trunc?_eq (h : IsRounding x s q v) :
    x.trunc? = some (if s then -(⌊v⌋₊ : ℤ) else ⌊v⌋₊) := by
  obtain ⟨-, m, e, fits, rfl, rfl⟩ := h
  rw [← binary_div, Nat.floor_div_eq_div, trunc?]

end IsRounding

/-- Without the fraction, the order of two numbers stays. -/
theorem trunc_mono {s s' : Bool} {v v' : ℚ} (hv : 0 ≤ v) (hv' : 0 ≤ v')
    (hle : signed s v ≤ signed s' v') :
    (if s then -(⌊v⌋₊ : ℤ) else ⌊v⌋₊) ≤ if s' then -(⌊v'⌋₊ : ℤ) else ⌊v'⌋₊ := by
  cases s <;> cases s' <;> simp only [signed, if_true, if_false, Bool.false_eq_true] at hle ⊢
  · exact_mod_cast Nat.floor_mono hle
  · obtain rfl : v = 0 := by linarith
    obtain rfl : v' = 0 := by linarith
    simp
  · omega
  · have := Nat.floor_mono (neg_le_neg_iff.1 hle)
    omega

/-- The thousandths of two numbers of millionths, each through its double of seconds and without the
fraction, are ordered as the numbers are. -/
theorem trunc?_thousandths_mono {t t' : ℤ} (ht : t.natAbs < 2 ^ 64) (ht' : t'.natAbs < 2 ^ 64)
    (hle : t ≤ t') :
    ∃ n n', ((ofRatio t 1000000).mul (ofInt 1000)).trunc? = some n ∧
      ((ofRatio t' 1000000).mul (ofInt 1000)).trunc? = some n' ∧ n ≤ n' := by
  have small {t : ℤ} (ht : t.natAbs < 2 ^ 64) : (t.natAbs / (1000000 : ℕ) : ℚ) < 2 ^ 64 := by
    have hlt : (t.natAbs : ℚ) < 2 ^ 64 := by exact_mod_cast ht
    rw [div_lt_iff₀ (by norm_num)]
    push_cast
    linarith
  have finite {t : ℤ} (ht : t.natAbs < 2 ^ 64) := isRounding_ofQuotient (t < 0)
    (a := t.natAbs) (b := 1000000) (by decide)
    ((small ht).trans (pow_lt_pow_right₀ one_lt_two (by decide)))
  obtain ⟨v, hv⟩ := finite ht
  obtain ⟨v', hv'⟩ := finite ht'
  obtain ⟨w, hw⟩ := hv.mul_thousand (small ht)
  obtain ⟨w', hw'⟩ := hv'.mul_thousand (small ht')
  refine ⟨_, _, hw.trunc?_eq, hw'.trunc?_eq, trunc_mono hw.1.nonneg.2 hw'.1.nonneg.2 ?_⟩
  refine hw.1.signed_mono hw'.1 ?_
  rw [signed_mul, signed_mul]
  refine mul_le_mul_of_nonneg_left (hv.1.signed_mono hv'.1 ?_) (by norm_num)
  rw [signed_natAbs, signed_natAbs]
  gcongr

end Double

end PanelExport
