import PanelExport.Double.Shortest
import PanelExport.Proofs.Double.Rounding

/-!
# Shortest decimals

The search for the shortest decimal goes from coarse grids to fine ones and stops at the first that
has a point between the middles to the neighbours of the double. The last grids are finer than a
quarter of the double's unit, so the search always stops, and what it finds rounds to the double.

* `rounds_of_covers`: a grid point that an interval covers rounds to the double.
* `shortest_rounds`: the shortest decimal rounds to the double.
-/

namespace PanelExport

namespace Double

/-! ## Intervals -/

theorem quartersBelow_le_mul {m : Nat} (hm : 0 < m) (e : ℤ) : quartersBelow m e ≤ 4 * m := by
  have := quartersBelow_le m e
  omega

theorem quartersBelow_pos (m : Nat) (e : ℤ) : 0 < quartersBelow m e := by
  unfold quartersBelow
  split_ifs <;> decide

/-- Quarters of a double's unit in the units of its interval. -/
def quarterScale (e g : ℤ) : Nat :=
  Nat.pow 2 (e - 2).toNat * Nat.pow 10 (-g).toNat

theorem interval_eq (m : Nat) (e g : ℤ) :
    interval m e g =
      { low := (4 * m - quartersBelow m e) * quarterScale e g
        value := 4 * m * quarterScale e g
        high := (4 * m + 2) * quarterScale e g
        unit := Nat.pow 2 (-(e - 2)).toNat * Nat.pow 10 g.toNat
        closed := m % 2 = 0 } := rfl

theorem quarterScale_pos (e g : ℤ) : 0 < quarterScale e g :=
  Nat.mul_pos (Nat.pow_pos Nat.two_pos) (Nat.pow_pos (by decide))

/-- The units of an interval compare as the grid and the quarters of the double's unit do. -/
theorem exists_scale (m : Nat) (e g : ℤ) : ∃ k : ℚ, 0 < k ∧
    ((interval m e g).unit : ℚ) = 10 ^ g * k ∧ (quarterScale e g : ℚ) = 2 ^ (e - 2) * k := by
  refine ⟨10 ^ (-g).toNat * 2 ^ (-(e - 2)).toNat, by positivity, ?_, ?_⟩
  · rw [zpow_eq_div 10 g]
    simp only [interval_eq, Nat.pow_eq, Nat.cast_mul, Nat.cast_pow, Nat.cast_ofNat]
    field_simp
  · rw [zpow_eq_div 2 (e - 2)]
    simp only [quarterScale, Nat.pow_eq, Nat.cast_mul, Nat.cast_pow, Nat.cast_ofNat]
    field_simp

theorem quarters_le_point_iff {m : Nat} {e g : ℤ} {c p : Nat} :
    c * quarterScale e g ≤ p * (interval m e g).unit ↔ (c * 2 ^ (e - 2) : ℚ) ≤ p * 10 ^ g := by
  obtain ⟨k, hk, hunit, hscale⟩ := exists_scale m e g
  rw [← Nat.cast_le (α := ℚ), Nat.cast_mul, Nat.cast_mul, hunit, hscale, ← mul_assoc, ← mul_assoc,
    mul_le_mul_iff_left₀ hk]

theorem point_le_quarters_iff {m : Nat} {e g : ℤ} {c p : Nat} :
    p * (interval m e g).unit ≤ c * quarterScale e g ↔ (p * 10 ^ g : ℚ) ≤ c * 2 ^ (e - 2) := by
  obtain ⟨k, hk, hunit, hscale⟩ := exists_scale m e g
  rw [← Nat.cast_le (α := ℚ), Nat.cast_mul, Nat.cast_mul, hunit, hscale, ← mul_assoc, ← mul_assoc,
    mul_le_mul_iff_left₀ hk]

theorem covers_iff {m : Nat} {e g : ℤ} {p : Nat} : (interval m e g).covers p = true ↔
    if m % 2 = 0 then
      (4 * m - quartersBelow m e) * quarterScale e g ≤ p * (interval m e g).unit ∧
        p * (interval m e g).unit ≤ (4 * m + 2) * quarterScale e g
    else
      (4 * m - quartersBelow m e) * quarterScale e g < p * (interval m e g).unit ∧
        p * (interval m e g).unit < (4 * m + 2) * quarterScale e g := by
  by_cases h : m % 2 = 0 <;> simp [Interval.covers, interval_eq, h]

/-- A grid point that an interval covers rounds to the double. -/
theorem rounds_of_covers {m : Nat} (hm : 0 < m) {e g : ℤ} {p : Nat}
    (h : (interval m e g).covers p = true) : Rounds m e (p * 10 ^ g) := by
  have hlow : ((4 * m - quartersBelow m e : ℕ) : ℚ) = 4 * m - quartersBelow m e := by
    rw [Nat.cast_sub (quartersBelow_le_mul hm e), Nat.cast_mul, Nat.cast_ofNat]
  have hhigh : ((4 * m + 2 : ℕ) : ℚ) = 4 * m + 2 := by
    rw [Nat.cast_add, Nat.cast_mul, Nat.cast_ofNat, Nat.cast_ofNat]
  rw [covers_iff] at h
  split_ifs at h with heven
  · rw [quarters_le_point_iff, point_le_quarters_iff, hlow, hhigh] at h
    exact ⟨h.1, h.2, fun hodd => by omega⟩
  · rw [← not_le, ← not_le, quarters_le_point_iff, point_le_quarters_iff, not_le, not_le, hlow,
      hhigh] at h
    exact ⟨h.1.le, h.2.le, fun _ => h⟩

/-! ## The search -/

theorem halfEven_eq_or (a b : Nat) : halfEven a b = a / b ∨ halfEven a b = a / b + 1 := by
  simp only [halfEven]
  split_ifs <;> simp

/-- The point that is taken is covered. -/
theorem covers_of_nearest? {i : Interval} {p : Nat} (h : i.nearest? = some p) :
    i.covers p = true := by
  unfold Interval.nearest? at h
  simp only at h
  split at h
  · rename_i h₁ h₂
    obtain rfl := Option.some.inj h
    rcases halfEven_eq_or i.value i.unit with h | h <;> rw [h]
    · exact h₁
    · exact h₂
  · rename_i h₁ _
    exact Option.some.inj h ▸ h₁
  · rename_i h₂
    exact Option.some.inj h ▸ h₂
  · cases h

/-- On a grid that is finer than a quarter of the double's unit the search stops. -/
theorem nearest?_isSome {m : Nat} (hm : 0 < m) {e g : ℤ} (h : (10 : ℚ) ^ g ≤ 2 ^ (e - 2)) :
    (interval m e g).nearest?.isSome = true := by
  obtain ⟨k, hk, hunit, hscale⟩ := exists_scale m e g
  have hfine : (interval m e g).unit ≤ quarterScale e g := by
    rw [← Nat.cast_le (α := ℚ), hunit, hscale]
    gcongr
  have hpos : 0 < (interval m e g).unit :=
    Nat.mul_pos (Nat.pow_pos Nat.two_pos) (Nat.pow_pos (by decide))
  -- The point below the double is less than one unit away, and the middle is not.
  have hcovers : (interval m e g).covers ((interval m e g).value / (interval m e g).unit) := by
    have hbelow := Nat.div_mul_le_self (interval m e g).value (interval m e g).unit
    have habove := Nat.lt_div_mul_add (a := (interval m e g).value) hpos
    have hvalue : (interval m e g).value =
        (4 * m - quartersBelow m e) * quarterScale e g + quartersBelow m e * quarterScale e g := by
      rw [← Nat.add_mul, Nat.sub_add_cancel (quartersBelow_le_mul hm e), interval_eq]
    have hhigh : (interval m e g).value + 2 * quarterScale e g =
        (4 * m + 2) * quarterScale e g := by
      rw [Nat.add_mul, interval_eq]
    have hmiddle : quarterScale e g ≤ quartersBelow m e * quarterScale e g :=
      Nat.le_mul_of_pos_left _ (quartersBelow_pos m e)
    have hscale := quarterScale_pos e g
    rw [covers_iff]
    split_ifs <;> omega
  unfold Interval.nearest?
  simp only [hcovers]
  split <;> simp_all

theorem search_covers {m : Nat} {e : ℤ} (steps : Nat) (grid : ℤ)
    (h : ∃ i < steps, (interval m e (grid - i)).nearest?.isSome = true) :
    (interval m e (search m e steps grid).exponent).covers (search m e steps grid).digits = true ∧
      grid - steps < (search m e steps grid).exponent ∧ (search m e steps grid).exponent ≤ grid := by
  induction steps generalizing grid with
  | zero =>
    obtain ⟨i, hi, -⟩ := h
    exact absurd hi (Nat.not_lt_zero i)
  | succ steps ih =>
    rw [search]
    cases hnearest : (interval m e grid).nearest? with
    | some digits =>
      refine ⟨covers_of_nearest? hnearest, ?_, le_refl _⟩
      simp only
      omega
    | none =>
      obtain ⟨i, hi, hsome⟩ := h
      obtain ⟨j, rfl⟩ : ∃ j, i = j + 1 := by
        refine Nat.exists_eq_succ_of_ne_zero fun h0 => ?_
        simp [h0, hnearest] at hsome
      obtain ⟨hc, hlow, hhigh⟩ := ih (grid - 1)
        ⟨j, Nat.lt_of_succ_lt_succ hi, by rwa [Int.sub_sub, Int.add_comm 1]⟩
      refine ⟨hc, ?_, ?_⟩ <;> simp only <;> omega

/-! ## Powers of ten and of two -/

/-- Three digits are worth less than ten bits, and twenty-eight more than ninety-three. -/
theorem ten_zpow_le_two_zpow {g q : ℤ} (hpos : 0 ≤ q → 10 * g ≤ 3 * q)
    (hneg : q < 0 → 93 * g ≤ 28 * q) : (10 : ℚ) ^ g ≤ 2 ^ q := by
  rcases Int.lt_or_le q 0 with hq | hq
  · obtain ⟨n, rfl⟩ : ∃ n : ℕ, q = -n := ⟨q.natAbs, by omega⟩
    have hlift : ((10 : ℚ) ^ g) ^ 93 ≤ (2 ^ (-(n : ℤ))) ^ 93 := by
      calc ((10 : ℚ) ^ g) ^ 93 = 10 ^ (93 * g) := by
            rw [← zpow_natCast, ← zpow_mul, Int.mul_comm]
            rfl
        _ ≤ 10 ^ (28 * -(n : ℤ)) := zpow_le_zpow_right₀ (by norm_num) (hneg hq)
        _ = ((10 ^ 28) ^ n)⁻¹ := by rw [zpow_mul, zpow_neg, zpow_natCast]; rfl
        _ ≤ ((2 ^ 93) ^ n)⁻¹ := by gcongr; norm_num
        _ = (2 ^ (-(n : ℤ))) ^ 93 := by
          rw [zpow_neg, zpow_natCast, inv_pow, ← pow_mul, ← pow_mul, Nat.mul_comm]
    exact (pow_le_pow_iff_left₀ (by positivity) (by positivity) (by decide)).1 hlift
  · obtain ⟨n, rfl⟩ := Int.eq_ofNat_of_zero_le hq
    have hlift : ((10 : ℚ) ^ g) ^ 10 ≤ (2 ^ (n : ℤ)) ^ 10 := by
      calc ((10 : ℚ) ^ g) ^ 10 = 10 ^ (10 * g) := by
            rw [← zpow_natCast, ← zpow_mul, Int.mul_comm]
            rfl
        _ ≤ 10 ^ (3 * (n : ℤ)) := zpow_le_zpow_right₀ (by norm_num) (hpos hq)
        _ = (10 ^ 3) ^ n := by rw [zpow_mul, zpow_natCast]; rfl
        _ ≤ (2 ^ 10) ^ n := by gcongr; norm_num
        _ = (2 ^ (n : ℤ)) ^ 10 := by rw [zpow_natCast, ← pow_mul, ← pow_mul, Nat.mul_comm]
    exact (pow_le_pow_iff_left₀ (by positivity) (by positivity) (by decide)).1 hlift

theorem log2_le_of_fits {m : Nat} {e : ℤ} (hm : 0 < m) (fits : FitsDouble m e) : m.log2 ≤ 52 :=
  Nat.le_of_lt_succ ((Nat.log2_lt hm.ne').2 fits.1)

/-- The search starts near the power of ten that a double has. -/
theorem above_bounds {m : Nat} {e : ℤ} (hm : 0 < m) (fits : FitsDouble m e) :
    -350 ≤ above m e - 24 ∧ above m e ≤ 350 ∧ (10 : ℚ) ^ (above m e - 23) ≤ 2 ^ (e - 2) := by
  have hlog := log2_le_of_fits hm fits
  obtain ⟨-, hleast, hmost, -⟩ := fits
  simp only [above, Int.fdiv_eq_ediv_of_nonneg _ (show (0 : ℤ) ≤ 100000 by decide)]
  refine ⟨by omega, by omega, ten_zpow_le_two_zpow (fun _ => by omega) (fun _ => by omega)⟩

/-- The shortest decimal rounds to the double, and its exponent is moderate. -/
theorem shortest_rounds {m : Nat} {e : ℤ} (hm : 0 < m) (fits : FitsDouble m e) :
    Rounds m e ((shortest m e).digits * 10 ^ (shortest m e).exponent) ∧
      -350 ≤ (shortest m e).exponent ∧ (shortest m e).exponent ≤ 350 := by
  obtain ⟨hlow, hhigh, hfine⟩ := above_bounds hm fits
  obtain ⟨hc, hgt, hle⟩ := search_covers (m := m) (e := e) 24 (above m e)
    ⟨23, by decide, nearest?_isSome hm hfine⟩
  simp only [shortest, hm.ne', if_false]
  refine ⟨rounds_of_covers hm hc, ?_, ?_⟩ <;> omega

/-- What rounds to a double that is not zero is not zero. -/
theorem pos_of_rounds {m : Nat} {e : ℤ} (hm : 0 < m) {q : ℚ} (h : Rounds m e q) : 0 < q := by
  have hu : (0 : ℚ) < 2 ^ (e - 2) := by positivity
  have hk : (quartersBelow m e : ℚ) ≤ 2 := by exact_mod_cast quartersBelow_le m e
  have hm' : (1 : ℚ) ≤ m := by exact_mod_cast hm
  have hc : (0 : ℚ) < 4 * m - quartersBelow m e := by linarith
  exact (mul_pos hc hu).trans_le h.low

/-! ## Decimals and products -/

/-- A decimal that rounds to a double is read as it. -/
theorem ofDecimal_eq (negative : Bool) {m : Nat} {e : ℤ} (hm : 0 < m) (fits : FitsDouble m e)
    {n : Nat} {k : ℤ} (hlow : -400 ≤ k) (hhigh : k ≤ 400) (h : Rounds m e (n * 10 ^ k)) :
    ofDecimal negative n k = .finite negative m e fits := by
  have hn : 0 < n := by
    have := pos_of_rounds hm h
    by_contra hn
    simp [Nat.eq_zero_of_not_pos hn] at this
  have hratio : ((n * Nat.pow 10 k.toNat : ℕ) : ℚ) / (Nat.pow 10 (-k).toNat : ℕ) = n * 10 ^ k := by
    rw [zpow_eq_div 10 k]
    simp only [Nat.pow_eq, Nat.cast_mul, Nat.cast_pow, Nat.cast_ofNat]
    rw [mul_div_assoc]
  have hzero : ¬ (n = 0 ∨ k < -(400 + n.log2 : ℤ)) := by omega
  rw [ofDecimal, if_neg hzero, if_neg (not_lt.2 hhigh)]
  exact ofQuotient_eq negative (Nat.mul_pos hn (Nat.pow_pos (by decide)))
    (Nat.pow_pos (by decide)) fits (hratio ▸ h)

end Double

end PanelExport
