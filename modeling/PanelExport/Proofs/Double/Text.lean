import PanelExport.Proofs.Double.Shortest
import PanelExport.Proofs.Numeral

/-!
# The texts of doubles

A double is written as the numeral of its shortest decimal. The numeral is read as a decimal of the
same value, which rounds to the double.

* `Decimal.exists_numeral`: the text of a decimal is a numeral with its value.
* `exists_spelling`: the text of a double is a numeral that is read as it.
-/

namespace PanelExport

namespace Double

/-- A numeral says the value of a decimal. -/
structure Says (n : DecimalNumeral) (d : Decimal) : Prop where
  proper : n.IsProper
  chars : n.chars = d.text.toList
  value : (n.digits * 10 ^ n.exponent : ℚ) = d.digits * 10 ^ d.exponent
  low : -400 ≤ n.exponent
  high : n.exponent ≤ 400

theorem isDigit_of_mem_toDigits {n : Nat} : ∀ c ∈ Nat.toDigits 10 n, c.isDigit = true :=
  fun _ hc => Nat.isDigit_of_mem_toDigits (by decide) (by decide) hc

theorem isDigit_of_mem_zeros {k : Nat} : ∀ c ∈ List.replicate k '0', c.isDigit = true := by
  intro c hc
  rw [List.eq_of_mem_replicate hc]
  rfl

namespace Decimal

variable {d : Decimal}

/-- Where the first digit of a decimal stands. -/
def first (d : Decimal) : ℤ :=
  d.exponent + (Nat.toDigits 10 d.digits).length - 1

theorem length_digits_pos (d : Decimal) : 0 < (Nat.toDigits 10 d.digits).length :=
  Nat.length_toDigits_pos

theorem text_near (hlow : -4 ≤ d.first) (hhigh : d.first < 16) :
    d.text.toList =
      (if ((Nat.toDigits 10 d.digits).take (d.first + 1).toNat).isEmpty then ['0']
        else (Nat.toDigits 10 d.digits).take (d.first + 1).toNat ++
          List.replicate d.exponent.toNat '0') ++
      '.' :: (if (List.replicate (-d.first - 1).toNat '0' ++
            (Nat.toDigits 10 d.digits).drop (d.first + 1).toNat).isEmpty then ['0']
        else List.replicate (-d.first - 1).toNat '0' ++
          (Nat.toDigits 10 d.digits).drop (d.first + 1).toNat) := by
  simp only [first] at hlow hhigh ⊢
  simp only [text, Nat.toString_eq_repr, Nat.toList_repr, hlow, hhigh, and_self, if_true,
    String.toList_ofList]
  rfl

/-- A whole number with a point behind it. -/
theorem says_of_whole (hlow : 0 ≤ d.exponent) (hhigh : d.first < 16) :
    Says ⟨Nat.toDigits 10 d.digits ++ List.replicate d.exponent.toNat '0', ['0'], none⟩ d where
  proper :=
    { whole_ne_nil := by simp [Nat.toDigits_ne_nil]
      whole := List.forall_mem_append.2 ⟨isDigit_of_mem_toDigits, isDigit_of_mem_zeros⟩
      fraction := by simp
      power := nofun }
  chars := by
    have hlength := length_digits_pos d
    have hfirst : (Nat.toDigits 10 d.digits).length ≤ (d.first + 1).toNat := by
      simp only [first]
      omega
    have hzeros : (-d.first - 1).toNat = 0 := by omega
    rw [text_near (by simp only [first]; omega) hhigh, List.take_of_length_le hfirst,
      List.drop_of_length_le hfirst, hzeros]
    simp [DecimalNumeral.chars, DecimalNumeral.fractionChars, DecimalNumeral.powerChars,
      Nat.toDigits_ne_nil]
  value := by
    obtain ⟨k, hk⟩ := Int.eq_ofNat_of_zero_le hlow
    have hdigits : Nat.ofDigitChars 10
        (Nat.toDigits 10 d.digits ++ List.replicate k '0' ++ ['0']) 0 = d.digits * 10 ^ (k + 1) := by
      rw [Nat.ofDigitChars_append, Nat.ofDigitChars_append, Nat.ofDigitChars_ten_toDigits,
        Nat.ofDigitChars_replicate_zero, Nat.ofDigitChars_cons, Nat.ofDigitChars_nil, Nat.pow_succ]
      simp only [Nat.sub_self, Nat.add_zero]
      ring
    simp only [DecimalNumeral.digits, DecimalNumeral.exponent, DecimalNumeral.power, hk,
      Int.toNat_natCast, hdigits, List.length_singleton]
    rw [zpow_natCast]
    push_cast
    rw [pow_succ]
    norm_num
    ring
  low := by
    simp only [DecimalNumeral.exponent, DecimalNumeral.power]
    decide
  high := by
    simp only [DecimalNumeral.exponent, DecimalNumeral.power]
    decide

/-- Digits around a point. -/
theorem says_of_split (hlow : d.exponent < 0) (hfirst : 0 ≤ d.first) (hhigh : d.first < 16)
    (hleast : -400 ≤ d.exponent) :
    Says ⟨(Nat.toDigits 10 d.digits).take (d.first + 1).toNat,
      (Nat.toDigits 10 d.digits).drop (d.first + 1).toNat, none⟩ d := by
  have hlength := length_digits_pos d
  have htake : (Nat.toDigits 10 d.digits).take (d.first + 1).toNat ≠ [] := by
    rw [Ne, List.take_eq_nil_iff, not_or]
    exact ⟨by omega, Nat.toDigits_ne_nil⟩
  have hdrop : (Nat.toDigits 10 d.digits).drop (d.first + 1).toNat ≠ [] := by
    rw [Ne, List.drop_eq_nil_iff]
    simp only [first]
    omega
  have hexponent : -((Nat.toDigits 10 d.digits).drop (d.first + 1).toNat).length = d.exponent := by
    simp only [first] at hfirst ⊢
    rw [List.length_drop]
    omega
  exact
    { proper :=
        { whole_ne_nil := htake
          whole := fun c hc => isDigit_of_mem_toDigits c (List.mem_of_mem_take hc)
          fraction := fun c hc => isDigit_of_mem_toDigits c (List.mem_of_mem_drop hc)
          power := nofun }
      chars := by
        have hzeros : (-d.first - 1).toNat = 0 := by omega
        have hexp : d.exponent.toNat = 0 := by omega
        rw [text_near (by omega) hhigh, hzeros, hexp]
        simp [DecimalNumeral.chars, DecimalNumeral.fractionChars, DecimalNumeral.powerChars, htake,
          hdrop]
      value := by
        simp only [DecimalNumeral.digits, DecimalNumeral.exponent, DecimalNumeral.power,
          List.take_append_drop, Nat.ofDigitChars_ten_toDigits, zero_sub, hexponent]
      low := by
        simp only [DecimalNumeral.exponent, DecimalNumeral.power, zero_sub, hexponent, hleast]
      high := by
        simp only [DecimalNumeral.exponent, DecimalNumeral.power, zero_sub, hexponent]
        omega }

/-- Digits behind a point and zeros. -/
theorem says_of_fraction (hlow : -4 ≤ d.first) (hfirst : d.first < 0) (hleast : -400 ≤ d.exponent) :
    Says ⟨['0'], List.replicate (-d.first - 1).toNat '0' ++ Nat.toDigits 10 d.digits, none⟩ d := by
  have hexponent : -((List.replicate (-d.first - 1).toNat '0' ++
      Nat.toDigits 10 d.digits).length : ℤ) = d.exponent := by
    simp only [first] at hfirst ⊢
    rw [List.length_append, List.length_replicate]
    omega
  have hvalue : Nat.ofDigitChars 10
      (['0'] ++ (List.replicate (-d.first - 1).toNat '0' ++ Nat.toDigits 10 d.digits)) 0 =
        d.digits := by
    rw [List.singleton_append, Nat.ofDigitChars_cons, Nat.ofDigitChars_append,
      Nat.ofDigitChars_replicate_zero]
    simp
  exact
    { proper :=
        { whole_ne_nil := by simp
          whole := by simp
          fraction := List.forall_mem_append.2 ⟨isDigit_of_mem_zeros, isDigit_of_mem_toDigits⟩
          power := nofun }
      chars := by
        have hnone : (d.first + 1).toNat = 0 := by omega
        rw [text_near hlow (by omega), hnone]
        simp [DecimalNumeral.chars, DecimalNumeral.fractionChars, DecimalNumeral.powerChars,
          Nat.toDigits_ne_nil]
      value := by
        simp only [DecimalNumeral.digits, DecimalNumeral.exponent, DecimalNumeral.power, hvalue,
          zero_sub, hexponent]
      low := by
        simp only [DecimalNumeral.exponent, DecimalNumeral.power, zero_sub, hexponent, hleast]
      high := by
        simp only [DecimalNumeral.exponent, DecimalNumeral.power, zero_sub, hexponent]
        simp only [first] at hfirst
        omega }

theorem text_far (h : ¬ (-4 ≤ d.first ∧ d.first < 16)) :
    d.text.toList =
      ((Nat.toDigits 10 d.digits).take 1 ++
        (if ((Nat.toDigits 10 d.digits).drop 1).isEmpty then []
          else '.' :: (Nat.toDigits 10 d.digits).drop 1)) ++ (exponentText d.first).toList := by
  simp only [first] at h ⊢
  simp only [text, Nat.toString_eq_repr, Nat.toList_repr, h, if_false, String.toList_append,
    String.toList_ofList]

/-- The digits of a power of ten, of which there are at least two. -/
def powerDigits (e : ℤ) : List Char :=
  if (Nat.toDigits 10 e.natAbs).length < 2 then '0' :: Nat.toDigits 10 e.natAbs
  else Nat.toDigits 10 e.natAbs

theorem toList_exponentText (e : ℤ) :
    (exponentText e).toList =
      DecimalNumeral.powerChars (some (decide (e < 0), powerDigits e)) := by
  simp only [exponentText, powerDigits, DecimalNumeral.powerChars, Nat.toString_eq_repr,
    ← String.length_toList, Nat.toList_repr, String.toList_append]
  split_ifs <;> simp_all <;> omega

theorem ofDigitChars_powerDigits (e : ℤ) :
    Nat.ofDigitChars 10 (powerDigits e) 0 = e.natAbs := by
  unfold powerDigits
  split_ifs <;> simp [Nat.ofDigitChars_cons]

theorem powerDigits_proper (e : ℤ) :
    powerDigits e ≠ [] ∧ ∀ c ∈ powerDigits e, c.isDigit = true := by
  unfold powerDigits
  split_ifs
  · exact ⟨by simp, List.forall_mem_cons.2 ⟨rfl, isDigit_of_mem_toDigits⟩⟩
  · exact ⟨Nat.toDigits_ne_nil, isDigit_of_mem_toDigits⟩

/-- One digit, the others behind a point, and a power of ten. -/
theorem says_of_power (h : ¬ (-4 ≤ d.first ∧ d.first < 16)) (hleast : -400 ≤ d.exponent)
    (hmost : d.exponent ≤ 400) :
    Says ⟨(Nat.toDigits 10 d.digits).take 1, (Nat.toDigits 10 d.digits).drop 1,
      some (decide (d.first < 0), powerDigits d.first)⟩ d := by
  have hlength := length_digits_pos d
  have hpower : DecimalNumeral.power (some (decide (d.first < 0), powerDigits d.first)) =
      d.first := by
    simp only [DecimalNumeral.power, ofDigitChars_powerDigits, decide_eq_true_eq]
    split_ifs <;> omega
  have hexponent : d.first - ((Nat.toDigits 10 d.digits).drop 1).length = d.exponent := by
    simp only [first]
    rw [List.length_drop]
    omega
  exact
    { proper :=
        { whole_ne_nil := by
            rw [Ne, List.take_eq_nil_iff, not_or]
            exact ⟨by decide, Nat.toDigits_ne_nil⟩
          whole := fun c hc => isDigit_of_mem_toDigits c (List.mem_of_mem_take hc)
          fraction := fun c hc => isDigit_of_mem_toDigits c (List.mem_of_mem_drop hc)
          power := fun p hp => Option.some.inj hp ▸ powerDigits_proper d.first }
      chars := by
        rw [text_far h, toList_exponentText]
        rfl
      value := by
        simp only [DecimalNumeral.digits, DecimalNumeral.exponent, hpower, hexponent,
          List.take_append_drop, Nat.ofDigitChars_ten_toDigits]
      low := by simp only [DecimalNumeral.exponent, hpower, hexponent, hleast]
      high := by simp only [DecimalNumeral.exponent, hpower, hexponent, hmost] }

/-- The text of a decimal is a numeral with its value. -/
theorem exists_numeral (hlow : -400 ≤ d.exponent) (hhigh : d.exponent ≤ 400) :
    ∃ n, Says n d := by
  by_cases hnear : -4 ≤ d.first ∧ d.first < 16
  · by_cases hwhole : 0 ≤ d.exponent
    · exact ⟨_, says_of_whole hwhole hnear.2⟩
    · by_cases hfirst : 0 ≤ d.first
      · exact ⟨_, says_of_split (not_le.1 hwhole) hfirst hnear.2 hlow⟩
      · exact ⟨_, says_of_fraction hnear.1 (not_le.1 hfirst) hlow⟩
  · exact ⟨_, says_of_power hnear hlow hhigh⟩

end Decimal

/-! ## Doubles -/

/-- A numeral that is read as a double. -/
structure Spells (n : DecimalNumeral) (x : Double) : Prop where
  proper : n.IsProper
  chars : n.chars = x.text.toList
  value : readDecimal? n.chars = some x

/-- The text of a finite double without a sign is a numeral that is read as it. -/
theorem exists_spelling {m : Nat} {e : ℤ} (fits : FitsDouble m e) :
    ∃ n, Spells n (.finite false m e fits) := by
  by_cases hm : m = 0
  · subst hm
    have he : e = -1074 := fits.2.2.2.resolve_left (by decide)
    subst he
    refine ⟨⟨['0'], ['0'], none⟩, ⟨by simp, by simp, by simp, nofun⟩, ?_, ?_⟩
    · decide +kernel +revert
    · decide +kernel +revert
  · have hm : 0 < m := Nat.pos_of_ne_zero hm
    obtain ⟨hrounds, hlow, hhigh⟩ := shortest_rounds hm fits
    obtain ⟨n, hproper, hchars, hvalue, hleast, hmost⟩ :=
      Decimal.exists_numeral (d := shortest m e) (by omega) (by omega)
    refine ⟨n, hproper, ?_, ?_⟩
    · rw [hchars]
      simp [text]
    · rw [DecimalNumeral.readDecimal?_chars hproper,
        ofDecimal_eq false hm fits hleast hmost (hvalue ▸ hrounds)]

/-- The text of a double is letters and digits, with points and signs among them. -/
theorem mem_text {x : Double} {c : Char} (hc : c ∈ x.text.toList) :
    c.isAlphanum = true ∨ c ∈ ['.', '+', '-'] := by
  have hall : ∀ {cs : List Char},
      cs.all (fun c => c.isAlphanum || ['.', '+', '-'].contains c) = true → c ∈ cs →
        c.isAlphanum = true ∨ c ∈ ['.', '+', '-'] := fun hcs hc => by
    simpa using List.all_eq_true.1 hcs c hc
  cases x with
  | nan => exact hall (by decide) hc
  | infinite s => cases s <;> exact hall (by decide) hc
  | finite s m e fits =>
    obtain ⟨n, hn⟩ := exists_spelling fits
    have hsplit : c ∈ (if s then "-" else "").toList ∨ c ∈ n.chars := by
      rw [hn.chars]
      simpa [text, String.toList_append] using hc
    rcases hsplit with hc | hc
    · cases s with
      | false => cases hc
      | true => exact hall (by decide) hc
    · rcases DecimalNumeral.mem_chars hn.proper hc with hdigit | hmark
      · exact .inl (isAlphanum_of_isDigit hdigit)
      · exact hall (by decide) hmark

end Double

end PanelExport
