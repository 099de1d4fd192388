import Mathlib.Data.Nat.Digits.Defs
import PanelExport.Proofs.Double.Rounding
import PanelExport.Proofs.Query.Literals
import PanelExport.Proofs.Query.Sources
import PanelExport.Query.Metrics

/-!
# The magnitude of literals

A short literal is no great number. The value of up to 257 characters is below the last power of two
among the doubles, whether they are a hexadecimal number or a duration, so it is or becomes a
double. One more character is enough for a hexadecimal number that is past the greatest double.

* `ofDigits_lt`: a number is below the power of its base with as many digits.
* `sumChunks_below`: a duration is at most ten times as long for every character.
* `valuedText_of_length`: the literals of a short text have the values that they need.
-/

namespace PanelExport

/-- A number is below the power of its base with as many digits. -/
theorem ofDigits_lt {base : Nat} (hbase : 1 < base) {digits : List Nat}
    (h : ∀ d ∈ digits, d < base) : ofDigits base digits < base ^ digits.length := by
  have heq : ofDigits base digits = Nat.ofDigits base digits.reverse := by
    rw [Nat.ofDigits_eq_foldr, List.foldr_reverse, ofDigits]
    simp only [Nat.add_comm, Nat.cast_id]
  rw [heq, ← List.length_reverse]
  exact Nat.ofDigits_lt_base_pow_length hbase (by simpa using h)

theorem doubleOfInt_of_lt {n : Int} (h : n.natAbs < 2 ^ 1023) : ∃ x, doubleOfInt n = .ok x := by
  have hlt : (n.natAbs / (1 : ℕ) : ℚ) < 2 ^ 1023 := by
    rw [Nat.cast_one, div_one]
    exact_mod_cast h
  unfold doubleOfInt
  split
  · rename_i s hs
    exact absurd hs (Double.ofQuotient_ne_infinite _ Nat.one_pos hlt s)
  · exact ⟨_, rfl⟩

namespace Query

/-! ## Durations -/

/-- A whole number is below a bound. -/
def Number.Below (bound : Nat) : Number → Prop
  | .whole n => n.natAbs < bound
  | .double _ => True

theorem Number.Below.mono {b c : Nat} {value : Number} (h : value.Below b) (hle : b ≤ c) :
    value.Below c := by
  cases value with
  | whole n => exact Nat.lt_of_lt_of_le h hle
  | double x => trivial

theorem Number.Below.toDouble {bound : Nat} {value : Number} (h : value.Below bound)
    (hb : bound ≤ 2 ^ 1023) : ∃ x, value.toDouble = .ok x := by
  cases value with
  | whole n => exact doubleOfInt_of_lt (Nat.lt_of_lt_of_le h hb)
  | double x => exact ⟨x, rfl⟩

theorem Number.Below.add {b c : Nat} {m n : Number} (hm : m.Below b) (hn : n.Below c)
    (hb : b ≤ 2 ^ 1023) (hc : c ≤ 2 ^ 1023) : ∃ sum, m.add n = .ok sum ∧ sum.Below (b + c) := by
  have hdouble : ∀ m n : Number, m.Below b → n.Below c →
      ∃ sum, (do return .double ((← m.toDouble).add (← n.toDouble)) : Except NumberFault Number) =
        .ok sum ∧ sum.Below (b + c) := by
    intro m n hm hn
    obtain ⟨x, hx⟩ := hm.toDouble hb
    obtain ⟨y, hy⟩ := hn.toDouble hc
    exact ⟨.double (x.add y), by rw [hx, hy]; rfl, trivial⟩
  cases m with
  | double x => exact hdouble _ _ hm hn
  | whole k =>
    cases n with
    | double y => exact hdouble _ _ hm hn
    | whole l =>
      refine ⟨.whole (k + l), rfl, ?_⟩
      have := Int.natAbs_add_le k l
      simp only [Number.Below] at hm hn ⊢
      omega

/-- A year is the longest unit. -/
theorem TimeUnit.seconds?_lt {u : TimeUnit} {seconds : Nat} (h : u.seconds? = some seconds) :
    seconds < 10 ^ 8 := by
  cases u <;> cases h <;> decide

theorem spanDigits_bounds (cs : List Char) :
    (spanDigits cs).1.length + (spanDigits cs).2.length ≤ cs.length ∧
      ∀ d ∈ (spanDigits cs).1, d < 10 := by
  constructor
  · have hvalues := List.length_filterMap_le digitValue? (cs.takeWhile isDecimalDigit)
    have hall : (cs.takeWhile isDecimalDigit ++ cs.dropWhile isDecimalDigit).length = cs.length :=
      congrArg List.length List.takeWhile_append_dropWhile
    rw [List.length_append] at hall
    simp only [spanDigits]
    omega
  · intro d hd
    obtain ⟨c, -, hc⟩ := List.mem_filterMap.1 hd
    exact digitValue?_lt hc

/-- The least number of characters of a chunk. -/
def Chunk.size (k : Chunk) : Nat := k.digits.length + 1

theorem Chunk.read?_bounds {cs rest : List Char} {k : Chunk} (h : Chunk.read? cs = some (k, rest)) :
    k.size + rest.length ≤ cs.length ∧ ∀ d ∈ k.digits, d < 10 := by
  obtain ⟨hlength, hdigits⟩ := spanDigits_bounds cs
  unfold Chunk.read? at h
  split at h
  · cases h
  · rename_i digits body _ hs
    rw [hs] at hlength hdigits
    obtain ⟨⟨u, r⟩, hu, he⟩ := Option.map_eq_some_iff.1 h
    cases he
    have hunit := TimeUnit.read?_length hu
    simp only [Chunk.size] at hlength ⊢
    exact ⟨by omega, hdigits⟩

theorem spanChunks_bounds (cs : List Char) :
    ((spanChunks cs).1.map Chunk.size).sum ≤ cs.length ∧
      ∀ k ∈ (spanChunks cs).1, ∀ d ∈ k.digits, d < 10 := by
  rw [spanChunks]
  split
  · exact ⟨Nat.zero_le _, nofun⟩
  · rename_i k rest h
    obtain ⟨hsize, hdigits⟩ := Chunk.read?_bounds h
    have := Chunk.read?_length h
    obtain ⟨hsizes, hall⟩ := spanChunks_bounds rest
    simp only [List.map_cons, List.sum_cons, List.forall_mem_cons]
    exact ⟨by omega, hdigits, hall⟩
termination_by cs.length

theorem ten_pow_le {n : Nat} (h : n ≤ 307) : 10 ^ n ≤ 2 ^ 1023 :=
  (Nat.pow_le_pow_right (by decide) h).trans (by decide +kernel)

/-- The seconds of a chunk have at most seven digits more than it has characters. -/
theorem Chunk.value_below {k : Chunk} (hdigits : ∀ d ∈ k.digits, d < 10)
    (hsize : k.size + 7 ≤ 307) :
    ∃ value, k.value = .ok value ∧ value.Below (10 ^ (k.size + 7)) := by
  have hamount : ofDigits 10 k.digits < 10 ^ k.digits.length := ofDigits_lt (by decide) hdigits
  have hread : wholeNumber k.digits = .ok (ofDigits 10 k.digits) :=
    wholeNumber_of_le (by unfold digitLimit; unfold Chunk.size at hsize; omega)
  unfold Chunk.value
  rw [hread]
  cases hu : k.unit.seconds? with
  | none =>
    obtain ⟨x, hx⟩ : ∃ x, doubleOfInt (ofDigits 10 k.digits) = .ok x :=
      doubleOfInt_of_lt (Nat.lt_of_lt_of_le hamount
        (ten_pow_le (by unfold Chunk.size at hsize; omega)))
    exact ⟨.double (x.mul thousandth), by simp [hx, bind, Except.bind, pure, Except.pure], trivial⟩
  | some seconds =>
    refine ⟨.whole (ofDigits 10 k.digits * seconds),
      by simp [bind, Except.bind, pure, Except.pure], ?_⟩
    calc ((ofDigits 10 k.digits : Int) * seconds).natAbs
        = ofDigits 10 k.digits * seconds := by rw [Int.natAbs_mul]; rfl
      _ < 10 ^ k.digits.length * 10 ^ 8 := Nat.mul_lt_mul'' hamount (TimeUnit.seconds?_lt hu)
      _ = 10 ^ (k.size + 7) := by rw [← Nat.pow_add, Chunk.size]

/-- A row of chunks is at most ten times as long for every character. -/
theorem sumChunks_below {ks : List Chunk} {power : Nat} {total : Number}
    (hdigits : ∀ k ∈ ks, ∀ d ∈ k.digits, d < 10) (hpower : 8 ≤ power)
    (hsize : power + (ks.map Chunk.size).sum ≤ 307) (ht : total.Below (10 ^ power)) :
    ∃ value, sumChunks total ks = .ok value ∧
      value.Below (10 ^ (power + (ks.map Chunk.size).sum)) := by
  induction ks generalizing power total with
  | nil => exact ⟨total, rfl, ht⟩
  | cons k ks ih =>
    obtain ⟨hk, hks⟩ := List.forall_mem_cons.1 hdigits
    simp only [List.map_cons, List.sum_cons] at hsize ⊢
    obtain ⟨value, hvalue, hbelow⟩ := k.value_below hk (by omega)
    obtain ⟨sum, hadd, hsum⟩ := ht.add hbelow (ten_pow_le (by omega)) (ten_pow_le (by omega))
    have hle : 10 ^ power + 10 ^ (k.size + 7) ≤ 10 ^ (power + k.size) := by
      have hpos : 1 ≤ k.size := Nat.le_add_left ..
      obtain ⟨n, hn⟩ : ∃ n, power + k.size = n + 1 := ⟨power + k.size - 1, by omega⟩
      have h₁ : 10 ^ power ≤ 10 ^ n := Nat.pow_le_pow_right (by decide) (by omega)
      have h₂ : 10 ^ (k.size + 7) ≤ 10 ^ n := Nat.pow_le_pow_right (by decide) (by omega)
      calc 10 ^ power + 10 ^ (k.size + 7)
          ≤ 10 ^ n + 10 ^ n := Nat.add_le_add h₁ h₂
        _ ≤ 10 ^ (power + k.size) := by
          rw [hn, Nat.pow_succ]
          omega
    obtain ⟨result, hresult, hlast⟩ := ih hks (by omega) (by omega) (hsum.mono hle)
    refine ⟨result, ?_, Nat.add_assoc .. ▸ hlast⟩
    rw [sumChunks, hvalue]
    simp only [bind, Except.bind, hadd, hresult]

/-! ## Literals -/

theorem hexValue?_lt {c : Char} {d : Nat} (h : hexValue? c = some d) : d < 16 := by
  have hsub : ∀ {last : Char} (first : Char), c ≤ last →
      c.toNat - first.toNat ≤ last.toNat - first.toNat :=
    fun first hc => Nat.sub_le_sub_right (UInt32.le_iff_toNat_le.1 hc) _
  unfold hexValue? at h
  split at h
  · rename_i hc
    cases h
    exact Nat.lt_of_le_of_lt (hsub '0' hc.2) (by decide)
  · split at h
    · rename_i hc
      cases h
      exact Nat.lt_of_le_of_lt (Nat.add_le_add_right (hsub 'a' hc.2) 10) (by decide)
    · split at h
      · rename_i hc
        cases h
        exact Nat.lt_of_le_of_lt (Nat.add_le_add_right (hsub 'A' hc.2) 10) (by decide)
      · cases h

theorem mapM_hexValue? {cs : List Char} {digits : List Nat} (h : cs.mapM hexValue? = some digits) :
    digits.length = cs.length ∧ ∀ d ∈ digits, d < 16 := by
  induction cs generalizing digits with
  | nil =>
    cases h
    exact ⟨rfl, nofun⟩
  | cons c cs ih =>
    rw [List.mapM_cons] at h
    obtain ⟨d, hd, h⟩ := Option.bind_eq_some_iff.1 h
    obtain ⟨ds, hds, h⟩ := Option.bind_eq_some_iff.1 h
    cases h
    obtain ⟨hlength, hall⟩ := ih hds
    exact ⟨congrArg (· + 1) hlength, List.forall_mem_cons.2 ⟨hexValue?_lt hd, hall⟩⟩

/-- Two characters stand in front of hexadecimal digits. -/
theorem hexDigits?_bounds {cs : List Char} {digits : List Nat} (h : hexDigits? cs = some digits) :
    digits.length + 2 = cs.length ∧ ∀ d ∈ digits, d < 16 := by
  unfold hexDigits? at h
  split at h
  · exact ⟨congrArg (· + 2) (mapM_hexValue? h).1, (mapM_hexValue? h).2⟩
  · exact ⟨congrArg (· + 2) (mapM_hexValue? h).1, (mapM_hexValue? h).2⟩
  · cases h

/-- Up to 257 characters have a value that is or becomes a double. -/
theorem numberValue_toDouble {cs : List Char} (h : cs.length ≤ 257) :
    ∃ value x, numberValue cs = .ok value ∧ value.toDouble = .ok x := by
  unfold numberValue
  split
  · rename_i digits hdigits
    obtain ⟨hlength, hall⟩ := hexDigits?_bounds hdigits
    have hlt : ofDigits 16 digits < 2 ^ 1023 :=
      calc ofDigits 16 digits < 16 ^ digits.length := ofDigits_lt (by decide) hall
        _ ≤ 16 ^ 255 := Nat.pow_le_pow_right (by decide) (by omega)
        _ ≤ 2 ^ 1023 := by decide +kernel
    obtain ⟨x, hx⟩ : ∃ x, doubleOfInt (ofDigits 16 digits) = .ok x := doubleOfInt_of_lt hlt
    exact ⟨.double x, x, by rw [hx]; rfl, rfl⟩
  · rename_i x _ _
    exact ⟨.double x, x, rfl, rfl⟩
  · obtain ⟨hsize, hdigits⟩ := spanChunks_bounds cs
    have hzero : (Number.whole 0).Below (10 ^ 8) := by
      rw [Number.Below]
      decide
    obtain ⟨value, hvalue, hbelow⟩ := sumChunks_below hdigits (Nat.le_refl 8) (by omega) hzero
    obtain ⟨x, hx⟩ := hbelow.toDouble (ten_pow_le (by omega))
    exact ⟨value, x, hvalue, hx⟩

theorem Token.hasDouble_of_length {t : Token} (h : t.value.length ≤ 257) : t.HasDouble := by
  intro value hvalue
  unfold Token.literal? at hvalue
  split at hvalue
  · cases hvalue
    obtain ⟨value, x, hvalue, hx⟩ := numberValue_toDouble (String.length_toList ▸ h)
    simp only [hvalue, bind, Except.bind, hx]
    rfl
  · cases hvalue

theorem Token.HasDouble.hasValue {t : Token} (h : t.HasDouble) : t.HasValue := by
  intro value hvalue
  cases value with
  | ok value => rfl
  | error fault => exact h _ hvalue

/-! ## Texts -/

/-- A literal is no longer than its text. -/
theorem literal_length_le {text : String} {ts : List Token} (h : lexemes text = .ok ts) {t : Token}
    (ht : t ∈ ts) (hk : t.kind = .number ∨ t.kind = .duration) : t.value.length ≤ text.length := by
  obtain ⟨ps, hps, rfl⟩ := exceptMap_eq_ok.1 h
  obtain ⟨rest, size, hrest, -, hvalue⟩ := literal_of_mem hps ht hk
  rw [← String.length_toList, ← String.length_toList, hvalue]
  exact (List.length_take_le' size rest).trans hrest.length_le

/-- The literals of a short text have the values that they need. -/
theorem valuedText_of_length {text : String} (h : text.length ≤ 257) : ValuedText text := by
  intro ts hts
  have hdouble : ∀ t ∈ ts, t.HasDouble := by
    intro t ht
    by_cases hk : t.kind = .number ∨ t.kind = .duration
    · exact Token.hasDouble_of_length ((literal_length_le hts ht hk).trans h)
    · intro value hvalue
      simp [Token.literal?, hk] at hvalue
  have hpairs : ts.Pairwise fun t u => (sign? t).isSome = true → u.HasDouble :=
    List.pairwise_of_forall_mem_list fun _ _ u hu _ => hdouble u hu
  exact ⟨fun t ht => (hdouble t ht).hasValue, hpairs.isChain⟩

theorem stripMacrosFrom_length_le (cs : List Char) : (stripMacrosFrom cs).length ≤ cs.length := by
  induction cs using stripMacrosFrom.induct with
  | case1 => rw [stripMacrosFrom]
  | case2 c cs h ih =>
    rw [stripMacrosFrom, if_pos h]
    simp only [macroValue, List.length_append, List.length_cons, List.length_nil]
    have hrun : runLength isWord cs ≤ cs.length := (List.takeWhile_sublist _).length_le
    have := h.2
    rw [List.length_drop] at ih
    omega
  | case3 c cs h ih =>
    rw [stripMacrosFrom, if_neg h]
    exact Nat.succ_le_succ ih

theorem stripMacros_length_le (text : String) : (stripMacros text).length ≤ text.length := by
  rw [stripMacros, String.length_ofList, ← String.length_toList]
  exact stripMacrosFrom_length_le _

end Query

end PanelExport
