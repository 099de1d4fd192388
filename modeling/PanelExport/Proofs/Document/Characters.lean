import PanelExport.Proofs.Document.Numbers

/-!
# Texts that are read

The characters between two quotes are read one by one, an escaped pair of halves as one of them.
What decides between a pair and a half that stands alone is what follows the first half.

* `IsChars.reading`: the characters of a text are read up to its closing quote.
* `exists_chars`: what is read before a closing quote is spelled there.
-/

namespace PanelExport.Document

variable {cs : List Char} {limit : Nat}

/-! ## Halves and escapes -/

theorem hexQuad?_eq_some_iff {n : Nat} {rest : List Char} :
    hexQuad? cs = some (n, rest) ↔ ∃ q, cs = q ++ rest ∧ IsQuad n q := by
  constructor
  · intro h
    unfold hexQuad? at h
    split at h
    · rename_i a b c d more
      refine ⟨[a, b, c, d], ?_⟩
      rw [IsQuad, hexQuad?]
      split at h
      · cases h
        simp only [List.cons_append, List.nil_append, true_and, *]
      · cases h
    · cases h
  · rintro ⟨q, rfl, hq⟩
    unfold IsQuad hexQuad? at hq
    split at hq
    · rw [List.cons_append, List.cons_append, List.cons_append, List.cons_append, hexQuad?]
      split at hq
      · cases hq
        simp only [List.nil_append, *]
      · cases hq
    · cases hq

theorem IsQuad.append {n : Nat} {q : List Char} (h : IsQuad n q) (rest : List Char) :
    hexQuad? (q ++ rest) = some (n, rest) :=
  hexQuad?_eq_some_iff.2 ⟨q, rfl, h⟩

/-- A second half is read just if it stands there and something follows it. -/
theorem lowUnit?_eq_some_iff {low : Nat} {rest : List Char} :
    lowUnit? cs = some (low, rest) ↔
      ∃ q, IsQuad low q ∧ isLowHalf low = true ∧ rest ≠ [] ∧ cs = unitText q ++ rest := by
  unfold lowUnit?
  split
  · rename_i cs
    rw [Option.filter_eq_some_iff, hexQuad?_eq_some_iff]
    simp only [Bool.and_eq_true, Bool.not_eq_true', List.isEmpty_eq_false_iff, unitText,
      List.cons_append, List.cons.injEq, true_and]
    constructor
    · rintro ⟨⟨q, rfl, hq⟩, hlow, hne⟩
      exact ⟨q, hq, hlow, hne, rfl⟩
    · rintro ⟨q, hq, hlow, hne, rfl⟩
      exact ⟨⟨q, rfl, hq⟩, hlow, hne⟩
  · rename_i hstart
    simp only [reduceCtorEq, false_iff]
    rintro ⟨q, -, -, -, rfl⟩
    exact hstart _ rfl

theorem lowUnit?_unit {low : Nat} {q rest : List Char} (hq : IsQuad low q)
    (hlow : isLowHalf low = true) (hne : rest ≠ []) :
    lowUnit? (unitText q ++ rest) = some (low, rest) :=
  lowUnit?_eq_some_iff.2 ⟨q, hq, hlow, hne, rfl⟩

/-- Where no second half stands none is read. -/
theorem lowUnit?_eq_none (h : ¬ StartsLow cs) : lowUnit? cs = none := by
  cases hl : lowUnit? cs with
  | none => rfl
  | some p =>
    obtain ⟨q, hq, hlow, -, rfl⟩ := lowUnit?_eq_some_iff.1 hl
    exact absurd ⟨_, q, _, hq, hlow, rfl⟩ h

/-- Two escapes by number that start a text are the same one. -/
theorem unitText_inj {m n : Nat} {p q more rest : List Char} (hp : IsQuad m p) (hq : IsQuad n q)
    (h : unitText p ++ more = unitText q ++ rest) : m = n ∧ more = rest := by
  simp only [unitText, List.cons_append, List.cons.injEq, true_and] at h
  have hread := hp.append more
  rw [h, hq.append rest] at hread
  cases hread
  exact ⟨rfl, rfl⟩

/-- What a text and its closing quote start with, the text starts with. -/
theorem IsChars.startsLow {f : Format} {text rest : List Char} (h : IsChars f cs text)
    (hs : StartsLow (text ++ '"' :: rest)) : StartsLow text := by
  obtain ⟨low, q, more, hq, hlow, heq⟩ := hs
  cases h with
  | nil => cases heq
  | plain _ _ hescape => exact absurd (List.cons.inj heq).1 hescape
  | letter he =>
    obtain ⟨-, heq⟩ := List.cons.inj heq
    rw [(List.cons.inj heq).1] at he
    cases he
  | unit hp =>
    rw [List.append_assoc] at heq
    obtain ⟨rfl, -⟩ := unitText_inj hp hq heq
    exact ⟨_, _, _, hp, hlow, rfl⟩
  | pair hp =>
    rw [List.append_assoc] at heq
    obtain ⟨rfl, -⟩ := unitText_inj hp hq heq
    exact ⟨_, _, _, hp, hlow, rfl⟩
  | half _ hp =>
    rw [List.append_assoc] at heq
    obtain ⟨rfl, -⟩ := unitText_inj hp hq heq
    exact ⟨_, _, _, hp, hlow, rfl⟩

/-! ## Escapes by number -/

section

variable {n : Nat} {q rest : List Char} (hq : IsQuad n q)

include hq

/-- Two halves that stand together are read as one character. -/
theorem reading_readUnit_pair {low : Nat} {after : List Char} (hhigh : isHighHalf n = true)
    (hlow : lowUnit? rest = some (low, after)) :
    reading (readUnit (q ++ rest)) = .ok (joinHalves n low, after) := by
  have hne : rest.isEmpty = false := by
    obtain ⟨_, -, -, -, rfl⟩ := lowUnit?_eq_some_iff.1 hlow
    rfl
  unfold readUnit
  simp only
  split
  · rename_i h
    rw [hq.append] at h
    cases h
  · rename_i h
    rw [hq.append] at h
    cases h
    rw [hne]
    simp only [Bool.false_eq_true, if_false]
    split
    · rename_i h
      rw [if_pos hhigh, hlow] at h
      cases h
    · rename_i h
      rw [if_pos hhigh, hlow] at h
      obtain ⟨rfl, rfl⟩ := Prod.mk.inj (Option.some.inj h)
      simp only [reading, Except.map]

/-- A unit that no second half follows is read alone. -/
theorem reading_readUnit_single (hne : rest ≠ [])
    (hlow : isHighHalf n = true → lowUnit? rest = none) :
    reading (readUnit (q ++ rest)) = .ok (unitChar n, rest) := by
  have hempty : rest.isEmpty = false := by simpa using hne
  unfold readUnit
  simp only
  split
  · rename_i h
    rw [hq.append] at h
    cases h
  · rename_i h
    rw [hq.append] at h
    cases h
    rw [hempty]
    simp only [Bool.false_eq_true, if_false]
    split
    · rfl
    · rename_i h
      obtain ⟨hhigh, h⟩ := Option.ite_none_right_eq_some.1 h
      rw [hlow hhigh] at h
      cases h

end

/-- An escape is a pair of halves or stands for itself. -/
theorem readUnit_eq_ok {c : Char} {rest : List Char} (h : reading (readUnit cs) = .ok (c, rest)) :
    ∃ n q more, cs = q ++ more ∧ IsQuad n q ∧
      ((∃ low, isHighHalf n = true ∧ lowUnit? more = some (low, rest) ∧ c = joinHalves n low) ∨
        ((isHighHalf n = true → lowUnit? more = none) ∧ c = unitChar n ∧ rest = more)) := by
  obtain ⟨r, hr, rfl, rfl⟩ := reading_eq_ok.1 h
  unfold readUnit at hr
  simp only at hr
  split at hr
  · cases hr
  · rename_i n more hn
    obtain ⟨q, rfl, hq⟩ := hexQuad?_eq_some_iff.1 hn
    refine ⟨n, q, more, rfl, hq, ?_⟩
    split at hr
    · cases hr
    · split at hr
      · rename_i hlow
        cases hr
        exact .inr ⟨fun hhigh => by rwa [if_pos hhigh] at hlow, rfl, rfl⟩
      · rename_i hlow
        obtain rfl := Except.ok.inj hr
        obtain ⟨hhigh, hlow⟩ := Option.ite_none_right_eq_some.1 hlow
        refine .inl ⟨_, hhigh, hlow, ?_⟩
        simp only

theorem readUnit_ne_tooDeep : readUnit cs ≠ .error .tooDeep := by
  intro h
  unfold readUnit at h
  simp only at h
  split at h
  · cases h
  · split at h
    · cases h
    · split at h <;> cases h

/-! ## Characters between quotes -/

section

variable {start : Nat} {rest : List Char}

/-- A plain character is read as it is. -/
theorem reading_readTextUnit_plain {c : Char} (hcontrol : 0x20 ≤ c.toNat) (hquote : c ≠ '"')
    (hescape : c ≠ '\\') :
    reading (readTextUnit start (c :: rest)) = .ok (some c, rest) := by
  rw [readTextUnit]
  · rw [if_neg (Nat.not_lt.2 hcontrol)]
    rfl
  · exact hquote
  · exact hescape

/-- A letter behind a backslash is read as what it stands for. -/
theorem reading_readTextUnit_letter {e c : Char} (he : escapeChar? e = some c) :
    reading (readTextUnit start ('\\' :: e :: rest)) = .ok (some c, rest) := by
  rw [readTextUnit]
  · simp only [he]
    rfl
  · rintro rfl
    cases he

theorem reading_readTextUnit_unit {c : Char} (hu : reading (readUnit cs) = .ok (c, rest)) :
    reading (readTextUnit start ('\\' :: 'u' :: cs)) = .ok (some c, rest) := by
  obtain ⟨r, hr, rfl, rfl⟩ := reading_eq_ok.1 hu
  simp only [readTextUnit, hr]
  rfl

/-- A character of a text is its closing quote, stands for itself, or is escaped. -/
theorem readTextUnit_eq_ok {u : Option Char}
    (h : reading (readTextUnit start cs) = .ok (u, rest)) :
    (u = none ∧ cs = '"' :: rest) ∨
    (∃ c, u = some c ∧ 0x20 ≤ c.toNat ∧ c ≠ '"' ∧ c ≠ '\\' ∧ cs = c :: rest) ∨
    (∃ e c, u = some c ∧ escapeChar? e = some c ∧ cs = '\\' :: e :: rest) ∨
    (∃ c unit, u = some c ∧ cs = '\\' :: 'u' :: unit ∧ reading (readUnit unit) = .ok (c, rest)) := by
  obtain ⟨r, hr, rfl, rfl⟩ := reading_eq_ok.1 h
  unfold readTextUnit at hr
  split at hr
  · cases hr
  · cases hr
    exact .inl ⟨rfl, rfl⟩
  · split at hr
    · cases hr
    · rename_i unit
      obtain ⟨v, hv, hr⟩ := bind_eq_ok.1 hr
      cases hr
      exact .inr (.inr (.inr ⟨v.value, unit, rfl, rfl, reading_eq_ok.2 ⟨v, hv, rfl, rfl⟩⟩))
    · rename_i e rest _
      split at hr
      · rename_i he
        cases hr
        exact .inr (.inr (.inl ⟨e, _, rfl, he, rfl⟩))
      · cases hr
  · rename_i c rest hquote hescape
    split at hr
    · cases hr
    · rename_i hcontrol
      cases hr
      refine .inr (.inl ⟨c, rfl, Nat.not_lt.1 hcontrol, ?_, ?_, rfl⟩)
      · exact fun h => hquote h
      · exact fun h => hescape h

theorem readTextUnit_ne_tooDeep : readTextUnit start cs ≠ .error .tooDeep := by
  intro h
  unfold readTextUnit at h
  split at h
  · cases h
  · cases h
  · split at h
    · cases h
    · rename_i unit
      cases hu : readUnit unit with
      | error fault =>
        rw [hu] at h
        cases h
        exact readUnit_ne_tooDeep hu
      | ok r =>
        rw [hu] at h
        cases h
    · split at h <;> cases h
  · split at h <;> cases h

theorem reading_readTextChars (start : Nat) (cs : List Char) :
    reading (readTextChars start cs) = do
      let (u, rest) ← reading (readTextUnit start cs)
      match u with
      | none => return ([], rest)
      | some c =>
        let (cs, rest) ← reading (readTextChars start rest)
        return (c :: cs, rest) := by
  rw [readTextChars]
  cases readTextUnit start cs with
  | error fault => rfl
  | ok unit =>
    obtain ⟨_ | c, rest, h⟩ := unit
    · rfl
    · simp only [reading, Except.map, bind, Except.bind]
      cases readTextChars start rest <;> rfl

theorem readTextChars_ne_tooDeep : readTextChars start cs ≠ .error .tooDeep := by
  intro h
  induction hn : cs.length using Nat.strongRecOn generalizing cs with
  | ind n ih =>
    rw [← reading_eq_error, reading_readTextChars] at h
    cases hu : reading (readTextUnit start cs) with
    | error fault =>
      rw [hu] at h
      cases h
      exact readTextUnit_ne_tooDeep (reading_eq_error.1 hu)
    | ok unit =>
      obtain ⟨_ | c, more⟩ := unit
      · rw [hu] at h
        cases h
      · rw [hu] at h
        have hshorter := length_lt_of_reading hu
        cases hm : reading (readTextChars start more) with
        | error fault =>
          simp only [bind, Except.bind, hm] at h
          cases h
          exact ih _ (hn ▸ hshorter) (reading_eq_error.1 hm) rfl
        | ok p =>
          simp only [bind, Except.bind, hm] at h
          cases h

theorem reading_readTextChars_cons {c : Char} {more v : List Char}
    (hu : reading (readTextUnit start cs) = .ok (some c, more))
    (h : reading (readTextChars start more) = .ok (v, rest)) :
    reading (readTextChars start cs) = .ok (c :: v, rest) := by
  rw [reading_readTextChars, hu]
  simp only [bind, Except.bind, h]
  rfl

/-- The replacement character stands in for a half that stands alone. -/
theorem unitChar_of_half {n : Nat} (h : isHalf n = true) : unitChar n = '\uFFFD' := if_pos h

/-- Any other unit is the character with its number. -/
theorem unitChar_of_not_half {n : Nat} (h : isHalf n = false) : unitChar n = Char.ofNat n :=
  if_neg (Bool.eq_false_iff.1 h)

theorem append_quote_ne_nil (text rest : List Char) : text ++ '"' :: rest ≠ [] :=
  List.append_ne_nil_of_right_ne_nil text nofun

/-- The characters of a text are read up to its closing quote. -/
theorem IsChars.reading {v text : List Char} (h : IsChars (.torn limit) v text) :
    reading (readTextChars start (text ++ '"' :: rest)) = .ok (v, rest) := by
  induction h with
  | nil =>
    rw [reading_readTextChars]
    rfl
  | plain hcontrol hquote hescape _ ih =>
    exact reading_readTextChars_cons (reading_readTextUnit_plain hcontrol hquote hescape) ih
  | letter he _ ih => exact reading_readTextChars_cons (reading_readTextUnit_letter he) ih
  | @unit _ _ _ text hq hn _ ih =>
    obtain ⟨hhigh, -⟩ := Bool.or_eq_false_iff.1 hn
    have hu := reading_readUnit_single hq (append_quote_ne_nil text rest)
      fun h => absurd h (Bool.eq_false_iff.1 hhigh)
    rw [unitChar_of_not_half hn] at hu
    rw [List.append_assoc]
    exact reading_readTextChars_cons (reading_readTextUnit_unit hu) ih
  | @pair _ _ _ _ _ text hq hq' hhigh hlow _ ih =>
    have hu := reading_readUnit_pair hq hhigh
      (lowUnit?_unit hq' hlow (append_quote_ne_nil text rest))
    rw [List.append_assoc, List.append_assoc]
    exact reading_readTextChars_cons (reading_readTextUnit_unit hu) ih
  | half _ hq hn halone h ih =>
    have hu := reading_readUnit_single hq (append_quote_ne_nil _ rest)
      fun hhigh => lowUnit?_eq_none fun hlow => halone hhigh (h.startsLow hlow)
    rw [unitChar_of_half hn] at hu
    rw [List.append_assoc]
    exact reading_readTextChars_cons (reading_readTextUnit_unit hu) ih

/-- What is read before a closing quote is spelled there. -/
theorem exists_chars {v : List Char} (limit : Nat)
    (h : reading (readTextChars start cs) = .ok (v, rest)) :
    ∃ text, cs = text ++ '"' :: rest ∧ IsChars (.torn limit) v text := by
  induction hn : cs.length using Nat.strongRecOn generalizing cs v with
  | ind n ih =>
    rw [reading_readTextChars] at h
    obtain ⟨⟨u, more⟩, hu, h⟩ := bind_eq_ok.1 h
    have hshorter := length_lt_of_reading hu
    cases u with
    | none =>
      cases h
      rcases readTextUnit_eq_ok hu with ⟨-, rfl⟩ | ⟨_, h, -⟩ | ⟨_, _, h, -⟩ | ⟨_, _, h, -⟩
      · exact ⟨[], rfl, .nil⟩
      · cases h
      · cases h
      · cases h
    | some c =>
      obtain ⟨⟨v', rest'⟩, hv, h⟩ := bind_eq_ok.1 h
      cases h
      obtain ⟨text, rfl, htext⟩ := ih _ (hn ▸ hshorter) hv rfl
      rcases readTextUnit_eq_ok hu with ⟨hc, -⟩ | ⟨_, hc, hcontrol, hquote, hescape, rfl⟩ |
        ⟨e, _, hc, he, rfl⟩ | ⟨_, unit, hc, rfl, hunit⟩
      · cases hc
      · cases hc
        exact ⟨_ :: text, rfl, .plain hcontrol hquote hescape htext⟩
      · cases hc
        exact ⟨'\\' :: e :: text, rfl, .letter he htext⟩
      · obtain ⟨n, q, more, rfl, hq, ⟨low, hhigh, hlow, hjoin⟩ | ⟨hlow, hsingle, rfl⟩⟩ :=
          readUnit_eq_ok hunit
        · obtain ⟨q', hq', hlow', -, rfl⟩ := lowUnit?_eq_some_iff.1 hlow
          cases hc
          rw [hjoin]
          refine ⟨unitText q ++ (unitText q' ++ text), ?_, .pair hq hq' hhigh hlow' htext⟩
          simp only [unitText, List.cons_append, List.append_assoc]
        · cases hc
          refine ⟨unitText q ++ text, ?_, ?_⟩
          · simp only [unitText, List.cons_append, List.append_assoc]
          rw [hsingle]
          by_cases hhalf : isHalf n = true
          · rw [unitChar_of_half hhalf]
            refine .half rfl hq hhalf (fun hhigh hs => ?_) htext
            obtain ⟨low, q', more, hq', hlow', rfl⟩ := hs
            have := hlow hhigh
            rw [List.append_assoc, lowUnit?_unit hq' hlow' (append_quote_ne_nil _ _)] at this
            cases this
          · rw [unitChar_of_not_half (Bool.eq_false_iff.2 hhalf)]
            exact .unit hq (Bool.eq_false_iff.2 hhalf) htext

end

end PanelExport.Document
