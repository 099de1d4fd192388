import PanelExport.Proofs.Document.Grammar
import PanelExport.Proofs.Outcome

/-!
# Numbers that are read

A reader's result carries a bound on the text left, which stands in the way of rewriting the text.
`reading` drops it. A reader is right if it takes off the front of a text what the format spells
there, and takes all of it off unless something follows that would go on.

* `readDecimal?_parts`: a decimal is read as its digits and its power of ten say.
* `reads_number`: numbers are read as they are spelled.
-/

namespace PanelExport.Document

variable {α β : Type} {cs : List Char} {limit : Nat}

/-! ## Readings -/

/-- What was read off the front of a text, and what is left. -/
def reading (x : Except ReadFault (Reading α cs)) : Except ReadFault (α × List Char) :=
  x.map fun r => (r.value, r.rest)

/-- A reading, without the proof that it is shorter, comes from a reading with it. -/
theorem reading_eq_ok {x : Except ReadFault (Reading α cs)} {a : α} {rest : List Char} :
    reading x = .ok (a, rest) ↔ ∃ r, x = .ok r ∧ r.value = a ∧ r.rest = rest := by
  cases x <;> simp [reading, Except.map]

theorem reading_ok (r : Reading α cs) : reading (.ok r) = .ok (r.value, r.rest) := rfl

/-- A fault is not touched by what is left out of a reading. -/
theorem reading_eq_error {x : Except ReadFault (Reading α cs)} {fault : ReadFault} :
    reading x = .error fault ↔ x = .error fault := by
  cases x <;> simp [reading, Except.map]

/-- Whatever is read leaves less of the text. -/
theorem length_lt_of_reading {x : Except ReadFault (Reading α cs)} {a : α} {rest : List Char}
    (h : reading x = .ok (a, rest)) : rest.length < cs.length := by
  obtain ⟨r, -, -, rfl⟩ := reading_eq_ok.1 h
  exact r.shorter

/-- A reader takes off the front of a text what `spelled` says, and takes all of it off where what
follows ends it. -/
structure Reads (r : Reader α) (ends : List Char → Prop) (spelled : α → List Char → Prop) :
    Prop where
  sound {cs : List Char} {a : α} {rest : List Char} (h : reading (r cs) = .ok (a, rest)) :
    ∃ text, cs = text ++ rest ∧ spelled a text
  complete {a : α} {text rest : List Char} (h : spelled a text) (hr : ends rest) :
    reading (r (text ++ rest)) = .ok (a, rest)

/-! ## Numbers -/

/-- Nothing follows that would go on with a number. -/
def EndsNumber (rest : List Char) : Prop :=
  ∀ c ∈ rest.head?, c.isDigit = false ∧ c ≠ '.' ∧ ¬ IsPowerMark c

theorem runLength_append {inside : Char → Bool} {ds rest : List Char}
    (hds : ∀ c ∈ ds, inside c = true) (hr : ∀ c ∈ rest.head?, inside c = false) :
    runLength inside (ds ++ rest) = ds.length := by
  rw [runLength, List.takeWhile_append_of_pos hds]
  cases rest with
  | nil => simp
  | cons c rest => simp [hr c rfl]

theorem take_runLength (inside : Char → Bool) (cs : List Char) :
    cs.take (runLength inside cs) = cs.takeWhile inside :=
  (List.prefix_iff_eq_take.1 (List.takeWhile_prefix inside)).symm

/-- A run of digits that is not empty is a row of digits. -/
theorem isDigits_of_runLength (h : runLength Char.isDigit cs ≠ 0) :
    IsDigits (cs.take (runLength Char.isDigit cs)) := by
  rw [take_runLength]
  refine ⟨fun hnil => h (by rw [runLength, hnil, List.length_nil]), fun c hc => ?_⟩
  exact List.all_eq_true.1 (List.all_takeWhile ..) c hc

/-- Digits are counted up to what goes on with no digit. -/
theorem IsDigits.runLength_eq {ds rest : List Char} (h : IsDigits ds)
    (hr : ∀ c ∈ rest.head?, c.isDigit = false) :
    runLength Char.isDigit (ds ++ rest) = ds.length :=
  runLength_append h.2 hr

theorem IsDigits.length_ne_zero {ds : List Char} (h : IsDigits ds) : ds.length ≠ 0 :=
  fun hl => h.1 (List.eq_nil_of_length_eq_zero hl)

/-- Some digits start with a digit. -/
theorem IsDigits.exists_cons {ds : List Char} (h : IsDigits ds) :
    ∃ d ds', ds = d :: ds' ∧ d.isDigit = true := by
  obtain ⟨hne, hds⟩ := h
  cases ds with
  | nil => exact absurd rfl hne
  | cons d ds => exact ⟨d, ds, rfl, hds d (List.mem_cons_self ..)⟩

theorem wholeSize_of_ne (h : cs.head? ≠ some '0') : wholeSize cs = runLength Char.isDigit cs := by
  unfold wholeSize
  split
  · exact absurd rfl h
  · rfl

/-- What is measured as a whole part is one. -/
theorem isWhole_of_wholeSize (h : wholeSize cs ≠ 0) : IsWhole (cs.take (wholeSize cs)) := by
  by_cases hzero : cs.head? = some '0'
  · obtain ⟨tail, rfl⟩ : ∃ tail, cs = '0' :: tail := List.head?_eq_some_iff.1 hzero
    exact ⟨⟨nofun, fun c hc => by obtain rfl := List.mem_singleton.1 hc; rfl⟩, fun _ => rfl⟩
  · rw [wholeSize_of_ne hzero] at h ⊢
    refine ⟨isDigits_of_runLength h, fun hhead => absurd ?_ hzero⟩
    rwa [List.head?_take, if_neg h] at hhead

/-- A whole part is measured up to what goes on with no digit. -/
theorem IsWhole.wholeSize_eq {ds rest : List Char} (h : IsWhole ds)
    (hr : ∀ c ∈ rest.head?, c.isDigit = false) : wholeSize (ds ++ rest) = ds.length := by
  obtain ⟨hds, hzero⟩ := h
  unfold wholeSize
  split
  · rename_i tail heq
    obtain ⟨d, ds, rfl, -⟩ := hds.exists_cons
    obtain ⟨rfl, -⟩ := List.cons.inj heq
    rw [hzero rfl]
    rfl
  · exact hds.runLength_eq hr

/-- What is measured as a fraction is one, perhaps an empty one. -/
theorem isFraction_take (cs : List Char) :
    ∃ fraction, IsFraction fraction (cs.take (fractionSize cs)) := by
  unfold fractionSize
  split
  · split
    · exact ⟨[], .none⟩
    · rename_i h
      exact ⟨_, .digits (isDigits_of_runLength h)⟩
  · exact ⟨[], .none⟩

/-- A fraction is measured up to what goes on with neither a digit nor a point. -/
theorem IsFraction.fractionSize_eq {fraction text rest : List Char} (h : IsFraction fraction text)
    (hr : ∀ c ∈ rest.head?, c.isDigit = false ∧ c ≠ '.') :
    fractionSize (text ++ rest) = text.length := by
  cases h with
  | none =>
    rw [List.nil_append]
    unfold fractionSize
    split
    · exact absurd rfl (hr _ rfl).2
    · rfl
  | digits h =>
    rw [List.cons_append, fractionSize, h.runLength_eq fun c hc => (hr c hc).1,
      if_neg h.length_ne_zero, List.length_cons]

theorem powerSize_of_not {digit : Char → Bool} {c : Char} (hm : ¬ IsPowerMark c) (cs : List Char) :
    powerSize digit (c :: cs) = 0 :=
  if_neg hm

/-- A power of ten with a sign takes in the digits behind the sign. -/
theorem powerSize_sign {digit : Char → Bool} {mark sign : Char} (hm : IsPowerMark mark)
    (hs : sign = '+' ∨ sign = '-') (cs : List Char) :
    powerSize digit (mark :: sign :: cs) =
      if runLength digit cs = 0 then 0 else 1 + 1 + runLength digit cs := by
  rcases hs with rfl | rfl <;> exact if_pos hm

/-- A power of ten without a sign takes in the digits behind its mark. -/
theorem powerSize_plain {digit : Char → Bool} {mark : Char} (hm : IsPowerMark mark)
    (hs : ¬ ∃ c ∈ cs.head?, c = '+' ∨ c = '-') :
    powerSize digit (mark :: cs) = if runLength digit cs = 0 then 0 else 1 + runLength digit cs := by
  cases cs with
  | nil => exact if_pos hm
  | cons c cs =>
    refine (if_pos hm).trans ?_
    split
    · rename_i h
      exact absurd ⟨_, rfl, .inl (List.cons.inj h).1⟩ hs
    · rename_i h
      exact absurd ⟨_, rfl, .inr (List.cons.inj h).1⟩ hs
    · rfl

/-- What is measured as a power of ten is one, perhaps an empty one. -/
theorem isPower_take (cs : List Char) :
    ∃ power, IsPower power (cs.take (powerSize Char.isDigit cs)) := by
  cases cs with
  | nil => exact ⟨0, .none⟩
  | cons mark cs =>
    by_cases hm : IsPowerMark mark
    · by_cases hs : ∃ c ∈ cs.head?, c = '+' ∨ c = '-'
      · obtain ⟨sign, hhead, hsign⟩ := hs
        obtain ⟨tail, rfl⟩ := List.head?_eq_some_iff.1 hhead
        rw [powerSize_sign hm hsign, Nat.add_comm]
        split
        · exact ⟨0, .none⟩
        · rename_i h
          rcases hsign with rfl | rfl
          · exact ⟨_, .plus hm (isDigits_of_runLength h)⟩
          · exact ⟨_, .minus hm (isDigits_of_runLength h)⟩
      · rw [powerSize_plain hm hs, Nat.add_comm]
        split
        · exact ⟨0, .none⟩
        · rename_i h
          exact ⟨_, .plain hm (isDigits_of_runLength h)⟩
    · rw [powerSize_of_not hm]
      exact ⟨0, .none⟩

/-- A power of ten is measured up to where a number ends. -/
theorem IsPower.powerSize_eq {power : Int} {text rest : List Char} (h : IsPower power text)
    (hr : EndsNumber rest) : powerSize Char.isDigit (text ++ rest) = text.length := by
  have hdigit : ∀ c ∈ rest.head?, c.isDigit = false := fun c hc => (hr c hc).1
  cases h with
  | none =>
    rw [List.nil_append]
    cases rest with
    | nil => rfl
    | cons c rest => exact powerSize_of_not (hr c rfl).2.2 rest
  | plain hm h =>
    rw [List.cons_append, powerSize_plain hm, h.runLength_eq hdigit, if_neg h.length_ne_zero,
      List.length_cons, Nat.add_comm]
    obtain ⟨d, ds, rfl, hd⟩ := h.exists_cons
    rintro ⟨c, ⟨⟩, rfl | rfl⟩ <;> cases hd
  | plus hm h =>
    rw [List.cons_append, List.cons_append, powerSize_sign hm (.inl rfl), h.runLength_eq hdigit,
      if_neg h.length_ne_zero, List.length_cons, List.length_cons, Nat.add_comm]
  | minus hm h =>
    rw [List.cons_append, List.cons_append, powerSize_sign hm (.inr rfl), h.runLength_eq hdigit,
      if_neg h.length_ne_zero, List.length_cons, List.length_cons, Nat.add_comm]

/-! ### Values of numbers -/

theorem neg_ofParts (m : Nat) (e : Int) :
    (Double.ofParts false m e).neg = Double.ofParts true m e := by
  unfold Double.ofParts
  split <;> rfl

/-- The double nearest to a quotient changes only its sign with the sign of the quotient. -/
theorem neg_ofQuotient (a b : Nat) :
    (Double.ofQuotient false a b).neg = Double.ofQuotient true a b := by
  unfold Double.ofQuotient
  split
  · rfl
  · simp only
    split
    · exact neg_ofParts ..
    · exact neg_ofParts ..

/-- A decimal under a sign is the double of the other sign. -/
theorem neg_ofDecimal (n : Nat) (e : Int) :
    (Double.ofDecimal false n e).neg = Double.ofDecimal true n e := by
  unfold Double.ofDecimal
  split
  · rfl
  · split
    · rfl
    · exact neg_ofQuotient ..

theorem IsPowerMark.isDecimalDigit_eq {mark : Char} (h : IsPowerMark mark) :
    isDecimalDigit mark = false := by
  rcases h with rfl | rfl <;> decide

theorem spanDigits_digits {ds : List Char} (h : IsDigits ds) :
    spanDigits ds = (digitValues ds, []) := by
  simpa using spanDigits_append h.2 endsDigits_nil

theorem readPower?_mark {mark : Char} {ds : List Char} {negative : Bool} (hm : IsPowerMark mark)
    (hs : spanSign cs = (negative, ds)) (h : IsDigits ds) :
    readPower? (mark :: cs) = some (if negative then -(Nat.ofDigitChars 10 ds 0 : Int)
      else (Nat.ofDigitChars 10 ds 0 : Int)) := by
  have hmark : mark = 'e' ∨ mark = 'E' := hm
  rw [readPower?, if_pos hmark, hs, ← ofDigits_digitValues]
  simp only [spanDigits_digits h]
  obtain ⟨d, ds, rfl, -⟩ := h.exists_cons
  rfl

/-- A power of ten is read with its value. -/
theorem readPower?_of_isPower {power : Int} {text : List Char} (h : IsPower power text) :
    readPower? text = some power := by
  cases h with
  | none => rfl
  | plain hm h =>
    have hs := spanSign_digits h.2 h.1 []
    rw [List.append_nil] at hs
    exact readPower?_mark hm hs h
  | plus hm h => exact readPower?_mark hm rfl h
  | minus hm h => exact readPower?_mark hm rfl h

theorem IsPower.endsDigits {power : Int} {text : List Char} (h : IsPower power text) :
    EndsDigits text := by
  cases h with
  | none => exact endsDigits_nil
  | plain hm => exact endsDigits_cons hm.isDecimalDigit_eq
  | plus hm => exact endsDigits_cons hm.isDecimalDigit_eq
  | minus hm => exact endsDigits_cons hm.isDecimalDigit_eq

section

variable {ds fraction fractionText powerText : List Char} {power : Int} (h : IsWhole ds)

include h

/-- A decimal is read as its digits and its power of ten say. -/
theorem readDecimal?_parts (hf : IsFraction fraction fractionText) (hp : IsPower power powerText) :
    readDecimal? (ds ++ (fractionText ++ powerText)) =
      some (Double.ofDecimal false (Nat.ofDigitChars 10 (ds ++ fraction) 0)
        (power - fraction.length)) := by
  have hvalues : (digitValues ds).isEmpty = false := by
    obtain ⟨d, ds, rfl, -⟩ := h.1.exists_cons
    rfl
  have hdigits : ofDigits 10 (digitValues ds ++ digitValues fraction) =
      Nat.ofDigitChars 10 (ds ++ fraction) 0 := by
    rw [← ofDigits_digitValues, digitValues, digitValues, digitValues, List.map_append]
  cases hf with
  | none =>
    have hpoint : powerText.head? ≠ some '.' := by
      rintro hhead
      obtain ⟨tail, rfl⟩ := List.head?_eq_some_iff.1 hhead
      cases hp with
      | plain hm => cases hm <;> contradiction
      | plus hm => cases hm <;> contradiction
      | minus hm => cases hm <;> contradiction
    simp only [readDecimal?, List.nil_append, spanSign_digits h.1.2 h.1.1,
      spanDigits_append h.1.2 hp.endsDigits, hvalues, Bool.false_and, Bool.false_eq_true, if_false]
    split
    · exact absurd rfl hpoint
    · simp only [readPower?_of_isPower hp, Option.map_some, ← hdigits]
      rfl
  | digits hf =>
    have hends : EndsDigits ('.' :: (fraction ++ powerText)) := endsDigits_cons (by decide)
    simp only [readDecimal?, List.cons_append, spanSign_digits h.1.2 h.1.1,
      spanDigits_append h.1.2 hends, spanDigits_append hf.2 hp.endsDigits, hvalues, Bool.false_and,
      Bool.false_eq_true, if_false, readPower?_of_isPower hp, Option.map_some, hdigits]
    rw [digitValues, List.length_map]

/-- A number with nothing but a whole part is whole, if it is not too long. -/
theorem numberOf_whole (limit : Nat) (negative : Bool) :
    numberOf limit negative ds [] =
      if ds.length ≤ limit then .ok (.int (if negative then -(Nat.ofDigitChars 10 ds 0 : Int)
        else (Nat.ofDigitChars 10 ds 0 : Int)))
      else .error (.number (.tooLong ds.length)) := by
  have hlength : (digitValues ds).length = ds.length := List.length_map ..
  simp only [numberOf, List.isEmpty_nil, if_true, wholeNumberWithin, filterMap_digitValue? h.1.2,
    hlength, ofDigits_digitValues]
  by_cases hl : ds.length ≤ limit
  · simp only [if_pos hl]
  · simp only [if_neg hl]

/-- A number with a fraction or a power of ten is the double nearest to it. -/
theorem numberOf_decimal (limit : Nat) (negative : Bool) (hf : IsFraction fraction fractionText)
    (hp : IsPower power powerText) (hmore : fractionText ++ powerText ≠ []) :
    numberOf limit negative ds (fractionText ++ powerText) =
      .ok (.float (Double.ofDecimal negative (Nat.ofDigitChars 10 (ds ++ fraction) 0)
        (power - fraction.length))) := by
  have hempty : (fractionText ++ powerText).isEmpty = false := by simpa using hmore
  simp only [numberOf, hempty, Bool.false_eq_true, if_false, readDecimal?_parts h hf hp]
  cases negative
  · rfl
  · rw [if_pos rfl, neg_ofDecimal]

end

/-! ### Numbers at the front of a text -/

/-- The length of a number without its sign at the start of a text. -/
def unsignedSize (body : List Char) : Nat :=
  wholeSize body + fractionSize (body.drop (wholeSize body)) +
    powerSize Char.isDigit (body.drop (wholeSize body + fractionSize (body.drop (wholeSize body))))

/-- Every text has a sign in front or none. -/
theorem exists_sign (cs : List Char) :
    ∃ negative body, cs = signText negative ++ body ∧
      (negative = false → body.head? ≠ some '-') := by
  by_cases hminus : cs.head? = some '-'
  · obtain ⟨body, rfl⟩ := List.head?_eq_some_iff.1 hminus
    exact ⟨true, body, rfl, nofun⟩
  · exact ⟨false, cs, rfl, fun _ => hminus⟩

/-- A number is read by what its parts measure. -/
theorem reading_readNumber {negative : Bool} {body : List Char}
    (hs : negative = false → body.head? ≠ some '-') :
    reading (readNumber limit (signText negative ++ body)) =
      if wholeSize body = 0 then .error (.malformed .value (signText negative ++ body).length)
      else (numberOf limit negative (body.take (wholeSize body))
        ((body.take (unsignedSize body)).drop (wholeSize body))).map
          fun d => (d, body.drop (unsignedSize body)) := by
  have hsign : (if (signText negative ++ body).head? = some '-' then 1 else 0) =
      (signText negative).length := by
    cases negative with
    | true => rfl
    | false => exact if_neg (hs rfl)
  have hnegative : decide ((signText negative).length = 1) = negative := by
    cases negative <;> rfl
  unfold readNumber
  simp only [hsign, List.drop_left, hnegative]
  by_cases hw : wholeSize body = 0
  · rw [dif_neg fun h => h.1 hw, if_pos hw]
    rfl
  · have hshorter : (body.drop (unsignedSize body)).length < (signText negative ++ body).length := by
      have hne : body ≠ [] := by
        rintro rfl
        exact hw rfl
      have := List.length_pos_iff.2 hne
      rw [List.length_drop, List.length_append, unsignedSize]
      omega
    rw [dif_pos ⟨hw, hshorter⟩, if_neg hw]
    unfold unsignedSize
    cases numberOf limit negative (body.take (wholeSize body)) _ <;> rfl

/-- Neither a digit nor a point stands where a power of ten may stand. -/
theorem IsPower.head {power : Int} {text rest : List Char} (h : IsPower power text)
    (hr : EndsNumber rest) : ∀ c ∈ (text ++ rest).head?, c.isDigit = false ∧ c ≠ '.' := by
  cases h with
  | none => exact fun c hc => ⟨(hr c hc).1, (hr c hc).2.1⟩
  | plain hm => rintro c ⟨⟩; rcases hm with rfl | rfl <;> decide
  | plus hm => rintro c ⟨⟩; rcases hm with rfl | rfl <;> decide
  | minus hm => rintro c ⟨⟩; rcases hm with rfl | rfl <;> decide

theorem IsFraction.head {fraction text rest : List Char} (h : IsFraction fraction text)
    (hr : ∀ c ∈ rest.head?, c.isDigit = false) : ∀ c ∈ (text ++ rest).head?, c.isDigit = false := by
  cases h with
  | none => exact hr
  | digits => rintro c ⟨⟩; rfl

/-- A whole part is no sign. -/
theorem IsWhole.head_ne {ds : List Char} (h : IsWhole ds) (rest : List Char) :
    (ds ++ rest).head? ≠ some '-' := by
  obtain ⟨d, ds, rfl, hd⟩ := h.1.exists_cons
  rintro ⟨⟩
  cases hd

/-- A number is read from its parts. -/
theorem reading_readNumber_parts (limit : Nat) (negative : Bool)
    {ds fraction fractionText powerText rest : List Char} {power : Int} (h : IsWhole ds)
    (hf : IsFraction fraction fractionText)
    (hp : IsPower power powerText) (hr : EndsNumber rest) :
    reading (readNumber limit (signText negative ++ (ds ++ (fractionText ++ powerText)) ++ rest)) =
      (numberOf limit negative ds (fractionText ++ powerText)).map fun d => (d, rest) := by
  have hwhole : wholeSize (ds ++ (fractionText ++ (powerText ++ rest))) = ds.length :=
    h.wholeSize_eq (hf.head fun c hc => (hp.head hr c hc).1)
  have hfraction : fractionSize (fractionText ++ (powerText ++ rest)) = fractionText.length :=
    hf.fractionSize_eq (hp.head hr)
  have hsize : unsignedSize (ds ++ (fractionText ++ (powerText ++ rest))) =
      (ds ++ (fractionText ++ powerText)).length := by
    rw [unsignedSize, hwhole, List.drop_left, hfraction, ← List.drop_drop, List.drop_left,
      List.drop_left, hp.powerSize_eq hr, List.length_append, List.length_append, Nat.add_assoc]
  have hparts : ds ++ (fractionText ++ (powerText ++ rest)) =
      ds ++ (fractionText ++ powerText) ++ rest := by
    simp only [List.append_assoc]
  rw [List.append_assoc, ← hparts, reading_readNumber fun _ => h.head_ne _, hsize, hwhole,
    if_neg h.1.length_ne_zero, List.take_left, hparts, List.take_left, List.drop_left,
    List.drop_left]

/-- A number takes its text apart into a whole part, a fraction and a power. -/
theorem exists_parts {body : List Char} (h : wholeSize body ≠ 0) :
    ∃ ds fraction fractionText power powerText, IsWhole ds ∧ IsFraction fraction fractionText ∧
      IsPower power powerText ∧ body.take (wholeSize body) = ds ∧
      (body.take (unsignedSize body)).drop (wholeSize body) = fractionText ++ powerText := by
  obtain ⟨fraction, hf⟩ := isFraction_take (body.drop (wholeSize body))
  obtain ⟨power, hp⟩ :=
    isPower_take (body.drop (wholeSize body + fractionSize (body.drop (wholeSize body))))
  refine ⟨_, _, _, _, _, isWhole_of_wholeSize h, hf, hp, rfl, ?_⟩
  rw [unsignedSize, List.drop_take, Nat.add_assoc, Nat.add_sub_cancel_left, List.take_add,
    List.drop_drop]

/-- What is made of the parts of a number is the number that they spell. -/
theorem isNumber_of_numberOf {negative : Bool} {ds fraction fractionText powerText : List Char}
    {power : Int} {d : Document} (h : IsWhole ds) (hf : IsFraction fraction fractionText)
    (hp : IsPower power powerText)
    (hd : numberOf limit negative ds (fractionText ++ powerText) = .ok d) :
    IsNumber (.torn limit) d (signText negative ++ (ds ++ (fractionText ++ powerText))) := by
  by_cases hmore : fractionText ++ powerText = []
  · rw [hmore, numberOf_whole h] at hd
    split at hd
    · rename_i hl
      cases hd
      rw [hmore, List.append_nil]
      exact .whole negative h fun _ hlimit => by cases hlimit; exact hl
    · cases hd
  · rw [numberOf_decimal h limit negative hf hp hmore] at hd
    cases hd
    exact .decimal negative h hf hp hmore

/-- Numbers are read as they are spelled. -/
theorem reads_number (limit : Nat) :
    Reads (readNumber limit) EndsNumber (IsNumber (.torn limit)) where
  sound {cs d rest} hread := by
    obtain ⟨negative, body, rfl, hs⟩ := exists_sign cs
    rw [reading_readNumber hs] at hread
    by_cases hw : wholeSize body = 0
    · rw [if_pos hw] at hread
      cases hread
    rw [if_neg hw] at hread
    obtain ⟨d', hd, heq⟩ := exceptMap_eq_ok.1 hread
    obtain ⟨rfl, rfl⟩ := Prod.mk.inj heq
    obtain ⟨ds, fraction, fractionText, power, powerText, h, hf, hp, hds, hmore⟩ := exists_parts hw
    have hsize : wholeSize body ≤ unsignedSize body := by
      rw [unsignedSize, Nat.add_assoc]
      exact Nat.le_add_right ..
    have htext : body.take (unsignedSize body) = ds ++ (fractionText ++ powerText) := by
      rw [← hds, ← hmore, ← Nat.min_eq_left hsize, ← List.take_take, Nat.min_eq_left hsize,
        List.take_append_drop]
    rw [hds, hmore] at hd
    refine ⟨signText negative ++ body.take (unsignedSize body), ?_, ?_⟩
    · rw [List.append_assoc, List.take_append_drop]
    · rw [htext]
      exact isNumber_of_numberOf h hf hp hd
  complete h hr := by
    cases h with
    | whole negative h hlimit =>
      have hparts := reading_readNumber_parts limit negative h .none .none hr
      rw [List.append_nil, List.append_nil, numberOf_whole h, if_pos (hlimit _ rfl)] at hparts
      exact hparts
    | decimal negative h hf hp hmore =>
      rw [reading_readNumber_parts limit negative h hf hp hr,
          numberOf_decimal h limit negative hf hp hmore]
      rfl

/-- No number is nested too deeply. -/
theorem numberOf_ne_tooDeep {negative : Bool} {whole more : List Char} :
    numberOf limit negative whole more ≠ .error .tooDeep := by
  intro h
  unfold numberOf at h
  split at h
  · split at h <;> cases h
  · split at h <;> cases h

theorem readNumber_ne_tooDeep : readNumber limit cs ≠ .error .tooDeep := by
  intro h
  obtain ⟨negative, body, rfl, hs⟩ := exists_sign cs
  rw [← reading_eq_error, reading_readNumber hs] at h
  split at h
  · cases h
  · cases hd : numberOf limit negative (body.take (wholeSize body))
        ((body.take (unsignedSize body)).drop (wholeSize body)) with
    | error fault =>
      rw [hd] at h
      cases h
      exact numberOf_ne_tooDeep hd
    | ok d =>
      rw [hd] at h
      cases h

/-- A number starts with a digit, perhaps behind a minus. -/
theorem IsNumber.exists_digit {f : Format} {d : Document} {text : List Char}
    (h : IsNumber f d text) :
    ∃ negative c more, text = signText negative ++ c :: more ∧ c.isDigit = true := by
  cases h with
  | whole negative h =>
    obtain ⟨c, more, rfl, hc⟩ := h.1.exists_cons
    exact ⟨negative, c, more, rfl, hc⟩
  | decimal negative h =>
    obtain ⟨c, more, rfl, hc⟩ := h.1.exists_cons
    exact ⟨negative, c, _, rfl, hc⟩

end PanelExport.Document
