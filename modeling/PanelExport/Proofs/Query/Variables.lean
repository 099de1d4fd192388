import Mathlib.Data.List.TakeWhile
import PanelExport.Proofs.Query.Boundaries
import PanelExport.Query.Metrics

/-!
# Dashboard variables

The variables of a text divide it: there is a piece in front of the first one, a piece between any
two, and a piece behind the last one. Replacing the variables keeps all pieces. What stands in their
place starts with a word character, so a dollar sign right in front of a variable makes a new one,
and nothing else does.

* `variable_induction`: a text is read variable by variable and character by character.
* `exists_divided`, `Divided.unique`: a text is divided in one way.
* `Divided.stripMacrosFrom_eq`: replacing the variables keeps the pieces between them.
* `hasVariable_stripMacrosFrom_iff`: when a variable is left.
* `stripMacrosFrom_eq_self_iff`: what replacing leaves as it is.
* `stripMacros_divided`: all of it, for texts.
-/

namespace PanelExport.Query

/-! ## Variables -/

/-- A dollar sign stands right in front of a word character. -/
def HasVariable (cs : List Char) : Prop :=
  ∃ c, ['$', c] <:+: cs ∧ isWord c = true

/-- A dollar sign stands right in front of a variable. -/
def HasDoubledDollar (cs : List Char) : Prop :=
  ∃ c, ['$', '$', c] <:+: cs ∧ isWord c = true

/-- A text starts with a variable. -/
def StartsVariable (cs : List Char) : Prop :=
  ∃ c, ['$', c] <+: cs ∧ isWord c = true

variable {c : Char} {cs piece name rest : List Char}

theorem not_endsRun_iff : ¬ EndsRun cs ↔ ∃ c, [c] <+: cs ∧ isWord c = true := by
  cases cs with
  | nil => simp [EndsRun]
  | cons c cs => simp [EndsRun, List.cons_prefix_cons]

theorem runLength_ne_zero_iff : runLength isWord cs ≠ 0 ↔ ¬ EndsRun cs := by
  cases cs with
  | nil => simp [EndsRun, runLength]
  | cons c cs => cases h : isWord c <;> simp [EndsRun, runLength, h]

theorem startsVariable_cons : StartsVariable (c :: cs) ↔ c = '$' ∧ ¬ EndsRun cs := by
  simp only [StartsVariable, List.cons_prefix_cons, and_assoc, exists_and_left, not_endsRun_iff,
    eq_comm]

theorem hasVariable_cons : HasVariable (c :: cs) ↔ StartsVariable (c :: cs) ∨ HasVariable cs := by
  simp only [HasVariable, StartsVariable, List.infix_cons_iff, or_and_right, exists_or]

theorem hasDoubledDollar_cons :
    HasDoubledDollar (c :: cs) ↔ (c = '$' ∧ StartsVariable cs) ∨ HasDoubledDollar cs := by
  simp only [HasDoubledDollar, StartsVariable, List.infix_cons_iff, List.cons_prefix_cons (a := '$')
    (b := c), or_and_right, exists_or, and_assoc, exists_and_left, eq_comm]

theorem not_hasVariable_cons (hstart : ¬ StartsVariable (c :: cs)) (h : ¬ HasVariable cs) :
    ¬ HasVariable (c :: cs) :=
  hasVariable_cons.not.2 (not_or.2 ⟨hstart, h⟩)

theorem not_hasVariable_nil : ¬ HasVariable [] := by
  simp [HasVariable]

theorem not_hasDoubledDollar_nil : ¬ HasDoubledDollar [] := by
  simp [HasDoubledDollar]

/-- No variable starts within a word. -/
theorem hasVariable_word_append (h : ∀ c ∈ name, isWord c = true) :
    HasVariable (name ++ rest) ↔ HasVariable rest := by
  induction name with
  | nil => rfl
  | cons c name ih =>
    obtain ⟨hc, hname⟩ := List.forall_mem_cons.1 h
    have hdollar : c ≠ '$' := by
      rintro rfl
      simp [isWord_dollar] at hc
    rw [List.cons_append, hasVariable_cons, startsVariable_cons, ih hname]
    simp [hdollar]

theorem hasDoubledDollar_word_append (h : ∀ c ∈ name, isWord c = true) :
    HasDoubledDollar (name ++ rest) ↔ HasDoubledDollar rest := by
  induction name with
  | nil => rfl
  | cons c name ih =>
    obtain ⟨hc, hname⟩ := List.forall_mem_cons.1 h
    have hdollar : c ≠ '$' := by
      rintro rfl
      simp [isWord_dollar] at hc
    rw [List.cons_append, hasDoubledDollar_cons, ih hname]
    simp [hdollar]

/-- A text is read variable by variable, and character by character where none starts. -/
theorem variable_induction {P : List Char → Prop} (nil : P [])
    (next : ∀ name rest, name ≠ [] → (∀ c ∈ name, isWord c = true) → EndsRun rest → P rest →
      P ('$' :: (name ++ rest)))
    (plain : ∀ c cs, ¬ StartsVariable (c :: cs) → P cs → P (c :: cs)) (cs : List Char) : P cs := by
  induction cs using stripMacrosFrom.induct with
  | case1 => exact nil
  | case2 c cs h ih =>
    obtain ⟨rfl, hrun⟩ := h
    have htext : cs.takeWhile isWord ++ cs.drop (runLength isWord cs) = cs :=
      List.prefix_iff_eq_append.1 (List.takeWhile_prefix isWord)
    have hrest : cs.drop (runLength isWord cs) = cs.dropWhile isWord :=
      List.append_cancel_left (htext.trans List.takeWhile_append_dropWhile.symm)
    have hends : EndsRun (cs.drop (runLength isWord cs)) := by
      intro d hd
      have hnot := List.head?_dropWhile_not isWord cs
      rw [hrest, Option.mem_def] at hd
      simpa [hd] using hnot
    have hnext := next (cs.takeWhile isWord) _ (fun hnil => hrun (by rw [runLength, hnil]; rfl))
      (fun c hc => List.mem_takeWhile_imp hc) hends ih
    rwa [htext] at hnext
  | case3 c cs h ih =>
    refine plain c cs ?_ ih
    rwa [startsVariable_cons, ← runLength_ne_zero_iff]

/-! ## Pieces -/

/-- A text is divided by its variables: the pieces in front of each of them with its name, and the
piece behind the last one. A name goes on as long as word characters do. -/
inductive Divided : List Char → List (List Char × List Char) → List Char → Prop
  | last {piece : List Char} (plain : ¬ HasVariable piece) : Divided piece [] piece
  | next {piece name rest last : List Char} {parts : List (List Char × List Char)}
      (plain : ¬ HasVariable piece) (named : name ≠ []) (word : ∀ c ∈ name, isWord c = true)
      (ends : EndsRun rest) (more : Divided rest parts last) :
      Divided (piece ++ '$' :: (name ++ rest)) ((piece, name) :: parts) last

/-- The text with something else in the place of every variable. -/
def joined (value : List Char) (parts : List (List Char × List Char)) (last : List Char) :
    List Char :=
  parts.flatMap (fun part => part.1 ++ value) ++ last

theorem not_endsRun_word (hne : name ≠ []) (h : ∀ c ∈ name, isWord c = true) :
    ¬ EndsRun (name ++ rest) := by
  obtain ⟨c, name, rfl⟩ := List.exists_cons_of_ne_nil hne
  simp [EndsRun, h c List.mem_cons_self]

theorem hasVariable_append_dollar (h : ¬ EndsRun rest) : HasVariable (piece ++ '$' :: rest) := by
  induction piece with
  | nil => exact hasVariable_cons.2 (.inl (startsVariable_cons.2 ⟨rfl, h⟩))
  | cons c piece ih => exact hasVariable_cons.2 (.inr ih)

/-- The piece in front of the first variable is one only. -/
theorem eq_of_append_dollar {piece' rest' : List Char} (hplain : ¬ HasVariable piece)
    (hplain' : ¬ HasVariable piece') (hrest : ¬ EndsRun rest) (hrest' : ¬ EndsRun rest')
    (h : piece ++ '$' :: rest = piece' ++ '$' :: rest') : piece = piece' ∧ rest = rest' := by
  -- What follows a dollar sign in front of a variable is no word: it starts with a dollar sign.
  have hbehind : ∀ {q r : List Char}, ¬ HasVariable ('$' :: q) → ¬ ¬ EndsRun (q ++ '$' :: r) := by
    intro q r hq
    rw [hasVariable_cons, startsVariable_cons, not_or] at hq
    cases q with
    | nil => simp [EndsRun, isWord_dollar]
    | cons d q => simpa [EndsRun] using hq.1
  induction piece generalizing piece' with
  | nil =>
    cases piece' with
    | nil => exact ⟨rfl, (List.cons.inj h).2⟩
    | cons c piece' =>
      obtain ⟨rfl, rfl⟩ := List.cons.inj h
      exact absurd hrest (hbehind hplain')
  | cons c piece ih =>
    cases piece' with
    | nil =>
      obtain ⟨rfl, rfl⟩ := List.cons.inj h
      exact absurd hrest' (hbehind hplain)
    | cons c' piece' =>
      obtain ⟨rfl, htext⟩ := List.cons.inj h
      obtain ⟨rfl, hrest⟩ := ih (fun hv => hplain (hasVariable_cons.2 (.inr hv)))
        (fun hv => hplain' (hasVariable_cons.2 (.inr hv))) htext
      exact ⟨rfl, hrest⟩

/-- A text is divided in one way. -/
theorem Divided.unique {parts parts' : List (List Char × List Char)} {last last' : List Char}
    (h : Divided cs parts last) (h' : Divided cs parts' last') :
    parts' = parts ∧ last' = last := by
  induction h generalizing parts' last' with
  | @last piece plain =>
    cases h' with
    | last => exact ⟨rfl, rfl⟩
    | next _ named word =>
      exact absurd (hasVariable_append_dollar (not_endsRun_word named word)) plain
  | @next piece name rest last parts plain named word ends more ih =>
    generalize htext : piece ++ '$' :: (name ++ rest) = text at h'
    cases h' with
    | last plain' =>
      rw [← htext] at plain'
      exact absurd (hasVariable_append_dollar (not_endsRun_word named word)) plain'
    | @next piece' name' rest' last' parts' plain' named' word' ends' more' =>
      obtain ⟨rfl, hbehind⟩ := eq_of_append_dollar plain plain' (not_endsRun_word named word)
        (not_endsRun_word named' word') htext
      have hname : name = name' := by
        have htake := congrArg (·.takeWhile isWord) hbehind
        simpa only [takeWhile_append_of_ends _ ends, takeWhile_append_of_ends _ ends',
          List.takeWhile_eq_self_iff.2 word, List.takeWhile_eq_self_iff.2 word'] using htake
      subst hname
      obtain rfl := List.append_cancel_left hbehind
      obtain ⟨rfl, rfl⟩ := ih more'
      exact ⟨rfl, rfl⟩

theorem exists_divided (cs : List Char) : ∃ parts last, Divided cs parts last := by
  induction cs using variable_induction with
  | nil => exact ⟨[], [], .last not_hasVariable_nil⟩
  | next name rest named word ends ih =>
    obtain ⟨parts, last, hdivided⟩ := ih
    exact ⟨([], name) :: parts, last, .next not_hasVariable_nil named word ends hdivided⟩
  | plain c cs hstart ih =>
    obtain ⟨parts, last, hdivided⟩ := ih
    cases hdivided with
    | last plain => exact ⟨[], c :: cs, .last (not_hasVariable_cons hstart plain)⟩
    | @next piece name rest last parts plain named word ends more =>
      have hpiece : ¬ StartsVariable (c :: piece) := by
        cases piece with
        | nil => simp [startsVariable_cons, EndsRun]
        | cons d piece => simpa [startsVariable_cons, EndsRun] using hstart
      exact ⟨(c :: piece, name) :: parts, last,
        .next (not_hasVariable_cons hpiece plain) named word ends more⟩

/-! ## Replacing variables -/

theorem stripMacrosFrom_variable (named : name ≠ []) (word : ∀ c ∈ name, isWord c = true)
    (ends : EndsRun rest) :
    stripMacrosFrom ('$' :: (name ++ rest)) = macroValue ++ stripMacrosFrom rest := by
  have hrun : runLength isWord (name ++ rest) = name.length := by
    rw [runLength_append _ ends, runLength, List.takeWhile_eq_self_iff.2 word]
  have hlength : name.length ≠ 0 := by simpa using named
  rw [stripMacrosFrom, if_pos ⟨rfl, hrun ▸ hlength⟩, hrun, List.drop_left]

theorem stripMacrosFrom_cons (h : ¬ StartsVariable (c :: cs)) :
    stripMacrosFrom (c :: cs) = c :: stripMacrosFrom cs := by
  rw [stripMacrosFrom, if_neg]
  rwa [runLength_ne_zero_iff, ← startsVariable_cons]

/-- A piece without variables is kept, and so is what follows if it goes on with no word. -/
theorem stripMacrosFrom_piece (plain : ¬ HasVariable piece) (ends : EndsRun rest) :
    stripMacrosFrom (piece ++ rest) = piece ++ stripMacrosFrom rest := by
  induction piece with
  | nil => rfl
  | cons c piece ih =>
    rw [hasVariable_cons, not_or] at plain
    have hstart : ¬ StartsVariable (c :: (piece ++ rest)) := by
      cases piece with
      | nil => exact fun h => (startsVariable_cons.1 h).2 ends
      | cons d piece => simpa [startsVariable_cons, EndsRun] using plain.1
    rw [List.cons_append, stripMacrosFrom_cons hstart, ih plain.2, List.cons_append]

theorem stripMacrosFrom_eq_self (plain : ¬ HasVariable cs) : stripMacrosFrom cs = cs := by
  have hpiece := stripMacrosFrom_piece plain endsLexeme_nil.endsRun
  rwa [stripMacros_nil, List.append_nil] at hpiece

/-- Replacing the variables keeps the pieces between them. -/
theorem Divided.stripMacrosFrom_eq {parts : List (List Char × List Char)} {last : List Char}
    (h : Divided cs parts last) : stripMacrosFrom cs = joined macroValue parts last := by
  induction h with
  | last plain => exact stripMacrosFrom_eq_self plain
  | @next piece name rest last parts plain named word ends more ih =>
    have hdollar : EndsRun ('$' :: (name ++ rest)) := by simp [EndsRun, isWord_dollar]
    rw [stripMacrosFrom_piece plain hdollar, stripMacrosFrom_variable named word ends, ih]
    simp [joined]

theorem isWord_of_mem_macroValue (h : c ∈ macroValue) : isWord c = true := by
  have hall : macroValue.all isWord = true := by decide +kernel
  exact List.all_eq_true.1 hall c h

/-- With the variables replaced, a text starts with a word if it did, or if it started with a
variable. -/
theorem endsRun_stripMacrosFrom_iff :
    EndsRun (stripMacrosFrom cs) ↔ EndsRun cs ∧ ¬ StartsVariable cs := by
  induction cs using variable_induction with
  | nil => simp [stripMacros_nil, EndsRun, StartsVariable]
  | next name rest named word ends ih =>
    rw [stripMacrosFrom_variable named word ends]
    have hvalue : ¬ EndsRun (macroValue ++ stripMacrosFrom rest) :=
      not_endsRun_word (by decide) fun _ => isWord_of_mem_macroValue
    exact iff_of_false hvalue fun h =>
      h.2 (startsVariable_cons.2 ⟨rfl, not_endsRun_word named word⟩)
  | plain c cs hstart ih =>
    rw [stripMacrosFrom_cons hstart]
    exact (and_iff_left hstart).symm

/-- A variable is left exactly if a dollar sign stood right in front of one. -/
theorem hasVariable_stripMacrosFrom_iff :
    HasVariable (stripMacrosFrom cs) ↔ HasDoubledDollar cs := by
  induction cs using variable_induction with
  | nil =>
    rw [stripMacros_nil]
    exact iff_of_false not_hasVariable_nil not_hasDoubledDollar_nil
  | next name rest named word ends ih =>
    have hname : ¬ StartsVariable (name ++ rest) := by
      obtain ⟨c, name, rfl⟩ := List.exists_cons_of_ne_nil named
      rw [List.cons_append, startsVariable_cons]
      exact fun h => absurd (word c List.mem_cons_self) (by simp [h.1, isWord_dollar])
    rw [stripMacrosFrom_variable named word ends,
      hasVariable_word_append fun _ => isWord_of_mem_macroValue, ih, hasDoubledDollar_cons,
      hasDoubledDollar_word_append word]
    simp [hname]
  | plain c cs hstart ih =>
    have hends : c = '$' → EndsRun cs := fun hc =>
      not_not.1 fun h => hstart (startsVariable_cons.2 ⟨hc, h⟩)
    rw [stripMacrosFrom_cons hstart, hasVariable_cons, hasDoubledDollar_cons, ih,
      startsVariable_cons, endsRun_stripMacrosFrom_iff]
    refine or_congr_left (and_congr_right fun hc => ?_)
    simp [hends hc]

/-- Replacing changes every text with a variable. -/
theorem stripMacrosFrom_eq_self_iff : stripMacrosFrom cs = cs ↔ ¬ HasVariable cs := by
  refine ⟨fun h => ?_, stripMacrosFrom_eq_self⟩
  obtain ⟨parts, last, hdivided⟩ := exists_divided cs
  cases hdivided with
  | last plain => exact plain
  | @next piece name rest _ _ plain named word ends more =>
    have hdollar : EndsRun ('$' :: (name ++ rest)) := by simp [EndsRun, isWord_dollar]
    rw [stripMacrosFrom_piece plain hdollar, stripMacrosFrom_variable named word ends] at h
    have hfirst := (List.cons.inj (List.append_cancel_left h)).1
    exact absurd hfirst (by decide)

/-- A text is divided by its variables in one way, and replacing them keeps every piece between them
where it stood. A variable is left exactly if a dollar sign stood right in front of one, and only
then does replacing once more change anything. -/
theorem stripMacros_divided (text : String) :
    (∃ parts last, Divided text.toList parts last ∧
        (∀ parts' last', Divided text.toList parts' last' → parts' = parts ∧ last' = last) ∧
        (stripMacros text).toList = joined macroValue parts last) ∧
      (HasVariable (stripMacros text).toList ↔ HasDoubledDollar text.toList) ∧
      (stripMacros (stripMacros text) = stripMacros text ↔ ¬ HasDoubledDollar text.toList) := by
  obtain ⟨parts, last, hdivided⟩ := exists_divided text.toList
  have htext : (stripMacros text).toList = stripMacrosFrom text.toList := String.toList_ofList
  refine ⟨⟨parts, last, hdivided, fun _ _ => hdivided.unique, ?_⟩, ?_, ?_⟩
  · rw [htext, hdivided.stripMacrosFrom_eq]
  · rw [htext, hasVariable_stripMacrosFrom_iff]
  · rw [← String.toList_inj, stripMacros, String.toList_ofList, htext, stripMacrosFrom_eq_self_iff,
      hasVariable_stripMacrosFrom_iff]

/-- A dollar sign in front of a variable, and the value that stands in its place, make a variable
that goes the next time. -/
theorem stripMacros_doubledDollar :
    stripMacros "$$a" = "$5m" ∧ HasVariable (stripMacros "$$a").toList ∧
      stripMacros (stripMacros "$$a") ≠ stripMacros "$$a" := by
  have hword : ∀ c ∈ ['a'], isWord c = true := List.forall_mem_singleton.2 (by decide +kernel)
  have hplain : ¬ HasVariable ['$'] :=
    not_hasVariable_cons (by simp [startsVariable_cons, EndsRun]) not_hasVariable_nil
  have hdivided : Divided ['$', '$', 'a'] [(['$'], ['a'])] [] :=
    .next hplain (by decide) hword endsLexeme_nil.endsRun (.last not_hasVariable_nil)
  have hfirst : stripMacrosFrom ['$', '$', 'a'] = ['$', '5', 'm'] := hdivided.stripMacrosFrom_eq
  have hleft : HasVariable ['$', '5', 'm'] := ⟨'5', by decide, by decide +kernel⟩
  have htext : (stripMacros "$$a").toList = ['$', '5', 'm'] := by
    rw [stripMacros, String.toList_ofList]
    exact hfirst
  refine ⟨String.toList_inj.1 htext, htext ▸ hleft, fun hagain => ?_⟩
  rw [← String.toList_inj, stripMacros, String.toList_ofList, htext,
    stripMacrosFrom_eq_self_iff] at hagain
  exact hagain hleft

end PanelExport.Query
