import PanelExport.Proofs.Query.Rules

/-!
# The rows of arguments a signature allows

A function is checked by a least and a greatest number of arguments and a type for each place,
where places past the end have the type of the last one. Together they allow the argument types
as they stand, with the last one left out or given as often as the signature says.

* `Signature.Allows`: the rows of types that a signature stands for.
* `Signature.accepts_iff_allows`: the bounds and the types of the places allow just these rows.
* `checkCall_isArity`: the number of arguments is complained about if it is out of bounds.
* `checkCall_allows_iff`: a call is accepted just if its arguments are such a row, and no type is
  asked for that the signature does not have.
-/

namespace PanelExport.Query

/-- The rows of argument types that a signature stands for. -/
def Signature.Allows (s : Signature) (types : List ValueType) : Prop :=
  match s.repetition with
  | .exactly => types = s.argTypes
  | .upTo times => ∃ init last k, s.argTypes = init ++ [last] ∧ k ≤ times ∧
      types = init ++ List.replicate k last
  | .unlimited => ∃ init last k, s.argTypes = init ++ [last] ∧
      types = init ++ List.replicate k last

/-- So many arguments may be given to a function, whatever their types. -/
def Signature.Takes (s : Signature) (n : Nat) : Prop :=
  s.minArgs ≤ n ∧ ∀ greatest ∈ s.maxArgs?, n ≤ greatest

/-- The number of arguments is out of bounds. -/
def ParseCause.IsArity : ParseCause → Prop
  | .tooFewArguments _ _ _ => True
  | .tooManyArguments _ _ _ => True
  | _ => False

/-! ## The types of the places -/

namespace Signature

variable {s : Signature} {init types : List ValueType} {last : ValueType}

theorem argType?_of_lt_init (h : s.argTypes = init ++ [last]) {i : Nat} (hi : i < init.length) :
    s.argType? i = some init[i] := by
  rw [argType_of_lt (by simp [h]; omega)]
  simp [h, hi]

theorem argType?_of_init_le (h : s.argTypes = init ++ [last]) {i : Nat} (hi : init.length ≤ i) :
    s.argType? i = some last := by
  have hclamp : min i (s.argTypes.length - 1) = init.length := by
    simp only [h, List.length_append, List.length_singleton]
    omega
  rw [argType?, hclamp, h, List.getElem?_concat_length]

/-- Types fit a signature place by place, and all places but the last one are taken, if they are
these types and copies of the last one. -/
theorem fits_iff_replicate (h : s.argTypes = init ++ [last]) :
    (init.length ≤ types.length ∧ ∀ i (hi : i < types.length), s.argType? i = some types[i]) ↔
      ∃ k, types = init ++ List.replicate k last := by
  constructor
  · rintro ⟨hl, hfits⟩
    refine ⟨types.length - init.length, List.ext_getElem (by simp; omega) fun i hi _ => ?_⟩
    have hplace := hfits i hi
    by_cases hinit : i < init.length
    · rw [argType?_of_lt_init h hinit] at hplace
      rw [List.getElem_append_left hinit, Option.some.inj hplace]
    · rw [argType?_of_init_le h (Nat.le_of_not_lt hinit)] at hplace
      rw [List.getElem_append_right (Nat.le_of_not_lt hinit), List.getElem_replicate,
        Option.some.inj hplace]
  · rintro ⟨k, rfl⟩
    refine ⟨by simp, fun i hi => ?_⟩
    by_cases hinit : i < init.length
    · rw [argType?_of_lt_init h hinit, List.getElem_append_left hinit]
    · rw [argType?_of_init_le h (Nat.le_of_not_lt hinit),
        List.getElem_append_right (Nat.le_of_not_lt hinit), List.getElem_replicate]

theorem fits_iff_eq :
    (types.length = s.argTypes.length ∧
      ∀ i (hi : i < types.length), s.argType? i = some types[i]) ↔ types = s.argTypes := by
  constructor
  · rintro ⟨hl, hfits⟩
    refine List.ext_getElem hl fun i hi hi' => ?_
    have hplace := hfits i hi
    rw [argType_of_lt hi'] at hplace
    exact (Option.some.inj hplace).symm
  · rintro rfl
    exact ⟨rfl, fun i hi => argType_of_lt hi⟩

/-! ## Numbers and types together -/

theorem accepts_iff_takes :
    s.Accepts types ↔
      s.Takes types.length ∧ ∀ i (hi : i < types.length), s.argType? i = some types[i] :=
  and_assoc.symm

theorem takes_exactly (h : s.repetition = .exactly) {n : Nat} :
    s.Takes n ↔ n = s.argTypes.length := by
  simp only [Takes, minArgs, maxArgs?, h, Option.mem_def, Option.some.injEq, forall_eq']
  omega

theorem takes_upTo {times : Nat} (h : s.repetition = .upTo times)
    (hargs : s.argTypes = init ++ [last]) {n : Nat} :
    s.Takes n ↔ init.length ≤ n ∧ n ≤ init.length + times := by
  simp only [Takes, minArgs, maxArgs?, h, hargs, Option.mem_def, Option.some.injEq, forall_eq',
    List.length_append, List.length_singleton]
  omega

theorem takes_unlimited (h : s.repetition = .unlimited) (hargs : s.argTypes = init ++ [last])
    {n : Nat} : s.Takes n ↔ init.length ≤ n := by
  simp [Takes, minArgs, maxArgs?, h, hargs]

/-- The bounds on the number of arguments and the types of the places allow just the rows that the
signature stands for. -/
theorem accepts_iff_allows (hs : s.argTypes = [] → s.repetition = .exactly) :
    s.Accepts types ↔ s.Allows types := by
  -- a signature that repeats its last argument has one
  have hlast : s.repetition ≠ .exactly → ∃ init last, s.argTypes = init ++ [last] := fun hr =>
    ⟨_, _, (List.dropLast_concat_getLast fun he => hr (hs he)).symm⟩
  rw [accepts_iff_takes]
  cases hr : s.repetition with
  | exactly =>
    simp only [Allows, hr]
    rw [takes_exactly hr, fits_iff_eq]
  | upTo times =>
    simp only [Allows, hr]
    constructor
    · rintro ⟨htakes, hfits⟩
      obtain ⟨init, last, h⟩ := hlast (by simp [hr])
      obtain ⟨hleast, hgreatest⟩ := (takes_upTo hr h).1 htakes
      obtain ⟨k, rfl⟩ := (fits_iff_replicate h).1 ⟨hleast, hfits⟩
      exact ⟨init, last, k, h, by simpa using hgreatest, rfl⟩
    · rintro ⟨init, last, k, h, hk, rfl⟩
      refine ⟨(takes_upTo hr h).2 (by simpa using hk), ?_⟩
      exact ((fits_iff_replicate h).2 ⟨k, rfl⟩).2
  | unlimited =>
    simp only [Allows, hr]
    constructor
    · rintro ⟨htakes, hfits⟩
      obtain ⟨init, last, h⟩ := hlast (by simp [hr])
      obtain ⟨k, rfl⟩ := (fits_iff_replicate h).1 ⟨(takes_unlimited hr h).1 htakes, hfits⟩
      exact ⟨init, last, k, h, rfl⟩
    · rintro ⟨init, last, k, h, rfl⟩
      refine ⟨(takes_unlimited hr h).2 (by simp), ?_⟩
      exact ((fits_iff_replicate h).2 ⟨k, rfl⟩).2

end Signature

/-! ## Calls -/

/-- The number of arguments is complained about just if it is out of bounds. -/
theorem checkCall_isArity {pos : Nat} {s : Signature} {args : List Expr} :
    (∃ cause place, cause.IsArity ∧ checkCall pos s args = fail cause place) ↔
      ¬ s.Takes args.length := by
  unfold checkCall Signature.Takes
  split
  · rename_i hfew
    refine iff_of_true ⟨.tooFewArguments _ _ _, pos, trivial, rfl⟩ fun h => ?_
    exact absurd hfew (Nat.not_lt.2 h.1)
  · rename_i hfew
    split
    · rename_i greatest hmany
      obtain ⟨hg, hlt⟩ := Option.filter_eq_some_iff.1 hmany
      refine iff_of_true ⟨.tooManyArguments _ _ _, pos, trivial, rfl⟩ fun h => ?_
      exact absurd (h.2 greatest hg) (by simpa using hlt)
    · rename_i hmany
      have htakes : ∀ greatest ∈ s.maxArgs?, args.length ≤ greatest := by
        simpa [Option.filter_eq_none_iff] using hmany
      refine iff_of_false ?_ (not_not_intro ⟨Nat.le_of_not_lt hfew, htakes⟩)
      rintro ⟨cause, place, harity, h⟩
      split at h
      · cases h
        exact harity
      · cases h

/-- A call is accepted just if the types of its arguments are a row that the signature stands for.
Where their number is not complained about, each of them has a place in the signature. -/
theorem checkCall_allows_iff {s : Signature} (hs : s.argTypes = [] → s.repetition = .exactly)
    (pos : Nat) (args : List Expr) :
    ((∃ e, checkCall pos s args = .ok e) ↔ s.Allows (args.map Expr.type)) ∧
      ((¬ ∃ cause place, cause.IsArity ∧ checkCall pos s args = fail cause place) →
        ∀ i < args.length, min i (s.argTypes.length - 1) < s.argTypes.length) := by
  constructor
  · rw [← Signature.accepts_iff_allows hs]
    simp only [checkCall_eq_ok_of_argTypes hs, exists_eq_left]
  · intro harity i hi
    have htakes : s.Takes args.length :=
      Classical.byContradiction fun h => harity (checkCall_isArity.2 h)
    simpa [Signature.argType?] using Signature.argType?_isSome hs htakes.2 hi

/-- A label may be joined from any number of others. -/
theorem checkCall_allows_iff_joinedLabels :
    let s : Signature := ⟨"label_join", [.instant, .text, .text, .text], .instant, .unlimited⟩
    let args : List Expr :=
      [.selector ⟨0, "up", []⟩, .text 0 "a", .text 0 ",", .text 0 "b", .text 0 "c", .text 0 "d"]
    (s.argTypes = [] → s.repetition = .exactly) ∧ (∃ e, checkCall 0 s args = .ok e) ∧
      ∀ i < 6, min i 3 < 4 := by
  intro s args
  have hs : s.argTypes = [] → s.repetition = .exactly := fun h => absurd h (List.cons_ne_nil _ _)
  have hjoined := checkCall_allows_iff hs 0 args
  have hargs : s.argTypes = [.instant, .text, .text] ++ [.text] := rfl
  refine ⟨hs, hjoined.1.2 ⟨_, _, 3, hargs, rfl⟩, hjoined.2 fun h => checkCall_isArity.1 h ?_⟩
  exact (Signature.takes_unlimited rfl hargs).2 (by decide)

end PanelExport.Query
