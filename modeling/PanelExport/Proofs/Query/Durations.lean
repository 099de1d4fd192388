import PanelExport.Proofs.Query.Sources
import PanelExport.Proofs.Query.Values

/-!
# What a duration says

A duration is a row of chunks, each of which is digits and the letters of one unit. The row is the
only one that its characters spell, so the lexer, which looks at what follows the row, and the
evaluation, which searches the text for chunks, come to the same chunks. Their seconds add up.

* `SpellsChunks.unique`: characters that are a row of chunks are no other row.
* `durationSize?_eq_some_iff`: what the lexer takes, without the order in which it tries.
* `SpellsChunks.findChunks_eq`: a search finds the chunks of the row and no other.
* `isDurationLiteral_iff`: the durations that a text may have are the rows of chunks.
* `numberValue_duration`: a duration has the sum of its chunks as its value, and two durations one
  behind the other have the sum of both.
-/

namespace PanelExport.Query

/-! ## Rows of chunks -/

/-- The chunks that a search of a text finds one after the other. A character where no chunk starts
is passed over. -/
def findChunks (cs : List Char) : List Chunk :=
  match h : Chunk.read? cs with
  | some (k, rest) =>
    have := Chunk.read?_length h
    k :: findChunks rest
  | none =>
    match cs with
    | [] => []
    | _ :: cs => findChunks cs
termination_by cs.length

theorem findChunks_of_some {k : Chunk} {cs rest : List Char}
    (h : Chunk.read? cs = some (k, rest)) : findChunks cs = k :: findChunks rest := by
  rw [findChunks]
  split
  · rename_i hsome
    rw [h] at hsome
    cases hsome
    rfl
  · rename_i hnone
    rw [h] at hnone
    cases hnone

namespace SpellsChunks

variable {ks ks' : List Chunk} {cs cs' rest : List Char}

theorem append (h : SpellsChunks ks cs) (h' : SpellsChunks ks' cs') :
    SpellsChunks (ks ++ ks') (cs ++ cs') := by
  induction h with
  | nil => exact h'
  | cons atLeastOne digits amount _ ih =>
    rw [List.append_assoc, List.append_assoc]
    exact .cons atLeastOne digits amount ih

/-- A row of chunks starts with a digit. -/
theorem isDecimalDigit_head (h : SpellsChunks ks cs) : ∀ c ∈ cs.head?, isDecimalDigit c = true := by
  cases h with
  | nil => rintro _ ⟨⟩
  | cons atLeastOne digits amount others =>
    obtain ⟨d, ds, rfl⟩ := List.exists_cons_of_ne_nil atLeastOne
    rintro _ ⟨⟩
    exact digits d List.mem_cons_self

/-- The first chunk of a row is read as that chunk: the letter of a minute is not the first letter
of a millisecond, because a digit or what ends the row follows it. -/
theorem read?_cons {k : Chunk} {ds : List Char} (atLeastOne : ds ≠ [])
    (digits : ∀ c ∈ ds, isDecimalDigit c = true) (amount : k.digits = ds.filterMap digitValue?)
    (others : SpellsChunks ks cs) (hr : EndsRun rest) :
    Chunk.read? (ds ++ (k.unit.letters ++ cs) ++ rest) = some (k, cs ++ rest) := by
  refine Chunk.read?_eq_some.2 ⟨ds, atLeastOne, digits, by simp, amount, fun _ c hc => ?_⟩
  cases cs with
  | nil => exact hr.ne hc (by decide)
  | cons d cs =>
    cases hc
    have hdigit := others.isDecimalDigit_head c rfl
    rintro rfl
    exact absurd hdigit (by decide)

/-- The chunks in front of a text are the chunks of the row that it starts with, if no word
character follows the row. -/
theorem spanChunks_eq (h : SpellsChunks ks cs) (hr : EndsRun rest) :
    spanChunks (cs ++ rest) = (ks, rest) := by
  induction h with
  | nil =>
    refine spanChunks_of_none (Option.eq_none_iff_forall_ne_some.2 fun p hp => ?_)
    obtain ⟨ds, hne, hds, hrest, -⟩ := Chunk.read?_eq_some.1 hp
    obtain ⟨d, ds, rfl⟩ := List.exists_cons_of_ne_nil hne
    have hdigit := hr.isDecimalDigit (c := d) (by rw [← List.nil_append rest, hrest]; rfl)
    rw [hds d List.mem_cons_self] at hdigit
    cases hdigit
  | cons atLeastOne digits amount others ih =>
    rw [spanChunks_of_some (read?_cons atLeastOne digits amount others hr), ih]

theorem spanChunks_self (h : SpellsChunks ks cs) : spanChunks cs = (ks, []) := by
  simpa using h.spanChunks_eq endsLexeme_nil.endsRun

/-- Characters are one row of chunks at most. -/
theorem unique (h : SpellsChunks ks cs) (h' : SpellsChunks ks' cs) : ks' = ks := by
  have heq := h'.spanChunks_self
  rw [h.spanChunks_self] at heq
  exact (Prod.mk.inj heq).1.symm

/-- A search of a row of chunks finds them all, and no chunk that starts inside of one. -/
theorem findChunks_eq (h : SpellsChunks ks cs) : findChunks cs = ks := by
  induction h with
  | nil =>
    rw [findChunks]
    rfl
  | cons atLeastOne digits amount others ih =>
    have hread := read?_cons atLeastOne digits amount others endsLexeme_nil.endsRun
    rw [List.append_nil, List.append_nil] at hread
    rw [findChunks_of_some hread, ih]

end SpellsChunks

/-! ## What the lexer takes -/

/-- The lexer takes some characters as a duration just if they are a row of chunks and neither a
word character nor a point follows them. -/
theorem durationSize?_eq_some_iff {cs : List Char} {n : Nat} :
    durationSize? cs = some n ↔ n ≤ cs.length ∧ (∃ ks, ks ≠ [] ∧ SpellsChunks ks (cs.take n)) ∧
      ∀ c ∈ (cs.drop n).head?, isWord c = false ∧ c ≠ '.' := by
  constructor
  · intro h
    obtain ⟨hne, hlength, hhead⟩ := durationSize?_eq_some.1 h
    obtain ⟨front, hfront, hrow⟩ := spellsChunks_spanChunks cs
    have hn : front.length = n := by
      have := congrArg List.length hfront
      rw [List.length_append] at this
      omega
    rw [hfront, List.take_left' hn, List.drop_left' hn]
    exact ⟨by simp [hn], ⟨_, hne, hrow⟩, hhead⟩
  · rintro ⟨hn, ⟨ks, hne, hrow⟩, hhead⟩
    have hend : EndsRun (cs.drop n) := fun c hc => (hhead c hc).1
    have hspan := hrow.spanChunks_eq hend
    rw [List.take_append_drop] at hspan
    rw [durationSize?_eq_some, hspan]
    exact ⟨hne, by rw [List.length_drop]; omega, hhead⟩

/-- Some characters are the value of a duration among the tokens of some text. -/
def IsDurationLiteral (raw : List Char) : Prop :=
  ∃ text ts, tokenize text = .ok ts ∧ ∃ t ∈ ts, t.kind = .duration ∧ t.value.toList = raw

theorem isDurationLiteral_iff {raw : List Char} :
    IsDurationLiteral raw ↔ ∃ ks, ks ≠ [] ∧ SpellsChunks ks raw := by
  constructor
  · rintro ⟨text, _, htokens, t, ht, hkind, rfl⟩
    obtain ⟨ts, hts, rfl⟩ := exceptMap_eq_ok.1 htokens
    obtain ⟨ps, hps, rfl⟩ := exceptMap_eq_ok.1 hts
    rcases List.mem_append.1 ht with ht | ht
    · obtain ⟨rest, size, -, hsize, hvalue⟩ := literal_of_mem hps ht (.inr hkind)
      rcases literal?_kind hsize with ⟨-, hduration⟩ | ⟨hnumber, -⟩
      · rw [hvalue]
        exact (durationSize?_eq_some_iff.1 hduration).2.1
      · rw [hkind] at hnumber
        cases hnumber
    · rw [List.mem_singleton.1 ht] at hkind
      cases hkind
  · rintro ⟨ks, hne, hrow⟩
    have hword : IsDuration (String.ofList raw) := by
      rw [IsDuration, String.toList_ofList, hrow.spanChunks_self]
      exact ⟨hne, rfl⟩
    obtain ⟨ps, hps, hstand⟩ :=
      tokens_of_spaced (LexRow.single (duration_lexes (k := .outside) hword)) rfl 0
    obtain ⟨t, hts, ht⟩ := List.map_eq_singleton_iff.1 hstand
    obtain ⟨hkind, hvalue⟩ := Prod.mk.inj ht
    have hpieces : pieces (String.ofList raw).toList = .ok ps := hps
    have htokens : tokenize (String.ofList raw) =
        .ok (tokensOf 0 ps ++ [.finish (String.ofList raw).length]) := by
      rw [tokenize, lexemes, hpieces]
      rfl
    have hmem : t ∈ tokensOf 0 ps := hts ▸ List.mem_singleton_self t
    refine ⟨_, _, htokens, t, List.mem_append_left _ hmem, hkind, ?_⟩
    rw [hvalue]
    exact String.toList_ofList

/-! ## Values -/

/-- The seconds of a chunk whose unit is a whole number of them. -/
def Chunk.seconds (k : Chunk) : Nat :=
  ofDigits 10 k.digits * k.unit.seconds?.getD 0

/-- The seconds of a row of chunks. -/
def totalSeconds : List Chunk → Nat
  | [] => 0
  | k :: ks => k.seconds + totalSeconds ks

theorem totalSeconds_append (ks ks' : List Chunk) :
    totalSeconds (ks ++ ks') = totalSeconds ks + totalSeconds ks' := by
  induction ks with
  | nil => rw [List.nil_append, totalSeconds, Nat.zero_add]
  | cons k ks ih => rw [List.cons_append, totalSeconds, ih, totalSeconds, Nat.add_assoc]

/-- No chunk is in milliseconds, and every amount has few enough digits to be read. -/
def AreExact (ks : List Chunk) : Prop :=
  ∀ k ∈ ks, k.unit ≠ .millisecond ∧ k.digits.length ≤ digitLimit

theorem Chunk.value_seconds {k : Chunk} (hunit : k.unit ≠ .millisecond)
    (hdigits : k.digits.length ≤ digitLimit) : k.value = .ok (.whole k.seconds) := by
  rw [Chunk.value, wholeNumber_of_le hdigits, Chunk.seconds]
  cases hk : k.unit with
  | millisecond => exact absurd hk hunit
  | _ => simp [TimeUnit.seconds?, bind, Except.bind, pure, Except.pure]

/-- The chunks of a row are added exactly. -/
theorem sumChunks_whole {ks : List Chunk} (h : AreExact ks) (n : Nat) :
    sumChunks (.whole n) ks = .ok (.whole (n + totalSeconds ks : Nat)) := by
  induction ks generalizing n with
  | nil => rfl
  | cons k ks ih =>
    obtain ⟨⟨hunit, hdigits⟩, hks⟩ := List.forall_mem_cons.1 h
    have hrest := ih hks (n + k.seconds)
    rw [Nat.add_assoc] at hrest
    rw [sumChunks, Chunk.value_seconds hunit hdigits]
    exact hrest

namespace SpellsChunks

variable {ks ks' : List Chunk} {cs cs' : List Char}

/-- A row of chunks is no decimal: behind the digits in front stands the letter of a unit, which is
neither a point nor the letter of a power of ten. -/
theorem readDecimal?_eq_none (h : SpellsChunks ks cs) (hne : ks ≠ []) : readDecimal? cs = none := by
  cases h with
  | nil => exact absurd rfl hne
  | @cons k ds ks cs atLeastOne digits amount others =>
    obtain ⟨c, letters, hletters, -, hc⟩ := k.unit.letters_first
    simp only [List.mem_cons, List.not_mem_nil, or_false, not_or] at hc
    have hsign : spanSign (ds ++ (k.unit.letters ++ cs)) =
        (false, ds ++ (k.unit.letters ++ cs)) := by
      obtain ⟨d, ds, rfl⟩ := List.exists_cons_of_ne_nil atLeastOne
      exact spanSign_of_isDecimalDigit (digits d List.mem_cons_self) _
    have hspan := spanDigits_letters digits k.unit cs
    rw [hletters, List.cons_append] at hsign hspan ⊢
    simp [readDecimal?, hsign, hspan, readPower?, hc]

/-- A row of chunks is no hexadecimal number: no unit has the letter that marks one. -/
theorem hexDigits?_eq_none (h : SpellsChunks ks cs) : hexDigits? cs = none := by
  have hmark : ∀ c ∈ cs, c ≠ 'x' ∧ c ≠ 'X' := by
    induction h with
    | nil => exact fun c hc => absurd hc List.not_mem_nil
    | @cons k ds ks cs _ digits _ _ ih =>
      have hletters : k.unit.letters.all (fun c => c != 'x' && c != 'X') = true := by
        cases k.unit <;> decide
      refine List.forall_mem_append.2 ⟨fun c hc => ?_, List.forall_mem_append.2 ⟨fun c hc => ?_, ih⟩⟩
      · have hdigit := digits c hc
        constructor <;> rintro rfl <;> exact absurd hdigit (by decide)
      · simpa using List.all_eq_true.1 hletters c hc
  refine Query.hexDigits?_eq_none fun d hd => ?_
  exact hmark d (List.mem_of_mem_tail (List.mem_of_mem_head? hd))

theorem numberValue_eq (h : SpellsChunks ks cs) (hne : ks ≠ []) :
    numberValue cs = sumChunks (.whole 0) ks := by
  rw [numberValue, h.hexDigits?_eq_none, h.readDecimal?_eq_none hne, h.spanChunks_self]

theorem numberValue_exact (h : SpellsChunks ks cs) (hne : ks ≠ []) (hexact : AreExact ks) :
    numberValue cs = .ok (.whole (totalSeconds ks)) := by
  rw [h.numberValue_eq hne, ← Int.ofNat_zero, sumChunks_whole hexact, Nat.zero_add]

end SpellsChunks

/-- A duration of a text is no decimal and no hexadecimal number. Its characters are one row of
chunks and no other, which are the chunks that a search finds, and its value is their sum. Without
milliseconds the sum is the whole number of seconds, and a duration one behind the other with such a
duration is a duration that has the sum of both. -/
theorem numberValue_duration {raw : List Char} (h : IsDurationLiteral raw) :
    readDecimal? raw = none ∧ hexDigits? raw = none ∧
      ∃ ks, ks ≠ [] ∧ SpellsChunks ks raw ∧ (∀ ks', SpellsChunks ks' raw → ks' = ks) ∧
        findChunks raw = ks ∧ numberValue raw = sumChunks (.whole 0) ks ∧
        (AreExact ks → numberValue raw = .ok (.whole (totalSeconds ks)) ∧
          ∀ raw' ks', IsDurationLiteral raw' → SpellsChunks ks' raw' → AreExact ks' →
            numberValue raw' = .ok (.whole (totalSeconds ks')) ∧
            IsDurationLiteral (raw ++ raw') ∧
            numberValue (raw ++ raw') = .ok (.whole (totalSeconds ks + totalSeconds ks'))) := by
  obtain ⟨ks, hne, hrow⟩ := isDurationLiteral_iff.1 h
  refine ⟨hrow.readDecimal?_eq_none hne, hrow.hexDigits?_eq_none, ks, hne, hrow,
    fun _ => hrow.unique, hrow.findChunks_eq, hrow.numberValue_eq hne, fun hexact => ?_⟩
  refine ⟨hrow.numberValue_exact hne hexact, fun raw' ks' h' hrow' hexact' => ?_⟩
  have hne' : ks' ≠ [] := by
    obtain ⟨_, hne', hspells⟩ := isDurationLiteral_iff.1 h'
    rwa [hspells.unique hrow']
  have happend := List.append_ne_nil_of_left_ne_nil hne ks'
  have hboth := (hrow.append hrow').numberValue_exact happend
    (List.forall_mem_append.2 ⟨hexact, hexact'⟩)
  rw [totalSeconds_append, Int.natCast_add] at hboth
  exact ⟨hrow'.numberValue_exact hne' hexact',
    isDurationLiteral_iff.2 ⟨_, happend, hrow.append hrow'⟩, hboth⟩

/-- An hour and thirty minutes, with a digit of another script, and then fifteen seconds. -/
theorem numberValue_duration_hours :
    IsDurationLiteral ['1', 'h', '٣', '0', 'm'] ∧ IsDurationLiteral ['1', '5', 's'] ∧
      numberValue ['1', 'h', '٣', '0', 'm'] = .ok (.whole 5400) ∧
      numberValue ['1', 'h', '٣', '0', 'm', '1', '5', 's'] = .ok (.whole 5415) := by
  have hrow : SpellsChunks [⟨[1], .hour⟩, ⟨[3, 0], .minute⟩] ['1', 'h', '٣', '0', 'm'] :=
    .cons (List.cons_ne_nil '1' []) (List.all_eq_true.1 (by decide)) (by decide) <|
      .cons (List.cons_ne_nil '٣' ['0']) (List.all_eq_true.1 (by decide)) (by decide) .nil
  have hrow' : SpellsChunks [⟨[1, 5], .second⟩] ['1', '5', 's'] :=
    .cons (List.cons_ne_nil '1' ['5']) (List.all_eq_true.1 (by decide)) (by decide) .nil
  have hexact : AreExact [⟨[1], .hour⟩, ⟨[3, 0], .minute⟩] := by simp [AreExact, digitLimit]
  have hexact' : AreExact [⟨[1, 5], .second⟩] := by simp [AreExact, digitLimit]
  have hraw := isDurationLiteral_iff.2 ⟨_, List.cons_ne_nil _ _, hrow⟩
  have hraw' := isDurationLiteral_iff.2 ⟨_, List.cons_ne_nil _ _, hrow'⟩
  obtain ⟨-, -, ks, -, -, hunique, -, -, hvalue⟩ := numberValue_duration hraw
  obtain rfl := hunique _ hrow
  obtain ⟨hvalue, hadd⟩ := hvalue hexact
  exact ⟨hraw, hraw', hvalue, (hadd _ _ hraw' hrow' hexact').2.2⟩

end PanelExport.Query
