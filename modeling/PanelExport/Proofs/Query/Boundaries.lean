import PanelExport.Query.Lexer
import PanelExport.Proofs.Text.Classes

/-!
# Where a lexeme ends

How long a lexeme is depends on the characters behind it. A blank, a comment or a quote that follows
adds nothing to any lexeme; and what ends inside a stretch of text ends at the same place if the
stretch stands alone. The one exception is a row of durations, which stands only if the character
behind it lets it.

* `EndsLexeme`: nothing follows that could go on with a lexeme.
* `SpellsChunks`, `spellsChunks_spanChunks`: the chunks in front of a text, as a relation.
* `durationSize?_append`, `numberSize?_append`: what follows adds nothing.
* `durationSize?_cut`, `numberSize?_cut`: what ends before the cut ends there.
* `numberSize?_lt`: a number is shorter than what starts with an amount of a unit.
-/

namespace PanelExport.Query

/-- A character that no lexeme goes on with. -/
structure Breaks (c : Char) : Prop where
  word : isWord c = false
  sign : c ∉ ['.', ':', '=', '~', '+', '-']

/-- What follows starts with no word character. -/
def EndsRun (rest : List Char) : Prop := ∀ c ∈ rest.head?, isWord c = false

/-- Nothing follows that could go on with a lexeme. -/
def EndsLexeme (rest : List Char) : Prop := ∀ c ∈ rest.head?, Breaks c

/-- A character that breaks a lexeme goes on with no number and no operator. -/
theorem Breaks.ne {c d : Char} (h : Breaks c) (hd : d ∈ ['.', ':', '=', '~', '+', '-']) :
    c ≠ d := fun e => h.sign (e ▸ hd)

/-- A blank breaks a lexeme. -/
theorem breaks_of_isBlank {c : Char} (h : isBlank c = true) : Breaks c where
  word := isWord_of_isBlank h
  sign := by
    intro hc
    have hall : ['.', ':', '=', '~', '+', '-'].all (!isBlank ·) = true := by decide +kernel
    simpa [h] using List.all_eq_true.1 hall c hc

theorem breaks_comment : Breaks '#' := ⟨by decide +kernel, by decide⟩

/-- The marks that start a text. -/
def quotes : List Char := ['"', '\'', '\x60']

/-- A quote breaks a lexeme. -/
theorem breaks_of_mem_quotes {c : Char} (h : c ∈ quotes) : Breaks c where
  word := by
    have hall : quotes.all (!isWord ·) = true := by decide +kernel
    simpa using List.all_eq_true.1 hall c h
  sign := by
    have hall : quotes.all (fun c => !(['.', ':', '=', '~', '+', '-'].contains c)) = true := by
      decide
    simpa using List.all_eq_true.1 hall c h

variable {cs b rest : List Char}

/-- Where a lexeme ends, a run of word characters ends. -/
theorem EndsLexeme.endsRun (h : EndsLexeme rest) : EndsRun rest := fun c hc => (h c hc).word

theorem endsLexeme_nil : EndsLexeme [] := nofun

theorem endsLexeme_cons {c : Char} (h : Breaks c) (cs : List Char) : EndsLexeme (c :: cs) := by
  rintro _ ⟨⟩
  exact h

theorem endsRun_cons {c : Char} (h : isWord c = false) (cs : List Char) : EndsRun (c :: cs) := by
  rintro _ ⟨⟩
  exact h

/-- Behind the end of a run there is no digit. -/
theorem EndsRun.isDecimalDigit (h : EndsRun rest) {c : Char} (hc : c ∈ rest.head?) :
    isDecimalDigit c = false := by
  cases hdigit : PanelExport.isDecimalDigit c with
  | false => rfl
  | true =>
    have hword := isWord_of_isDecimalDigit hdigit
    rw [h c hc] at hword
    cases hword

/-- What follows does not start with a given word character. -/
theorem EndsRun.ne (h : EndsRun rest) {c d : Char} (hc : c ∈ rest.head?) (hd : isWord d = true) :
    c ≠ d := by
  rintro rfl
  rw [h c hc] at hd
  cases hd

/-! ## Runs of characters -/

section Runs

variable {p : Char → Bool}

/-- What follows adds nothing to a run that ends in front of it. -/
theorem takeWhile_append_of_ends (cs : List Char) (h : ∀ c ∈ rest.head?, p c = false) :
    (cs ++ rest).takeWhile p = cs.takeWhile p := by
  induction cs with
  | nil =>
    cases rest with
    | nil => rfl
    | cons c rest => simp [h c rfl]
  | cons c cs ih => simp only [List.cons_append, List.takeWhile_cons, ih]

theorem runLength_append (cs : List Char) (h : ∀ c ∈ rest.head?, p c = false) :
    runLength p (cs ++ rest) = runLength p cs := by
  rw [runLength, takeWhile_append_of_ends cs h, runLength]

theorem runLength_le (p : Char → Bool) (cs : List Char) : runLength p cs ≤ cs.length :=
  (List.takeWhile_sublist p).length_le

/-- A run that ends in a stretch of text is as long in the stretch alone. -/
theorem runLength_cut (h : runLength p (cs ++ b) ≤ cs.length) :
    runLength p (cs ++ b) = runLength p cs := by
  unfold runLength at h ⊢
  rw [List.takeWhile_append] at h ⊢
  split
  · rename_i hall
    rw [if_pos hall, List.length_append] at h
    rw [List.length_append]
    omega
  · rfl

/-- A run that ends before the end of a text ends there also if more follows. -/
theorem runLength_append_of_lt (h : runLength p cs < cs.length) (rest : List Char) :
    runLength p (cs ++ rest) = runLength p cs := by
  unfold runLength at h ⊢
  rw [List.takeWhile_append, if_neg (by omega)]

end Runs

/-- What a row of word characters takes off the front of a text stands before what starts with no
word character. -/
theorem append_of_endsRun {ws r : List Char} (hws : ∀ c ∈ ws, isWord c = true) (hr : EndsRun rest)
    (h : cs ++ rest = ws ++ r) : ∃ r', cs = ws ++ r' ∧ r = r' ++ rest := by
  rcases List.append_eq_append_iff.1 h with ⟨more, rfl, hrest⟩ | ⟨r', rfl, rfl⟩
  · cases more with
    | nil => exact ⟨[], by simp, by simpa using hrest.symm⟩
    | cons c more =>
      rw [List.cons_append] at hrest
      have hc := hr c (by rw [hrest]; rfl)
      rw [hws c (by simp)] at hc
      cases hc
  · exact ⟨r', rfl, rfl⟩

theorem mem_head?_append {c : Char} (h : c ∈ cs.head?) (b : List Char) : c ∈ (cs ++ b).head? := by
  obtain ⟨cs', rfl⟩ := List.head?_eq_some_iff.1 h
  rfl

/-! ## Durations -/

/-- The letters of a unit. -/
def TimeUnit.letters : TimeUnit → List Char
  | .millisecond => ['m', 's']
  | .second => ['s']
  | .minute => ['m']
  | .hour => ['h']
  | .day => ['d']
  | .week => ['w']
  | .year => ['y']

/-- A unit is read where its letters stand, but minutes not where milliseconds do. -/
theorem TimeUnit.read?_eq_some {u : TimeUnit} : read? cs = some (u, rest) ↔
    cs = u.letters ++ rest ∧ (u = .minute → ∀ c ∈ rest.head?, c ≠ 's') := by
  constructor
  · intro h
    unfold read? at h
    split at h <;> cases h <;> simp [letters]
    -- Only the minute has a letter that another unit starts with.
    rename_i hne
    rintro c hc rfl
    obtain ⟨rest', rfl⟩ := List.head?_eq_some_iff.1 hc
    exact hne rest' rfl
  · rintro ⟨rfl, hs⟩
    cases u <;> try rfl
    cases rest with
    | nil => rfl
    | cons c rest => simp [letters, read?, hs rfl c rfl]

/-- The first letter of a unit is none that goes on with a number. -/
theorem TimeUnit.letters_first (u : TimeUnit) : ∃ c cs, u.letters = c :: cs ∧
    isDecimalDigit c = false ∧ c ∉ ['.', 'e', 'E', 'x', 'X'] := by
  cases u <;> exact ⟨_, _, rfl, by decide, by decide⟩

theorem TimeUnit.isWord_letters (u : TimeUnit) : ∀ c ∈ u.letters, isWord c = true := by
  cases u <;> exact List.all_eq_true.1 (by decide +kernel)

/-- The digits in front of a unit end where the unit starts. -/
theorem spanDigits_letters {ds : List Char} (hds : ∀ c ∈ ds, isDecimalDigit c = true) (u : TimeUnit)
    (rest : List Char) :
    spanDigits (ds ++ (u.letters ++ rest)) = (ds.filterMap digitValue?, u.letters ++ rest) := by
  obtain ⟨c, letters, hletters, hc, -⟩ := u.letters_first
  rw [spanDigits, List.takeWhile_append_of_pos hds, List.dropWhile_append_of_pos hds, hletters]
  simp [hc]

/-- A chunk is some digits and the letters of a unit. -/
theorem Chunk.read?_eq_some {k : Chunk} : read? cs = some (k, rest) ↔
    ∃ ds, ds ≠ [] ∧ (∀ c ∈ ds, isDecimalDigit c = true) ∧ cs = ds ++ (k.unit.letters ++ rest) ∧
      k.digits = ds.filterMap digitValue? ∧ (k.unit = .minute → ∀ c ∈ rest.head?, c ≠ 's') := by
  constructor
  · intro h
    unfold read? at h
    split at h
    · cases h
    · rename_i digits body hdigits hspan
      obtain ⟨hfirst, hbody⟩ := Prod.mk.inj hspan
      obtain ⟨⟨u, r⟩, hu, he⟩ := Option.map_eq_some_iff.1 h
      cases he
      obtain ⟨hletters, hminute⟩ := TimeUnit.read?_eq_some.1 hu
      refine ⟨cs.takeWhile isDecimalDigit, ?_, List.all_eq_true.1 List.all_takeWhile, ?_,
        hfirst.symm, hminute⟩
      · intro hnil
        rw [hnil] at hfirst
        exact hdigits hfirst.symm
      · rw [← hletters, ← hbody, List.takeWhile_append_dropWhile]
  · rintro ⟨ds, hne, hds, rfl, hdigits, hminute⟩
    obtain ⟨d, digits, hcons⟩ : ∃ d digits, k.digits = d :: digits := by
      obtain ⟨c, ds, rfl⟩ := List.exists_cons_of_ne_nil hne
      obtain ⟨d, hd⟩ := Option.isSome_iff_exists.1 (hds c (by simp))
      exact ⟨d, ds.filterMap digitValue?, by rw [hdigits, List.filterMap_cons, hd]⟩
    rw [read?, spanDigits_letters hds, ← hdigits, hcons]
    simp [TimeUnit.read?_eq_some.2 ⟨rfl, hminute⟩, ← hcons]

/-- The digits and letters of a chunk are word characters. -/
theorem isWord_chunk {ds : List Char} (hds : ∀ c ∈ ds, isDecimalDigit c = true) (u : TimeUnit) :
    ∀ c ∈ ds ++ u.letters, isWord c = true := by
  intro c hc
  rcases List.mem_append.1 hc with hc | hc
  · exact isWord_of_isDecimalDigit (hds c hc)
  · exact u.isWord_letters c hc

/-- A chunk is read in front of whatever ends a run as it is read alone. -/
theorem Chunk.read?_append {k : Chunk} (hr : EndsRun rest) {r : List Char} :
    read? (cs ++ rest) = some (k, r) ↔ ∃ r', r = r' ++ rest ∧ read? cs = some (k, r') := by
  constructor
  · intro h
    obtain ⟨ds, hne, hds, hcs, hdigits, hminute⟩ := read?_eq_some.1 h
    rw [← List.append_assoc] at hcs
    obtain ⟨r', rfl, rfl⟩ := append_of_endsRun (isWord_chunk hds k.unit) hr hcs
    refine ⟨r', rfl, read?_eq_some.2 ⟨ds, hne, hds, List.append_assoc .., hdigits, ?_⟩⟩
    exact fun hu c hc => hminute hu c (mem_head?_append hc rest)
  · rintro ⟨r', rfl, h⟩
    obtain ⟨ds, hne, hds, rfl, hdigits, hminute⟩ := read?_eq_some.1 h
    refine read?_eq_some.2 ⟨ds, hne, hds, by simp, hdigits, fun hu c hc => ?_⟩
    cases r' with
    | nil => exact hr.ne hc (by decide)
    | cons d r' => exact hminute hu c hc

/-- A chunk of a stretch of text is a chunk of the stretch alone. -/
theorem Chunk.read?_cut {k : Chunk} {m : List Char} (h : read? (cs ++ b) = some (k, m ++ b)) :
    read? cs = some (k, m) := by
  obtain ⟨ds, hne, hds, hcs, hdigits, hminute⟩ := read?_eq_some.1 h
  refine read?_eq_some.2 ⟨ds, hne, hds, ?_, hdigits, ?_⟩
  · rw [← List.append_assoc, ← List.append_assoc] at hcs
    simpa using List.append_cancel_right hcs
  · exact fun hu c hc => hminute hu c (mem_head?_append hc b)

/-- What starts with a chunk does so whatever stands behind it. -/
theorem Chunk.read?_append_ne_none (h : read? cs ≠ none) (b : List Char) :
    read? (cs ++ b) ≠ none := by
  obtain ⟨⟨k, rest⟩, hread⟩ := Option.ne_none_iff_exists'.1 h
  obtain ⟨ds, hne, hds, rfl, hdigits, hminute⟩ := read?_eq_some.1 hread
  rw [Option.ne_none_iff_exists']
  by_cases hs : k.unit = .minute ∧ ∃ c ∈ (rest ++ b).head?, c = 's'
  · -- The letter behind the minute makes it a millisecond.
    obtain ⟨hu, _, hc, rfl⟩ := hs
    obtain ⟨more, hmore⟩ := List.head?_eq_some_iff.1 hc
    refine ⟨(⟨k.digits, .millisecond⟩, more), read?_eq_some.2 ⟨ds, hne, hds, ?_, hdigits, nofun⟩⟩
    simp [hu, hmore, TimeUnit.letters]
  · refine ⟨(k, rest ++ b), read?_eq_some.2 ⟨ds, hne, hds, by simp, hdigits, fun hu c hc hcs => ?_⟩⟩
    exact hs ⟨hu, c, hc, hcs⟩

theorem spanChunks_of_none (h : Chunk.read? cs = none) : spanChunks cs = ([], cs) := by
  rw [spanChunks]
  split
  · rfl
  · rename_i hsome
    rw [h] at hsome
    cases hsome

theorem spanChunks_of_some {k : Chunk} (h : Chunk.read? cs = some (k, rest)) :
    spanChunks cs = (k :: (spanChunks rest).1, (spanChunks rest).2) := by
  rw [spanChunks]
  split
  · rename_i hnone
    rw [h] at hnone
    cases hnone
  · rename_i k' rest' hsome
    rw [h] at hsome
    cases hsome
    rfl

/-- Some characters are a row of chunks, each of which is digits of any script and the letters of
one unit. -/
inductive SpellsChunks : List Chunk → List Char → Prop where
  | nil : SpellsChunks [] []
  | cons {k : Chunk} {ds : List Char} {ks : List Chunk} {cs : List Char} (atLeastOne : ds ≠ [])
      (digits : ∀ c ∈ ds, isDecimalDigit c = true) (amount : k.digits = ds.filterMap digitValue?)
      (others : SpellsChunks ks cs) : SpellsChunks (k :: ks) (ds ++ (k.unit.letters ++ cs))

/-- A text that spells chunks is one run. -/
theorem SpellsChunks.isWord {ks : List Chunk} (h : SpellsChunks ks cs) :
    ∀ c ∈ cs, PanelExport.isWord c = true := by
  induction h with
  | nil => nofun
  | @cons k ds ks cs _ digits _ _ ih =>
    rw [← List.append_assoc]
    exact List.forall_mem_append.2 ⟨isWord_chunk digits k.unit, ih⟩

/-- The chunks in front of a text are a row of chunks. -/
theorem spellsChunks_spanChunks (cs : List Char) :
    ∃ front, cs = front ++ (spanChunks cs).2 ∧ SpellsChunks (spanChunks cs).1 front := by
  cases hread : Chunk.read? cs with
  | none =>
    rw [spanChunks_of_none hread]
    exact ⟨[], rfl, .nil⟩
  | some p =>
    obtain ⟨k, body⟩ := p
    have hshort := Chunk.read?_length hread
    obtain ⟨ds, hne, hds, hcs, hdigits, -⟩ := Chunk.read?_eq_some.1 hread
    obtain ⟨others, hothers, hrow⟩ := spellsChunks_spanChunks body
    rw [spanChunks_of_some hread]
    refine ⟨_, ?_, .cons hne hds hdigits hrow⟩
    rw [List.append_assoc, List.append_assoc, ← hothers, hcs]
termination_by cs.length

/-- The chunks in front of a text are word characters. -/
theorem spanChunks_front (cs : List Char) :
    ∃ front, cs = front ++ (spanChunks cs).2 ∧ ∀ c ∈ front, isWord c = true := by
  obtain ⟨front, hfront, hrow⟩ := spellsChunks_spanChunks cs
  exact ⟨front, hfront, hrow.isWord⟩

theorem spanChunks_suffix (cs : List Char) : (spanChunks cs).2 <:+ cs := by
  obtain ⟨front, hfront, -⟩ := spanChunks_front cs
  exact ⟨front, hfront.symm⟩

/-- The chunks at the front of a text are the same in front of whatever ends a run. -/
theorem spanChunks_append (cs : List Char) (hr : EndsRun rest) :
    spanChunks (cs ++ rest) = ((spanChunks cs).1, (spanChunks cs).2 ++ rest) := by
  cases hread : Chunk.read? cs with
  | none =>
    have hnone : Chunk.read? (cs ++ rest) = none := by
      refine Option.eq_none_iff_forall_ne_some.2 fun p hp => ?_
      obtain ⟨r', -, hsome⟩ := (Chunk.read?_append hr).1 hp
      rw [hread] at hsome
      cases hsome
    rw [spanChunks_of_none hnone, spanChunks_of_none hread]
  | some p =>
    obtain ⟨k, body⟩ := p
    have hshort := Chunk.read?_length hread
    have hsome := (Chunk.read?_append hr).2 ⟨body, rfl, hread⟩
    rw [spanChunks_of_some hsome, spanChunks_of_some hread, spanChunks_append body hr]
termination_by cs.length

/-- The chunks of a stretch of text are the chunks of the stretch alone. -/
theorem spanChunks_cut {cs : List Char} {ks : List Chunk} {m : List Char}
    (h : spanChunks (cs ++ b) = (ks, m ++ b)) : spanChunks cs = (ks, m) := by
  cases hread : Chunk.read? (cs ++ b) with
  | none =>
    rw [spanChunks_of_none hread] at h
    obtain ⟨rfl, hm⟩ := Prod.mk.inj h
    have hnone : Chunk.read? cs = none := by
      cases hcs : Chunk.read? cs with
      | none => rfl
      | some p => exact absurd hread (Chunk.read?_append_ne_none (by simp [hcs]) b)
    rw [spanChunks_of_none hnone, List.append_cancel_right hm]
  | some p =>
    obtain ⟨k, body⟩ := p
    have hshort := Chunk.read?_length hread
    rw [spanChunks_of_some hread] at h
    obtain ⟨rfl, hrest⟩ := Prod.mk.inj h
    obtain ⟨front, hbody⟩ : m ++ b <:+ body := hrest ▸ spanChunks_suffix body
    rw [← List.append_assoc] at hbody
    subst hbody
    have hcs := Chunk.read?_cut hread
    have hlength : front.length + m.length < cs.length := by simpa using Chunk.read?_length hcs
    have hrow : spanChunks (front ++ m ++ b) = ((spanChunks (front ++ m ++ b)).1, m ++ b) :=
      Prod.ext rfl hrest
    rw [spanChunks_of_some hcs, spanChunks_cut hrow]
termination_by cs.length

/-- A row of chunks is a duration if neither a word character nor a point follows it. -/
theorem durationSize?_eq_some {n : Nat} : durationSize? cs = some n ↔
    (spanChunks cs).1 ≠ [] ∧ n + (spanChunks cs).2.length = cs.length ∧
      ∀ c ∈ (spanChunks cs).2.head?, isWord c = false ∧ c ≠ '.' := by
  have hlength := (spanChunks_suffix cs).length_le
  unfold durationSize?
  split <;> rename_i hspan <;> rw [hspan] at hlength ⊢
  · simp
  · rename_i chunks hne
    have hne : chunks ≠ [] := hne
    simp only [Option.some.injEq, ne_eq, hne, not_false_eq_true, List.length_nil, Nat.add_zero,
      true_and, List.head?_nil]
    exact ⟨fun h => ⟨h.symm, nofun⟩, fun h => h.1.symm⟩
  · rename_i chunks c rest hne
    have hne : chunks ≠ [] := hne
    simp only [List.length_cons] at hlength
    cases hc : isWord c || c == '.' with
    | true =>
      have hnot : isWord c = false → c = '.' := fun hword => by simpa [hword] using hc
      simpa [hne] using fun _ => hnot
    | false =>
      simp only [Bool.or_eq_false_iff, beq_eq_false_iff_ne] at hc
      simp [hne, hc]
      omega

/-- A row of chunks from end to end has only word characters. -/
theorem isWord_of_duration (h : durationSize? cs = some cs.length) : ∀ c ∈ cs, isWord c = true := by
  obtain ⟨front, hfront, hword⟩ := spanChunks_front cs
  have hnil : (spanChunks cs).2 = [] := by
    have := (durationSize?_eq_some.1 h).2.1
    exact List.eq_nil_of_length_eq_zero (by omega)
  rw [hnil, List.append_nil] at hfront
  rwa [hfront]

/-- The length of a duration does not depend on what ends a lexeme behind it. -/
theorem durationSize?_append (cs : List Char) (hr : EndsLexeme rest) :
    durationSize? (cs ++ rest) = durationSize? cs := by
  refine Option.ext fun n => ?_
  rw [durationSize?_eq_some, durationSize?_eq_some, spanChunks_append cs hr.endsRun]
  refine and_congr_right fun _ => and_congr ?_ ?_
  · simp only [List.length_append]
    omega
  · cases (spanChunks cs).2 with
    | cons c m => rfl
    | nil =>
      exact ⟨fun _ => nofun, fun _ c hc => ⟨(hr c hc).word, (hr c hc).ne (by decide)⟩⟩

theorem read?_ne_none_of_duration {n : Nat} (h : durationSize? cs = some n) :
    Chunk.read? cs ≠ none := by
  intro hnone
  have hne := (durationSize?_eq_some.1 h).1
  rw [spanChunks_of_none hnone] at hne
  exact hne rfl

/-- No duration is empty. -/
theorem durationSize?_pos {n : Nat} (h : durationSize? cs = some n) : 0 < n := by
  obtain ⟨⟨k, rest⟩, hread⟩ := Option.ne_none_iff_exists'.1 (read?_ne_none_of_duration h)
  have hshort := Chunk.read?_length hread
  have hrest := (spanChunks_suffix rest).length_le
  have hlength := (durationSize?_eq_some.1 h).2.1
  rw [spanChunks_of_some hread] at hlength
  simp only at hlength
  omega

/-- A duration in a stretch of text is a duration of the stretch alone. -/
theorem durationSize?_cut {n : Nat} (h : durationSize? (cs ++ b) = some n) (hn : n ≤ cs.length) :
    durationSize? cs = some n := by
  obtain ⟨hne, hlength, hhead⟩ := durationSize?_eq_some.1 h
  have hsuffix := spanChunks_suffix (cs ++ b)
  generalize hspan : spanChunks (cs ++ b) = p at *
  obtain ⟨ks, r⟩ := p
  simp only [List.length_append] at hlength
  obtain ⟨m, rfl⟩ : b <:+ r :=
    List.suffix_of_suffix_length_le (List.suffix_append cs b) hsuffix (by omega)
  simp only [List.length_append] at hlength
  rw [durationSize?_eq_some, spanChunks_cut hspan]
  refine ⟨hne, ?_, fun c hc => hhead c (mem_head?_append hc b)⟩
  simp only
  omega

/-- What starts no duration starts none alone, unless it is a row of chunks from end to end. -/
theorem durationSize?_cut_none (h : durationSize? (cs ++ b) = none)
    (hwhole : durationSize? cs ≠ some cs.length) : durationSize? cs = none := by
  refine Option.eq_none_iff_forall_ne_some.2 fun n hn => ?_
  obtain ⟨hne, hlength, hhead⟩ := durationSize?_eq_some.1 hn
  obtain ⟨front, hfront⟩ := spanChunks_suffix cs
  cases hm : (spanChunks cs).2 with
  | nil => exact hwhole (durationSize?_eq_some.2 ⟨hne, by simp [hm], by simp [hm]⟩)
  | cons c m =>
    -- Behind the chunks stands a character that ends them, whatever stands further behind.
    rw [hm] at hfront hlength hhead
    have hc := hhead c rfl
    have hcs : spanChunks front = ((spanChunks cs).1, []) := by
      refine spanChunks_cut (b := c :: m) (Prod.ext ?_ ?_) <;> simp [hfront, hm]
    have hspan := spanChunks_append front (endsRun_cons hc.1 (m ++ b))
    rw [hcs] at hspan
    have hsize : durationSize? (cs ++ b) = some n := by
      rw [← hfront, List.append_assoc, List.cons_append, durationSize?_eq_some, hspan]
      refine ⟨hne, ?_, fun d hd => ?_⟩
      · rw [← hfront] at hlength
        simp only [List.length_append, List.length_cons, List.nil_append] at hlength ⊢
        omega
      · cases hd
        exact hc
    rw [hsize] at h
    cases h

/-! ## Numbers -/

/-- A length that is found by looking at the front of a text: what stands behind a lexeme adds
nothing to it, and what ends before a cut ends there. -/
structure Measures (size : List Char → Nat) : Prop where
  le : ∀ cs, size cs ≤ cs.length
  append : ∀ cs {rest}, EndsLexeme rest → size (cs ++ rest) = size cs
  cut : ∀ {cs b}, size (cs ++ b) ≤ cs.length → size (cs ++ b) = size cs

/-- The length of a run is measured alike in front of whatever breaks a lexeme. -/
theorem Measures.run {p : Char → Bool} (hp : ∀ c, Breaks c → p c = false) :
    Measures (runLength p) where
  le := runLength_le p
  append cs _ hr := runLength_append cs fun c hc => hp c (hr c hc)
  cut := runLength_cut

/-- One length behind another, which may depend on the first. -/
theorem Measures.behind {first : List Char → Nat} {second : Nat → List Char → Nat}
    (hf : Measures first) (hs : ∀ n, Measures (second n)) :
    Measures fun cs => first cs + second (first cs) (cs.drop (first cs)) where
  le cs := by
    have h₁ := hf.le cs
    have h₂ := (hs (first cs)).le (cs.drop (first cs))
    rw [List.length_drop] at h₂
    omega
  append cs rest hr := by
    simp only [hf.append cs hr, List.drop_append_of_le_length (hf.le cs), (hs _).append _ hr]
  cut {cs b} h := by
    have hfirst := hf.cut (Nat.le_trans (Nat.le_add_right _ _) h)
    simp only [hfirst, List.drop_append_of_le_length (hf.le cs)] at h ⊢
    rw [(hs _).cut]
    rw [List.length_drop]
    omega

theorem Breaks.isDecimalDigit {c : Char} (h : Breaks c) : isDecimalDigit c = false :=
  EndsRun.isDecimalDigit (endsRun_cons h.word []) rfl

theorem measures_digits : Measures (runLength isDecimalDigit) :=
  .run fun _ h => h.isDecimalDigit

/-- The length of the point and of the digits behind it. -/
def fractionSize (whole : Nat) : List Char → Nat
  | '.' :: rest =>
    let digits := runLength isDecimalDigit rest
    if whole = 0 ∧ digits = 0 then 0 else digits + 1
  | _ => 0

theorem fractionSize_cons {c : Char} (hc : c ≠ '.') (whole : Nat) (cs : List Char) :
    fractionSize whole (c :: cs) = 0 := by
  unfold fractionSize
  split
  · rename_i h
    exact absurd (List.cons.inj h).1 hc
  · rfl

/-- What ends a lexeme is no fraction. -/
theorem fractionSize_of_endsLexeme (hr : EndsLexeme rest) (whole : Nat) :
    fractionSize whole rest = 0 := by
  cases rest with
  | nil => rfl
  | cons c rest =>
    exact fractionSize_cons ((hr c rfl).ne (by decide)) whole rest

theorem measures_fraction (whole : Nat) : Measures (fractionSize whole) where
  le cs := by
    unfold fractionSize
    split
    · rename_i rest
      have := runLength_le isDecimalDigit rest
      simp only [List.length_cons]
      split <;> omega
    · exact Nat.zero_le _
  append cs rest hr := by
    cases cs with
    | nil => exact fractionSize_of_endsLexeme hr whole
    | cons c cs =>
      by_cases hc : c = '.'
      · subst hc
        simp only [List.cons_append, fractionSize, measures_digits.append cs hr]
      · rw [List.cons_append, fractionSize_cons hc, fractionSize_cons hc]
  cut {cs b} h := by
    cases cs with
    | nil => exact Nat.le_zero.1 h
    | cons c cs =>
      by_cases hc : c = '.'
      · subst hc
        simp only [List.cons_append, fractionSize, List.length_cons] at h ⊢
        have hdigits : runLength isDecimalDigit (cs ++ b) = runLength isDecimalDigit cs := by
          apply runLength_cut
          split at h <;> omega
        rw [hdigits]
      · rw [List.cons_append, fractionSize_cons hc, fractionSize_cons hc]

/-- The length of a sign. -/
def signSize : List Char → Nat
  | '+' :: _ => 1
  | '-' :: _ => 1
  | _ => 0

theorem signSize_cons {c : Char} (hp : c ≠ '+') (hm : c ≠ '-') (cs : List Char) :
    signSize (c :: cs) = 0 := by
  unfold signSize
  split <;> simp_all

/-- What ends a lexeme is no sign. -/
theorem signSize_of_endsLexeme (hr : EndsLexeme rest) : signSize rest = 0 := by
  cases rest with
  | nil => rfl
  | cons c rest =>
    exact signSize_cons ((hr c rfl).ne (by decide)) ((hr c rfl).ne (by decide)) rest

theorem signSize_append_cons (c : Char) (cs b : List Char) :
    signSize (c :: cs ++ b) = signSize (c :: cs) := by
  by_cases hp : c = '+'
  · subst hp
    rfl
  · by_cases hm : c = '-'
    · subst hm
      rfl
    · rw [List.cons_append, signSize_cons hp hm, signSize_cons hp hm]

theorem signSize_le (cs : List Char) : signSize cs ≤ cs.length := by
  unfold signSize
  split <;> simp

theorem measures_sign : Measures signSize where
  le := signSize_le
  append cs rest hr := by
    cases cs with
    | nil => exact signSize_of_endsLexeme hr
    | cons c cs => exact signSize_append_cons c cs rest
  cut {cs b} h := by
    cases cs with
    | nil => exact Nat.le_zero.1 h
    | cons c cs => exact signSize_append_cons c cs b

/-- A power of ten counts only if it has digits; without them its mark is left out too. -/
theorem powerSize_cons {c : Char} (hc : c = 'e' ∨ c = 'E') (cs : List Char) :
    powerSize isDecimalDigit (c :: cs) =
      if runLength isDecimalDigit (cs.drop (signSize cs)) = 0 then 0
      else 1 + (signSize cs + runLength isDecimalDigit (cs.drop (signSize cs))) := by
  rw [← Nat.add_assoc]
  exact if_pos hc

/-- Without a mark there is no power of ten. -/
theorem powerSize_cons_of_not {c : Char} (hc : ¬(c = 'e' ∨ c = 'E')) (cs : List Char) :
    powerSize isDecimalDigit (c :: cs) = 0 :=
  if_neg hc

theorem measures_power : Measures (powerSize isDecimalDigit) where
  le cs := by
    cases cs with
    | nil => exact Nat.le_refl 0
    | cons c cs =>
      by_cases hc : c = 'e' ∨ c = 'E'
      · have := (measures_sign.behind fun _ => measures_digits).le cs
        rw [powerSize_cons hc, List.length_cons]
        split <;> omega
      · rw [powerSize_cons_of_not hc]
        exact Nat.zero_le _
  append cs rest hr := by
    cases cs with
    | nil =>
      cases rest with
      | nil => rfl
      | cons c rest =>
        refine powerSize_cons_of_not ?_ rest
        have hword : ∀ d ∈ ['e', 'E'], isWord d = true := List.all_eq_true.1 (by decide +kernel)
        rintro (rfl | rfl) <;> exact hr.endsRun.ne rfl (hword _ (by decide)) rfl
    | cons c cs =>
      by_cases hc : c = 'e' ∨ c = 'E'
      · rw [List.cons_append, powerSize_cons hc, powerSize_cons hc, measures_sign.append cs hr,
          List.drop_append_of_le_length (signSize_le cs), measures_digits.append _ hr]
      · rw [List.cons_append, powerSize_cons_of_not hc, powerSize_cons_of_not hc]
  cut {cs b} h := by
    cases cs with
    | nil => exact Nat.le_zero.1 h
    | cons c cs =>
      by_cases hc : c = 'e' ∨ c = 'E'
      · rw [List.cons_append, powerSize_cons hc] at h ⊢
        rw [powerSize_cons hc]
        cases cs with
        | nil =>
          -- Behind the letter alone there is no power.
          rw [List.nil_append] at h ⊢
          split at h
          · rename_i hnone
            rw [if_pos hnone]
            rfl
          · simp only [List.length_singleton] at h
            omega
        | cons d cs =>
          have hsign := signSize_append_cons d cs b
          rw [hsign, List.drop_append_of_le_length (signSize_le _)] at h ⊢
          have hdigits : runLength isDecimalDigit ((d :: cs).drop (signSize (d :: cs)) ++ b) =
              runLength isDecimalDigit ((d :: cs).drop (signSize (d :: cs))) := by
            apply runLength_cut
            rw [List.length_drop]
            simp only [List.length_cons] at h ⊢
            split at h <;> omega
          rw [hdigits]
      · rw [List.cons_append, powerSize_cons_of_not hc, powerSize_cons_of_not hc]

theorem measures_zero : Measures fun _ => 0 where
  le _ := Nat.zero_le _
  append _ _ _ := rfl
  cut _ := rfl

/-- The length of a decimal number, zero if there is none. -/
def decimalLength (cs : List Char) : Nat :=
  let size := runLength isDecimalDigit cs +
    fractionSize (runLength isDecimalDigit cs) (cs.drop (runLength isDecimalDigit cs))
  size + if size = 0 then 0 else powerSize isDecimalDigit (cs.drop size)

theorem measures_decimal : Measures decimalLength := by
  have hpower : ∀ size, Measures fun cs => if size = 0 then 0 else powerSize isDecimalDigit cs := by
    intro size
    by_cases hsize : size = 0
    · simpa only [hsize, if_true] using measures_zero
    · simpa only [hsize, if_false] using measures_power
  exact (measures_digits.behind measures_fraction).behind hpower

/-- A decimal number is a number unless it is empty. -/
theorem decimalSize?_eq (cs : List Char) : numberSize?.decimalSize? cs =
    if decimalLength cs = 0 then none else some (decimalLength cs) := by
  have hsizes : numberSize?.decimalSize? cs =
      let size := runLength isDecimalDigit cs +
        fractionSize (runLength isDecimalDigit cs) (cs.drop (runLength isDecimalDigit cs))
      if size = 0 then none else some (size + powerSize isDecimalDigit (cs.drop size)) := rfl
  rw [hsizes, decimalLength]
  dsimp only
  split
  · rename_i hsize
    rw [if_pos (by omega)]
  · rename_i hsize
    rw [if_neg (by omega)]

/-- The letters that make a zero the front of a hexadecimal number. -/
def IsHexMark (c : Char) : Prop := c = 'x' ∨ c = 'X'

/-- Behind a zero and its mark a hexadecimal number is measured. -/
theorem numberSize?_hex {c : Char} (hc : IsHexMark c) (cs : List Char) :
    numberSize? ('0' :: c :: cs) = some (numberSize?.hexSize cs) := by
  rcases hc with rfl | rfl <;> rfl

/-- Where no hexadecimal number starts, a decimal one is measured. -/
theorem numberSize?_decimal (h : ∀ c r, IsHexMark c → cs ≠ '0' :: c :: r) :
    numberSize? cs = if decimalLength cs = 0 then none else some (decimalLength cs) := by
  rw [← decimalSize?_eq]
  unfold numberSize?
  split
  · exact absurd rfl (h _ _ (.inl rfl))
  · exact absurd rfl (h _ _ (.inr rfl))
  · rfl

theorem hexSize_eq (cs : List Char) : numberSize?.hexSize cs =
    if runLength (fun c => (hexValue? c).isSome) cs = 0 then 1
    else runLength (fun c => (hexValue? c).isSome) cs + 2 := rfl

theorem measures_hex : Measures (runLength fun c => (hexValue? c).isSome) :=
  .run fun c hc => by
    cases hhex : (hexValue? c).isSome with
    | false => rfl
    | true =>
      have hword := isWord_of_isAlphanum (isAlphanum_of_hexValue? hhex)
      rw [hc.word] at hword
      cases hword

/-- The length of a number does not depend on what ends a lexeme behind it. -/
theorem numberSize?_append (cs : List Char) (hr : EndsLexeme rest) :
    numberSize? (cs ++ rest) = numberSize? cs := by
  by_cases h : ∃ c r, IsHexMark c ∧ cs = '0' :: c :: r
  · obtain ⟨c, r, hc, rfl⟩ := h
    rw [List.cons_append, List.cons_append, numberSize?_hex hc, numberSize?_hex hc]
    rw [hexSize_eq, hexSize_eq, measures_hex.append r hr]
  · have hword : ∀ c, IsHexMark c → ∀ d ∈ ['0', c], isWord d = true := by
      rintro c (rfl | rfl) <;> exact List.all_eq_true.1 (by decide +kernel)
    rw [numberSize?_decimal, numberSize?_decimal, measures_decimal.append cs hr]
    · exact fun c r hc hcs => h ⟨c, r, hc, hcs⟩
    · intro c r hc hcs
      obtain ⟨r', rfl, -⟩ := append_of_endsRun (hword c hc) hr.endsRun hcs
      exact h ⟨c, r', hc, rfl⟩

/-- A number in a stretch of text is a number of the stretch alone. -/
theorem numberSize?_cut {n : Nat} (h : numberSize? (cs ++ b) = some n) (hn : n ≤ cs.length) :
    numberSize? cs = some n := by
  by_cases hhex : ∃ c r, IsHexMark c ∧ cs ++ b = '0' :: c :: r
  · obtain ⟨c, r, hc, hcs⟩ := hhex
    rw [hcs, numberSize?_hex hc, Option.some.injEq, hexSize_eq] at h
    match cs with
    | [] =>
      rw [List.length_nil] at hn
      split at h <;> omega
    | [d] =>
      obtain ⟨rfl, rfl⟩ := List.cons.inj hcs
      obtain rfl : n = 1 := by
        rw [List.length_singleton] at hn
        split at h <;> omega
      rfl
    | d :: d' :: cs =>
      simp only [List.cons_append, List.cons.injEq] at hcs
      obtain ⟨rfl, rfl, rfl⟩ := hcs
      rw [numberSize?_hex hc, hexSize_eq, ← h, measures_hex.cut]
      simp only [List.length_cons] at hn
      split at h <;> omega
  · rw [numberSize?_decimal fun c r hc hcs => hhex ⟨c, r, hc, hcs⟩] at h
    split at h
    · cases h
    · rename_i hpos
      cases h
      rw [measures_decimal.cut hn] at hpos ⊢
      rw [numberSize?_decimal, if_neg hpos]
      rintro c r hc rfl
      exact hhex ⟨c, r ++ b, hc, rfl⟩

/-- Where no number stands, none stands in the front part either. -/
theorem numberSize?_cut_none (h : numberSize? (cs ++ b) = none) : numberSize? cs = none := by
  have hhex : ∀ c r, IsHexMark c → cs ++ b ≠ '0' :: c :: r := by
    intro c r hc hcs
    rw [hcs, numberSize?_hex hc] at h
    cases h
  have hzero : decimalLength (cs ++ b) = 0 := by
    rw [numberSize?_decimal hhex] at h
    split at h
    · assumption
    · cases h
  rw [measures_decimal.cut (by omega)] at hzero
  rw [numberSize?_decimal, if_pos hzero]
  rintro c r hc rfl
  exact hhex c (r ++ b) hc rfl

theorem numberSize?_pos {n : Nat} (h : numberSize? cs = some n) : 0 < n := by
  by_cases hhex : ∃ c r, IsHexMark c ∧ cs = '0' :: c :: r
  · obtain ⟨c, r, hc, rfl⟩ := hhex
    rw [numberSize?_hex hc, Option.some.injEq, hexSize_eq] at h
    split at h <;> omega
  · rw [numberSize?_decimal fun c r hc hcs => hhex ⟨c, r, hc, hcs⟩] at h
    split at h
    · cases h
    · cases h
      omega

/-- A number is no longer than the text that it is measured in. -/
theorem numberSize?_le {n : Nat} (h : numberSize? cs = some n) : n ≤ cs.length := by
  by_cases hhex : ∃ c r, IsHexMark c ∧ cs = '0' :: c :: r
  · obtain ⟨c, r, hc, rfl⟩ := hhex
    have := measures_hex.le r
    rw [numberSize?_hex hc, Option.some.injEq, hexSize_eq] at h
    simp only [List.length_cons]
    split at h <;> omega
  · rw [numberSize?_decimal fun c r hc hcs => hhex ⟨c, r, hc, hcs⟩] at h
    split at h
    · cases h
    · cases h
      exact measures_decimal.le cs

/-- A number ends before the unit behind its digits. -/
theorem numberSize?_lt {n : Nat} (hchunk : Chunk.read? cs ≠ none) (h : numberSize? cs = some n) :
    n < cs.length := by
  obtain ⟨⟨k, rest⟩, hread⟩ := Option.ne_none_iff_exists'.1 hchunk
  obtain ⟨ds, hne, hds, rfl, -, -⟩ := Chunk.read?_eq_some.1 hread
  obtain ⟨u, letters, hletters, hu, hmarks⟩ := k.unit.letters_first
  rw [hletters, List.cons_append] at h ⊢
  have hpoint : u ≠ '.' := by
    rintro rfl
    exact hmarks (by decide)
  have hpower : ¬(u = 'e' ∨ u = 'E') := by
    rintro (rfl | rfl) <;> exact hmarks (by decide)
  have hhex : ∀ c r, IsHexMark c → ds ++ u :: (letters ++ rest) ≠ '0' :: c :: r := by
    intro c r hc hcs
    match ds with
    | [d] =>
      obtain ⟨-, hcs⟩ := List.cons.inj hcs
      obtain ⟨rfl, -⟩ := List.cons.inj hcs
      rcases hc with rfl | rfl <;> exact hmarks (by decide)
    | d :: d' :: ds =>
      obtain ⟨-, hcs⟩ := List.cons.inj hcs
      obtain ⟨rfl, -⟩ := List.cons.inj hcs
      have hd := hds d' (by simp)
      rcases hc with rfl | rfl <;> exact absurd hd (by decide)
  have hwhole : runLength isDecimalDigit (ds ++ u :: (letters ++ rest)) = ds.length := by
    rw [runLength, List.takeWhile_append_of_pos hds]
    simp [hu]
  have hlength : decimalLength (ds ++ u :: (letters ++ rest)) = ds.length := by
    have hpos : ds.length ≠ 0 := by simpa using hne
    simp only [decimalLength, hwhole, List.drop_left, fractionSize_cons hpoint, Nat.add_zero, hpos,
      if_false, powerSize_cons_of_not hpower]
  rw [numberSize?_decimal hhex, hlength] at h
  split at h
  · cases h
  · cases h
    simp

end PanelExport.Query
