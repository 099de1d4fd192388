import PanelExport.Document.Writer
import PanelExport.Proofs.Document.Grammar

/-!
# Documents that are written

Whatever a spelling leaves open, a written document is a text of the document, as long as it says no
doubles and holds no name twice.

* `spelled_write`: what is written is spelled.
* `mem_write`: which characters a written document is made of.
-/

namespace PanelExport.Document

variable {α : Type} {f : Format}

/-! ## Names -/

theorem foldl_put_append {α : Type} {done es : List (String × α)}
    (h : ((done ++ es).map Prod.fst).Nodup) :
    es.foldl (fun es e => put e.1 e.2 es) done = done ++ es := by
  induction es generalizing done with
  | nil => rw [List.foldl_nil, List.append_nil]
  | cons e es ih =>
    obtain ⟨name, value⟩ := e
    have hnew : done.lookup name = none := by
      rw [List.lookup_eq_none_iff]
      intro p hp
      rw [List.map_append, List.map_cons, List.nodup_append] at h
      have hne := h.2.2 p.1 (List.mem_map_of_mem hp) name (List.mem_cons_self ..)
      simpa using hne.symm
    rw [List.foldl_cons, put_new hnew, ih (by simpa using h), List.append_assoc]
    rfl

/-- Entries with different names are those of an object. -/
theorem ofEntries_of_nodup {es : List (String × α)} (h : (es.map Prod.fst).Nodup) :
    ofEntries es = es :=
  foldl_put_append h

/-! ## Numbers -/

theorem isWhole_toDigits (n : Nat) : IsWhole (Nat.toDigits 10 n) := by
  refine ⟨⟨Nat.toDigits_ne_nil, fun _ hc => Nat.isDigit_of_mem_toDigits (by decide) (by decide) hc⟩,
    ?_⟩
  induction n using Nat.strongRecOn with
  | ind n ih =>
    intro hhead
    by_cases hn : n < 10
    · rw [Nat.toDigits_of_lt_base hn] at hhead ⊢
      exact congrArg ([·]) (Option.some.inj hhead)
    · have hfirst : (Nat.toDigits 10 (n / 10)).head? = some '0' := by
        obtain ⟨c, cs, hc⟩ := List.exists_cons_of_ne_nil (Nat.toDigits_ne_nil (b := 10) (n := n / 10))
        rw [Nat.toDigits_of_base_le (by decide) (Nat.le_of_not_lt hn), hc] at hhead
        rw [hc]
        exact hhead
      have hvalue := Nat.ofDigitChars_toDigits (b := 10) (n := n / 10) (by decide) (by decide)
      rw [ih (n / 10) (by omega) hfirst] at hvalue
      have : n / 10 = 0 := hvalue.symm
      omega

/-- The text of a whole number is one. -/
theorem isNumber_toString (n : Int)
    (hlimit : ∀ limit, f.digits? = some limit → (Nat.toDigits 10 n.natAbs).length ≤ limit) :
    IsNumber f (.int n) (toString n).toList := by
  cases n with
  | ofNat n =>
    have htext : (toString (Int.ofNat n)).toList = signText false ++ Nat.toDigits 10 n :=
      Nat.toList_repr
    have h := IsNumber.whole false (isWhole_toDigits n) hlimit
    rw [Nat.ofDigitChars_toDigits (by decide) (by decide)] at h
    rw [htext]
    exact h
  | negSucc n =>
    have htext : (toString (Int.negSucc n)).toList = signText true ++ Nat.toDigits 10 (n + 1) := by
      change ("-" ++ Nat.repr (n + 1)).toList = _
      rw [String.toList_append, Nat.toList_repr]
      rfl
    have h := IsNumber.whole true (isWhole_toDigits (n + 1)) hlimit
    rw [Nat.ofDigitChars_toDigits (by decide) (by decide)] at h
    rw [htext]
    exact h

/-! ## Characters -/

/-- A number of sixteen bits has four hexadecimal digits. -/
theorem hexPadded_four {n : Nat} (h : n < 0x10000) :
    hexPadded 4 n = [Nat.digitChar (n / 16 / 16 / 16), Nat.digitChar (n / 16 / 16 % 16),
      Nat.digitChar (n / 16 % 16), Nat.digitChar (n % 16)] := by
  have hlast : ∀ {m}, m < 16 → Nat.toDigits 16 m = [Nat.digitChar m] := Nat.toDigits_of_lt_base
  have hmore : ∀ {m}, ¬ m < 16 → Nat.toDigits 16 m =
      Nat.toDigits 16 (m / 16) ++ [Nat.digitChar (m % 16)] :=
    fun h => Nat.toDigits_of_base_le (by decide) (Nat.le_of_not_lt h)
  unfold hexPadded
  by_cases h1 : n < 16
  · rw [hlast h1, Nat.mod_eq_of_lt h1, Nat.div_eq_of_lt h1]
    rfl
  rw [hmore h1]
  by_cases h2 : n / 16 < 16
  · rw [hlast h2, Nat.mod_eq_of_lt h2, Nat.div_eq_of_lt h2]
    rfl
  rw [hmore h2]
  by_cases h3 : n / 16 / 16 < 16
  · rw [hlast h3, Nat.mod_eq_of_lt h3, Nat.div_eq_of_lt h3]
    rfl
  rw [hmore h3, hlast (by omega)]
  rfl

theorem hexValue?_digitChar {n : Nat} (h : n < 16) : hexValue? (Nat.digitChar n) = some n := by
  have hall : ∀ n : Fin 16, hexValue? (Nat.digitChar n) = some n.val := by decide
  exact hall ⟨n, h⟩

theorem isQuad_hexPadded {n : Nat} (h : n < 0x10000) : IsQuad n (hexPadded 4 n) := by
  rw [hexPadded_four h, IsQuad, hexQuad?, hexValue?_digitChar (by omega),
    hexValue?_digitChar (by omega), hexValue?_digitChar (by omega), hexValue?_digitChar (by omega)]
  simp only [ofDigits, List.foldl_cons, List.foldl_nil, Option.some.injEq, Prod.mk.injEq, and_true]
  omega

/-- A character is spelled by its number, in front of whatever follows it. -/
theorem IsChars.numberedChar {cs text : List Char} (h : IsChars f cs text) (c : Char) :
    IsChars f (c :: cs) (numberedChar c ++ text) := by
  have hvalid : c.toNat < 0xD800 ∨ 0xDFFF < c.toNat ∧ c.toNat < 0x110000 := c.valid
  unfold Document.numberedChar
  split
  · rename_i hc
    have hhalf : isHalf c.toNat = false := by
      simp only [isHalf, isHighHalf, isLowHalf, Bool.or_eq_false_iff, Bool.and_eq_false_iff,
        decide_eq_false_iff_not]
      omega
    have hchars := IsChars.unit (isQuad_hexPadded hc) hhalf h
    rwa [Char.ofNat_toNat] at hchars
  · rename_i hc
    have hhigh : isHighHalf (0xD800 + (c.toNat - 0x10000) / 0x400) = true := by
      simp only [isHighHalf, Bool.and_eq_true, decide_eq_true_eq]
      omega
    have hlow : isLowHalf (0xDC00 + (c.toNat - 0x10000) % 0x400) = true := by
      simp only [isLowHalf, Bool.and_eq_true, decide_eq_true_eq]
      omega
    have hcode : joinedNumber (0xD800 + (c.toNat - 0x10000) / 0x400)
        (0xDC00 + (c.toNat - 0x10000) % 0x400) = c.toNat := by
      unfold joinedNumber
      omega
    have hjoin : joinHalves (0xD800 + (c.toNat - 0x10000) / 0x400)
        (0xDC00 + (c.toNat - 0x10000) % 0x400) = c := by
      rw [joinHalves, hcode, Char.ofNat_toNat]
    have hchars := IsChars.pair (isQuad_hexPadded (by omega)) (isQuad_hexPadded (by omega)) hhigh
      hlow h
    rw [hjoin] at hchars
    simp only [List.append_assoc]
    exact hchars

section

variable {plain : Char → Bool} (hplain : ∀ c, plain c = true → 0x20 ≤ c.toNat)

include hplain

/-- A character is spelled in front of whatever follows it. -/
theorem IsChars.spellChar {cs text : List Char} (h : IsChars f cs text) (c : Char) :
    IsChars f (c :: cs) (spellChar plain c ++ text) := by
  unfold Document.spellChar
  split
  · rename_i hc
    rw [Bool.or_eq_true, beq_iff_eq, beq_iff_eq] at hc
    rcases hc with rfl | rfl
    · exact .letter rfl h
    · exact .letter rfl h
  rename_i hmarks
  rw [Bool.or_eq_true, beq_iff_eq, beq_iff_eq, not_or] at hmarks
  split
  · rename_i hc
    exact .letter (beq_iff_eq.1 hc ▸ rfl) h
  split
  · rename_i hc
    exact .letter (beq_iff_eq.1 hc ▸ rfl) h
  split
  · rename_i hc
    exact .letter (beq_iff_eq.1 hc ▸ rfl) h
  split
  · rename_i hc
    exact .letter (beq_iff_eq.1 hc ▸ rfl) h
  split
  · rename_i hc
    exact .letter (beq_iff_eq.1 hc ▸ rfl) h
  split
  · rename_i hc
    exact .plain (hplain c hc) hmarks.1 hmarks.2 h
  · exact h.numberedChar c

/-- A text is spelled between quotes. -/
theorem isQuoted_spellText (s : String) : IsQuoted f s (spellText plain s).toList := by
  have hchars : ∀ cs, IsChars f cs (cs.flatMap (Document.spellChar plain)) := by
    intro cs
    induction cs with
    | nil => exact .nil
    | cons c cs ih =>
      rw [List.flatMap_cons]
      exact ih.spellChar hplain c
  have h := IsQuoted.quoted (hchars s.toList)
  rw [String.ofList_toList] at h
  rw [spellText, String.toList_ofList]
  exact h

end

/-! ## Lists and objects -/

/-- A separator is a mark with blanks around it. -/
def IsSeparator (mark : Char) (separator : String) : Prop :=
  ∃ v w, IsBlanks v ∧ IsBlanks w ∧ separator.toList = v ++ mark :: w

/-- What a spelling leaves open is filled in as the format has it. -/
structure IsStandard (sp : Spelling) : Prop where
  item : IsSeparator ',' sp.itemSeparator
  name : IsSeparator ':' sp.nameSeparator
  plain : ∀ c, sp.plain c = true → 0x20 ≤ c.toNat

/-- A document without doubles, with short enough numbers and each name once, in which at most
`depth` lists and objects stand within one another. -/
inductive Writable (f : Format) : Nat → Document → Prop
  | null {depth : Nat} : Writable f depth .null
  | bool {depth : Nat} (b : Bool) : Writable f depth (.bool b)
  | int {depth : Nat} {n : Int}
    (hlimit : ∀ limit, f.digits? = some limit → (Nat.toDigits 10 n.natAbs).length ≤ limit) :
    Writable f depth (.int n)
  | text {depth : Nat} (s : String) : Writable f depth (.text s)
  | list {depth : Nat} {ds : List Document} (h : ∀ d ∈ ds, Writable f depth d) :
    Writable f (depth + 1) (.list ds)
  | object {depth : Nat} {es : List (String × Document)} (h : ∀ e ∈ es, Writable f depth e.2)
    (hnames : (es.map Prod.fst).Nodup) : Writable f (depth + 1) (.object es)

theorem writeItems_eq (sp : Spelling) (ds : List Document) :
    writeItems sp ds = ds.map (write sp) := by
  induction ds with
  | nil => rw [writeItems, List.map_nil]
  | cons d ds ih => rw [writeItems, List.map_cons, ih]

/-- A name with its value as it is written. -/
def writeEntry (sp : Spelling) (e : String × Document) : String :=
  spellText sp.plain e.1 ++ sp.nameSeparator ++ write sp e.2

theorem writeEntries_eq (sp : Spelling) (es : List (String × Document)) :
    writeEntries sp es = es.map (writeEntry sp) := by
  induction es with
  | nil => rw [writeEntries, List.map_nil]
  | cons e es ih => rw [writeEntries, List.map_cons, ih, writeEntry]

theorem IsRow.blanks {item : α → List Char → Prop} {as : List α} {text w : List Char}
    (hw : IsBlanks w) (h : IsRow item as text) : IsRow item as (w ++ text) := by
  cases h with
  | one hv ha hw' =>
    rw [← List.append_assoc]
    exact .one (List.forall_mem_append.2 ⟨hw, hv⟩) ha hw'
  | more hv ha hw' h =>
    rw [← List.append_assoc]
    exact .more (List.forall_mem_append.2 ⟨hw, hv⟩) ha hw' h

/-- Items with a separator between them make a row. -/
theorem isRow_intercalate {item : α → List Char → Prop} {separator : String} {text : α → String}
    (hs : IsSeparator ',' separator) {a : α} {as : List α}
    (h : ∀ b ∈ a :: as, item b (text b).toList) :
    IsRow item (a :: as) (separator.intercalate ((a :: as).map text)).toList := by
  obtain ⟨v, w, hv, hw, hseparator⟩ := hs
  induction as generalizing a with
  | nil =>
    have hrow := IsRow.one (v := []) (w := []) nofun (h a (List.mem_cons_self ..)) nofun
    rwa [List.nil_append, List.append_nil] at hrow
  | cons b as ih =>
    obtain ⟨ha, hbs⟩ := List.forall_mem_cons.1 h
    have hrow := IsRow.more (v := []) nofun ha hv ((ih hbs).blanks hw)
    rw [List.map_cons, List.map_cons, String.intercalate_cons_cons, String.toList_append,
      String.toList_append, hseparator, List.append_assoc, List.append_assoc]
    exact hrow

/-- Items with a separator between them stand between brackets, whether there are any or not. -/
theorem isBracketed_intercalate {item : α → List Char → Prop} {separator : String}
    {text : α → String} (hs : IsSeparator ',' separator) {as : List α}
    (h : ∀ a ∈ as, item a (text a).toList) :
    IsBracketed item as (separator.intercalate (as.map text)).toList := by
  cases as with
  | nil => exact .none nofun
  | cons a as => exact .row (isRow_intercalate hs h)

variable {sp : Spelling}

theorem toList_write_list (sp : Spelling) (ds : List Document) :
    (write sp (.list ds)).toList =
      '[' :: ((sp.itemSeparator.intercalate (ds.map (write sp))).toList ++ [']']) := by
  rw [write, writeItems_eq, String.toList_append, String.toList_append]
  rfl

theorem toList_write_object (sp : Spelling) (es : List (String × Document)) :
    (write sp (.object es)).toList =
      '\x7b' :: ((sp.itemSeparator.intercalate (es.map (writeEntry sp))).toList ++ ['\x7d']) := by
  rw [write, writeEntries_eq, String.toList_append, String.toList_append]
  rfl

theorem isMember_writeEntry (hsp : IsStandard sp) {item : Document → List Char → Prop}
    {e : String × Document} (h : item e.2 (write sp e.2).toList) :
    IsMember f item e (writeEntry sp e).toList := by
  obtain ⟨v, w, hv, hw, hname⟩ := hsp.name
  have hmember := IsMember.member (f := f) (isQuoted_spellText hsp.plain e.1) hv hw h
  rw [writeEntry, String.toList_append, String.toList_append, hname, List.append_assoc,
    List.append_assoc]
  exact hmember

/-- What is written is spelled, in whatever spelling and format. -/
theorem spelled_write (hsp : IsStandard sp) {depth : Nat} {d : Document}
    (h : Writable f depth d) : Spelled f depth d (write sp d).toList := by
  induction h with
  | null =>
    rw [write]
    exact IsLeaf.null.spelled _
  | bool b =>
    cases b with
    | true =>
      rw [write]
      exact IsLeaf.true.spelled _
    | false =>
      rw [write]
      exact IsLeaf.false.spelled _
  | int hlimit =>
    rw [write]
    exact (IsLeaf.number (isNumber_toString _ hlimit)).spelled _
  | text s =>
    rw [write]
    exact (IsLeaf.text (isQuoted_spellText hsp.plain s)).spelled _
  | list _ ih =>
    rw [toList_write_list]
    exact .inr (.list (isBracketed_intercalate hsp.item ih))
  | object _ hnames ih =>
    rw [toList_write_object]
    have hopened := IsOpened.object (isBracketed_intercalate hsp.item fun e he =>
      isMember_writeEntry (f := f) hsp (ih e he)) fun _ => hnames
    rw [ofEntries_of_nodup hnames] at hopened
    exact .inr hopened

end PanelExport.Document
