import PanelExport.Proofs.Document.Writing

/-!
# Documents inside a web page

What could end a script or a line of a web page is replaced in the whole of a written document,
after it has been written. All of it stands inside texts, where the replacement is an escape as
well, so the same document could have been written at once by a spelling in which nothing of it is
plain.

* `escapeMarks_write`: writing and then replacing is writing in that spelling.
* `safe_write`: what it writes holds no page mark and no newline.
-/

namespace PanelExport.Document

variable {α : Type} {f : Format}

/-! ## What a document is written with -/

/-- The characters of a written document that come from no text and no separator. -/
def writtenChars : List Char :=
  ['"', '\\', '[', ']', '\x7b', '\x7d', '-', '0', '1', '2', '3', '4', '5', '6', '7', '8', '9',
    'a', 'b', 'c', 'd', 'e', 'f', 'l', 'n', 'r', 's', 't', 'u']

theorem mem_writtenChars_of_all {cs : List Char} (h : cs.all writtenChars.contains = true)
    {c : Char} (hc : c ∈ cs) : c ∈ writtenChars :=
  List.contains_iff_mem.1 (List.all_eq_true.1 h c hc)

theorem digitChar_mem_writtenChars {n : Nat} (h : n < 16) : Nat.digitChar n ∈ writtenChars := by
  have hall : ∀ n : Fin 16, Nat.digitChar n ∈ writtenChars := by decide
  exact hall ⟨n, h⟩

theorem mem_unitEscape {n : Nat} (h : n < 0x10000) {c : Char} (hc : c ∈ unitEscape n) :
    c ∈ writtenChars := by
  rw [unitEscape, hexPadded_four h] at hc
  simp only [List.mem_cons, List.not_mem_nil, or_false] at hc
  rcases hc with rfl | rfl | rfl | rfl | rfl | rfl
  · decide
  · decide
  · exact digitChar_mem_writtenChars (by omega)
  · exact digitChar_mem_writtenChars (by omega)
  · exact digitChar_mem_writtenChars (by omega)
  · exact digitChar_mem_writtenChars (by omega)

/-- An escape by number is written with letters, digits and a backslash. -/
theorem mem_numberedChar {c x : Char} (hx : x ∈ numberedChar c) : x ∈ writtenChars := by
  have hvalid : c.toNat < 0xD800 ∨ 0xDFFF < c.toNat ∧ c.toNat < 0x110000 := c.valid
  unfold numberedChar at hx
  split at hx
  · rename_i hc
    exact mem_unitEscape hc hx
  · rcases List.mem_append.1 hx with hx | hx
    · exact mem_unitEscape (by omega) hx
    · exact mem_unitEscape (by omega) hx

/-- A character is written with what escapes are written with, or it is plain. -/
theorem mem_spellChar {plain : Char → Bool} {c x : Char} (hx : x ∈ spellChar plain c) :
    x ∈ writtenChars ∨ plain c = true ∧ x = c := by
  unfold spellChar at hx
  split at hx
  · rename_i hc
    rw [Bool.or_eq_true, beq_iff_eq, beq_iff_eq] at hc
    left
    rcases hc with rfl | rfl
    · exact mem_writtenChars_of_all rfl hx
    · exact mem_writtenChars_of_all rfl hx
  split at hx
  · exact .inl (mem_writtenChars_of_all rfl hx)
  split at hx
  · exact .inl (mem_writtenChars_of_all rfl hx)
  split at hx
  · exact .inl (mem_writtenChars_of_all rfl hx)
  split at hx
  · exact .inl (mem_writtenChars_of_all rfl hx)
  split at hx
  · exact .inl (mem_writtenChars_of_all rfl hx)
  split at hx
  · rename_i hc
    exact .inr ⟨hc, List.mem_singleton.1 hx⟩
  · exact .inl (mem_numberedChar hx)

section

variable {sp : Spelling} {c : Char}

/-- What a character of a written document comes from. -/
def IsWritten (sp : Spelling) (c : Char) : Prop :=
  c ∈ writtenChars ∨ sp.plain c = true ∨ c ∈ sp.itemSeparator.toList ∨ c ∈ sp.nameSeparator.toList

theorem mem_spellText {s : String} (hc : c ∈ (spellText sp.plain s).toList) : IsWritten sp c := by
  rw [spellText, String.toList_ofList, List.cons_append, List.mem_cons, List.mem_append,
    List.mem_singleton, List.mem_flatMap] at hc
  rcases hc with rfl | ⟨x, -, hx⟩ | rfl
  · exact .inl (by decide)
  · rcases mem_spellChar hx with h | ⟨h, rfl⟩
    · exact .inl h
    · exact .inr (.inl h)
  · exact .inl (by decide)

theorem mem_of_isDigit (h : c.isDigit = true) : c ∈ writtenChars := by
  have hall : ∀ k : Fin 10, Char.ofNat (48 + k.val) ∈ writtenChars := by decide
  simp only [Char.isDigit, Bool.and_eq_true, decide_eq_true_eq, ge_iff_le,
    UInt32.le_iff_toNat_le] at h
  have hcode : 48 ≤ c.toNat ∧ c.toNat ≤ 57 := h
  have hmem := hall ⟨c.toNat - 48, by omega⟩
  rwa [Nat.add_sub_cancel' hcode.1, Char.ofNat_toNat] at hmem

/-- A whole number is written with digits and a sign. -/
theorem mem_toString {n : Int} (hc : c ∈ (toString n).toList) : c ∈ writtenChars := by
  rcases eq_minus_or_isDigit_of_mem_toString hc with rfl | hdigit
  · decide
  · exact mem_of_isDigit hdigit

/-- What stands in a row of texts stands in one of them or in a separator. -/
theorem mem_intercalate {separator : String} {texts : List String}
    (hc : c ∈ (separator.intercalate texts).toList) :
    c ∈ separator.toList ∨ ∃ text ∈ texts, c ∈ text.toList := by
  induction texts with
  | nil => cases hc
  | cons text texts ih =>
    cases texts with
    | nil =>
      rw [String.intercalate_singleton] at hc
      exact .inr ⟨text, List.mem_cons_self .., hc⟩
    | cons other texts =>
      rw [String.intercalate_cons_cons, String.toList_append, String.toList_append,
        List.mem_append, List.mem_append] at hc
      rcases hc with (hc | hc) | hc
      · exact .inr ⟨text, List.mem_cons_self .., hc⟩
      · exact .inl hc
      · rcases ih hc with hc | ⟨text, htext, hc⟩
        · exact .inl hc
        · exact .inr ⟨text, List.mem_cons_of_mem _ htext, hc⟩

/-- What stands between brackets is separators and items. -/
theorem mem_bracketed {opening close : Char} {text : α → String} {as : List α}
    (hopening : opening ∈ writtenChars) (hclose : close ∈ writtenChars)
    (h : ∀ a ∈ as, c ∈ (text a).toList → IsWritten sp c)
    (hc : c ∈ opening :: ((sp.itemSeparator.intercalate (as.map text)).toList ++ [close])) :
    IsWritten sp c := by
  rw [List.mem_cons, List.mem_append, List.mem_singleton] at hc
  rcases hc with rfl | hc | rfl
  · exact .inl hopening
  · rcases mem_intercalate hc with hc | ⟨_, htext, hc⟩
    · exact .inr (.inr (.inl hc))
    · obtain ⟨a, ha, rfl⟩ := List.mem_map.1 htext
      exact h a ha hc
  · exact .inl hclose

/-- Which characters a written document is made of. -/
theorem mem_write {depth : Nat} {d : Document} (h : Writable f depth d)
    (hc : c ∈ (write sp d).toList) : IsWritten sp c := by
  induction h with
  | null =>
    rw [write] at hc
    exact .inl (mem_writtenChars_of_all rfl hc)
  | bool b =>
    cases b with
    | true =>
      rw [write] at hc
      exact .inl (mem_writtenChars_of_all rfl hc)
    | false =>
      rw [write] at hc
      exact .inl (mem_writtenChars_of_all rfl hc)
  | int =>
    rw [write] at hc
    exact .inl (mem_toString hc)
  | text s =>
    rw [write] at hc
    exact mem_spellText hc
  | list _ ih =>
    rw [toList_write_list] at hc
    exact mem_bracketed (by decide) (by decide) ih hc
  | object _ _ ih =>
    rw [toList_write_object] at hc
    refine mem_bracketed (by decide) (by decide) (fun e he hc => ?_) hc
    rw [writeEntry, String.toList_append, String.toList_append, List.mem_append,
      List.mem_append] at hc
    rcases hc with (hc | hc) | hc
    · exact mem_spellText hc
    · exact .inr (.inr (.inr hc))
    · exact ih e he hc

end

/-! ## The spelling for web pages -/

/-- The spelling without spaces in which nothing is plain that could end a script or a line of a web
page. -/
def embedded : Spelling := ⟨",", ":", fun c => ' ' ≤ c && !(pageMarks.contains c)⟩

theorem isBlanks_nil : IsBlanks [] := nofun

theorem isSeparator_comma : IsSeparator ',' "," := ⟨[], [], isBlanks_nil, isBlanks_nil, rfl⟩

theorem isSeparator_colon : IsSeparator ':' ":" := ⟨[], [], isBlanks_nil, isBlanks_nil, rfl⟩

/-- The compact spelling has separators without blanks. -/
theorem isStandard_compact : IsStandard .compact where
  item := isSeparator_comma
  name := isSeparator_colon
  plain _ hc := of_decide_eq_true hc

/-- So has the spelling for web pages. -/
theorem isStandard_embedded : IsStandard embedded where
  item := isSeparator_comma
  name := isSeparator_colon
  plain _ hc := of_decide_eq_true (Bool.and_eq_true_iff.1 hc).1

/-- What stands for a character in a web page. -/
def escapeMark (c : Char) : List Char :=
  if pageMarks.contains c then unitEscape c.toNat else [c]

/-- Nothing that documents are written with is a page mark. -/
theorem not_mark_of_written : ∀ c ∈ writtenChars, c ∉ pageMarks := by
  simp [writtenChars, pageMarks]

theorem toNat_lt_of_mark : ∀ c ∈ pageMarks, c.toNat < 0x10000 := by
  simp [pageMarks]

theorem flatMap_eq_self {g : Char → List Char} {cs : List Char} (h : ∀ c ∈ cs, g c = [c]) :
    cs.flatMap g = cs := by
  induction cs with
  | nil => rfl
  | cons c cs ih =>
    obtain ⟨hc, hcs⟩ := List.forall_mem_cons.1 h
    rw [List.flatMap_cons, hc, ih hcs, List.singleton_append]

/-- Only page marks are replaced. -/
theorem escapeMark_of_not {c : Char} (h : c ∉ pageMarks) : escapeMark c = [c] := by
  rw [escapeMark, if_neg (by simpa using h)]

/-- Replacing one character after the other is replacing all of them at once, as no replacement
holds one that is still to be replaced. -/
theorem toList_foldl_replaceChar {marks : List Char} (h : ∀ c ∈ marks, c ∈ pageMarks) (s : String) :
    (marks.foldl (fun text c => replaceChar c (unitEscape c.toNat) text) s).toList =
      s.toList.flatMap fun x => if marks.contains x then unitEscape x.toNat else [x] := by
  induction marks generalizing s with
  | nil => simp
  | cons mark marks ih =>
    obtain ⟨hmark, hmarks⟩ := List.forall_mem_cons.1 h
    rw [List.foldl_cons, ih hmarks, replaceChar, String.toList_ofList, List.flatMap_assoc]
    congr 1
    funext x
    by_cases hx : x = mark
    · have hplain : ∀ c ∈ unitEscape x.toNat,
          (if marks.contains c then unitEscape c.toNat else [c]) = [c] := by
        intro c hc
        have hwritten := mem_unitEscape (toNat_lt_of_mark x (hx ▸ hmark)) hc
        have hnot : c ∉ marks := fun h => not_mark_of_written c hwritten (hmarks c h)
        exact if_neg (by simpa using hnot)
      rw [← hx, if_pos rfl, flatMap_eq_self hplain, if_pos (by simp)]
    · rw [if_neg hx]
      simp [hx]

theorem toList_escapeMarks (s : String) :
    (escapeMarks s).toList = s.toList.flatMap escapeMark :=
  toList_foldl_replaceChar (fun _ h => h) s

/-- What is written outside texts stays as it is. -/
theorem flatMap_escapeMark_of_written {cs : List Char} (h : ∀ c ∈ cs, c ∈ writtenChars) :
    cs.flatMap escapeMark = cs :=
  flatMap_eq_self fun c hc => escapeMark_of_not (not_mark_of_written c (h c hc))

/-- Replacing page marks in a character that is spelled is spelling it with none of them plain. -/
theorem flatMap_escapeMark_spellChar (c : Char) :
    (spellChar Spelling.compact.plain c).flatMap escapeMark = spellChar embedded.plain c := by
  by_cases hc : c ∈ pageMarks
  · simp only [pageMarks, List.mem_cons, List.not_mem_nil, or_false] at hc
    rcases hc with rfl | rfl | rfl | rfl | rfl <;> decide +kernel
  · have hplain : embedded.plain c = Spelling.compact.plain c := by
      simp [embedded, Spelling.compact, hc]
    have hspell : spellChar embedded.plain c = spellChar Spelling.compact.plain c := by
      unfold spellChar
      rw [hplain]
    rw [hspell]
    refine flatMap_eq_self fun x hx => escapeMark_of_not ?_
    rcases mem_spellChar hx with hwritten | ⟨-, rfl⟩
    · exact not_mark_of_written x hwritten
    · exact hc

/-- The same for a text. -/
theorem flatMap_escapeMark_spellText (s : String) :
    (spellText Spelling.compact.plain s).toList.flatMap escapeMark =
      (spellText embedded.plain s).toList := by
  rw [spellText, spellText, String.toList_ofList, String.toList_ofList, List.flatMap_append,
    List.flatMap_cons, List.flatMap_assoc]
  simp only [flatMap_escapeMark_spellChar]
  rfl

theorem flatMap_intercalate {g : Char → List Char} {separator : String} {text text' : α → String}
    {as : List α} (hs : separator.toList.flatMap g = separator.toList)
    (h : ∀ a ∈ as, (text a).toList.flatMap g = (text' a).toList) :
    (separator.intercalate (as.map text)).toList.flatMap g =
      (separator.intercalate (as.map text')).toList := by
  induction as with
  | nil => rfl
  | cons a as ih =>
    obtain ⟨ha, has⟩ := List.forall_mem_cons.1 h
    cases as with
    | nil =>
      rw [List.map_singleton, List.map_singleton, String.intercalate_singleton,
        String.intercalate_singleton, ha]
    | cons b as =>
      have hmore := ih has
      rw [List.map_cons, List.map_cons] at hmore
      rw [List.map_cons, List.map_cons, List.map_cons, List.map_cons, String.intercalate_cons_cons,
        String.intercalate_cons_cons, String.toList_append, String.toList_append,
        String.toList_append, String.toList_append, List.flatMap_append, List.flatMap_append, ha, hs,
        hmore]

/-- Writing a document and then replacing the page marks is writing it with none of them plain. -/
theorem escapeMarks_write {depth : Nat} {d : Document} (h : Writable f depth d) :
    escapeMarks (write .compact d) = write embedded d := by
  rw [← String.toList_inj, toList_escapeMarks]
  induction h with
  | null =>
    rw [write, write]
    rfl
  | bool b => cases b <;> (rw [write, write]; rfl)
  | int =>
    rw [write, write]
    exact flatMap_escapeMark_of_written fun _ => mem_toString
  | text s =>
    rw [write, write]
    exact flatMap_escapeMark_spellText s
  | list _ ih =>
    rw [toList_write_list, toList_write_list, List.flatMap_cons, List.flatMap_append,
      flatMap_intercalate rfl ih]
    rfl
  | object _ _ ih =>
    rw [toList_write_object, toList_write_object, List.flatMap_cons, List.flatMap_append,
      flatMap_intercalate rfl fun e he => ?_]
    · rfl
    · rw [writeEntry, writeEntry]
      simp only [String.toList_append, List.flatMap_append, flatMap_escapeMark_spellText, ih e he]
      rfl

/-- A document for a web page holds no page mark, and no newline. -/
theorem safe_write {depth : Nat} {d : Document} (h : Writable f depth d) :
    ∀ c ∈ (write embedded d).toList, c ∉ pageMarks ∧ c ≠ '\n' := by
  intro c hc
  rcases mem_write h hc with hc | hc | hc | hc
  · refine ⟨not_mark_of_written c hc, ?_⟩
    rintro rfl
    revert hc
    decide
  · obtain ⟨hspace, hmark⟩ := Bool.and_eq_true_iff.1 hc
    refine ⟨by simpa using hmark, ?_⟩
    rintro rfl
    revert hspace
    decide
  · obtain rfl : c = ',' := List.mem_singleton.1 hc
    decide
  · obtain rfl : c = ':' := List.mem_singleton.1 hc
    decide

end PanelExport.Document
