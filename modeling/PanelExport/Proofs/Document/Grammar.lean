import PanelExport.Document.Reader
import PanelExport.Proofs.Numeral

/-!
# Texts of documents

Which texts spell a document, said without a reader. There are three formats. The standard one keeps
the names of an object apart and has no words for doubles that are not finite. The lenient one gives
way in both, but limits the digits of a whole number. In the torn one, which the reader follows, the
halves of a character may also stand apart. Such a half spells no character: a torn text tells that
something is spelled, and the replacement character stands where it does not tell what.

* `Spelled`: a text spells a document within a depth.
* `IsDeep`: a text opens more brackets within one another than a depth allows.
* `Format.Within`: what is spelled in one format is spelled in another one.
* `Spelled.mono`: what a text spells in a format, it spells in one around it.
-/

namespace PanelExport

/-- What counts as the text of a document. -/
inductive Format where
  | standard
  /-- A whole number has at most `limit` digits. -/
  | lenient (limit : Nat)
  /-- A half of a character may stand alone. -/
  | torn (limit : Nat)

namespace Format

/-- The most digits that a whole number may have. -/
def digits? : Format → Option Nat
  | standard => none
  | lenient limit => some limit
  | torn limit => some limit

/-- All halves of characters stand together. -/
def isWhole : Format → Bool
  | torn _ => false
  | _ => true

/-- The second format takes every text of at most `size` characters that the first one takes. -/
structure Within (f g : Format) (size : Nat) : Prop where
  names : g ≠ .standard
  halves : f.isWhole = false → g.isWhole = false
  digits : ∀ limit, g.digits? = some limit → size ≤ limit ∨ f.digits? = some limit

/-- Every format is within the torn one if that takes long numbers. -/
theorem within_torn (f : Format) (limit : Nat) : f.Within (.torn limit) limit where
  names := nofun
  halves _ := rfl
  digits _ h := .inl (Nat.le_of_eq (Option.some.inj h))

/-- The lenient format is within the torn one with the same limit, however long a text is. -/
theorem lenient_within_torn (limit size : Nat) :
    (lenient limit).Within (.torn limit) size where
  names := nofun
  halves _ := rfl
  digits _ h := .inr h

end Format

namespace Document

/-! ## Blanks and numbers -/

/-- Nothing but blanks. -/
def IsBlanks (text : List Char) : Prop := ∀ c ∈ text, isBlankBetween c = true

/-- Some ASCII digits. -/
def IsDigits (ds : List Char) : Prop := ds ≠ [] ∧ ∀ c ∈ ds, c.isDigit = true

/-- The digits of a whole part; only zero itself starts with a zero. -/
def IsWhole (ds : List Char) : Prop := IsDigits ds ∧ (ds.head? = some '0' → ds = ['0'])

/-- The digits of a fraction, and its text. -/
inductive IsFraction : List Char → List Char → Prop
  | none : IsFraction [] []
  | digits {ds : List Char} (h : IsDigits ds) : IsFraction ds ('.' :: ds)

/-- The mark of a power of ten. -/
def IsPowerMark (c : Char) : Prop := c = 'e' ∨ c = 'E'

/-- The value of a power of ten, and its text. -/
inductive IsPower : Int → List Char → Prop
  | none : IsPower 0 []
  | plain {mark : Char} {ds : List Char} (hm : IsPowerMark mark) (h : IsDigits ds) :
    IsPower (Nat.ofDigitChars 10 ds 0) (mark :: ds)
  | plus {mark : Char} {ds : List Char} (hm : IsPowerMark mark) (h : IsDigits ds) :
    IsPower (Nat.ofDigitChars 10 ds 0) (mark :: '+' :: ds)
  | minus {mark : Char} {ds : List Char} (hm : IsPowerMark mark) (h : IsDigits ds) :
    IsPower (-(Nat.ofDigitChars 10 ds 0 : Int)) (mark :: '-' :: ds)

/-- The text of a sign. -/
def signText (negative : Bool) : List Char := if negative then ['-'] else []

/-- A text spells a number: a whole one without fraction and power, a double with one of them. -/
inductive IsNumber (f : Format) : Document → List Char → Prop
  | whole (negative : Bool) {ds : List Char} (h : IsWhole ds)
    (hlimit : ∀ limit, f.digits? = some limit → ds.length ≤ limit) :
    IsNumber f (.int (if negative then -(Nat.ofDigitChars 10 ds 0 : Int)
      else (Nat.ofDigitChars 10 ds 0 : Int))) (signText negative ++ ds)
  | decimal (negative : Bool) {ds fraction fractionText powerText : List Char} {power : Int}
    (h : IsWhole ds) (hf : IsFraction fraction fractionText) (hp : IsPower power powerText)
    (hmore : fractionText ++ powerText ≠ []) :
    IsNumber f (.float (Double.ofDecimal negative (Nat.ofDigitChars 10 (ds ++ fraction) 0)
      (power - fraction.length))) (signText negative ++ (ds ++ (fractionText ++ powerText)))

/-! ## Texts -/

/-- Four hexadecimal digits with this value. -/
def IsQuad (n : Nat) (q : List Char) : Prop := hexQuad? q = some (n, [])

/-- The characters of an escape by number. -/
def unitText (q : List Char) : List Char := '\\' :: 'u' :: q

/-- A text starts with a second half that is escaped. -/
def StartsLow (text : List Char) : Prop :=
  ∃ low q more, IsQuad low q ∧ isLowHalf low = true ∧ text = unitText q ++ more

/-- The characters that stand between quotes, and how they are spelled there. -/
inductive IsChars (f : Format) : List Char → List Char → Prop
  | nil : IsChars f [] []
  | plain {c : Char} {cs text : List Char} (hcontrol : 0x20 ≤ c.toNat) (hquote : c ≠ '"')
    (hescape : c ≠ '\\') (h : IsChars f cs text) : IsChars f (c :: cs) (c :: text)
  | letter {e c : Char} {cs text : List Char} (he : escapeChar? e = some c) (h : IsChars f cs text) :
    IsChars f (c :: cs) ('\\' :: e :: text)
  | unit {n : Nat} {q cs text : List Char} (hq : IsQuad n q) (hn : isHalf n = false)
    (h : IsChars f cs text) : IsChars f (Char.ofNat n :: cs) (unitText q ++ text)
  | pair {high low : Nat} {q q' cs text : List Char} (hq : IsQuad high q) (hq' : IsQuad low q')
    (hhigh : isHighHalf high = true) (hlow : isLowHalf low = true) (h : IsChars f cs text) :
    IsChars f (joinHalves high low :: cs) (unitText q ++ (unitText q' ++ text))
  | half {n : Nat} {q cs text : List Char} (hf : f.isWhole = false) (hq : IsQuad n q)
    (hn : isHalf n = true) (halone : isHighHalf n = true → ¬ StartsLow text)
    (h : IsChars f cs text) : IsChars f ('\uFFFD' :: cs) (unitText q ++ text)

/-- A text spells a text. -/
inductive IsQuoted (f : Format) : String → List Char → Prop
  | quoted {cs text : List Char} (h : IsChars f cs text) :
    IsQuoted f (String.ofList cs) ('"' :: (text ++ ['"']))

/-! ## Documents -/

/-- A text spells a document that is neither a list nor an object. -/
inductive IsLeaf (f : Format) : Document → List Char → Prop
  | null : IsLeaf f .null ['n', 'u', 'l', 'l']
  | true : IsLeaf f (.bool true) ['t', 'r', 'u', 'e']
  | false : IsLeaf f (.bool false) ['f', 'a', 'l', 's', 'e']
  | number {d : Document} {text : List Char} (h : IsNumber f d text) : IsLeaf f d text
  | text {s : String} {text : List Char} (h : IsQuoted f s text) : IsLeaf f (.text s) text
  | nan (hf : f ≠ .standard) : IsLeaf f (.float .nan) ['N', 'a', 'N']
  | infinity (hf : f ≠ .standard) :
    IsLeaf f (.float (.infinite Bool.false)) ['I', 'n', 'f', 'i', 'n', 'i', 't', 'y']
  | minusInfinity (hf : f ≠ .standard) :
    IsLeaf f (.float (.infinite Bool.true)) ['-', 'I', 'n', 'f', 'i', 'n', 'i', 't', 'y']

/-- One or more items with commas between them and blanks around them. -/
inductive IsRow {α : Type} (item : α → List Char → Prop) : List α → List Char → Prop
  | one {a : α} {v text w : List Char} (hv : IsBlanks v) (ha : item a text) (hw : IsBlanks w) :
    IsRow item [a] (v ++ (text ++ w))
  | more {a : α} {as : List α} {v text w rest : List Char} (hv : IsBlanks v) (ha : item a text)
    (hw : IsBlanks w) (h : IsRow item as rest) :
    IsRow item (a :: as) (v ++ (text ++ (w ++ ',' :: rest)))

/-- The items between two brackets, if there are any. -/
inductive IsBracketed {α : Type} (item : α → List Char → Prop) : List α → List Char → Prop
  | none {w : List Char} (hw : IsBlanks w) : IsBracketed item [] w
  | row {as : List α} {text : List Char} (h : IsRow item as text) : IsBracketed item as text

/-- A name with its value. -/
inductive IsMember (f : Format) (item : Document → List Char → Prop) :
    String × Document → List Char → Prop
  | member {name : String} {d : Document} {nameText v w text : List Char}
    (hn : IsQuoted f name nameText) (hv : IsBlanks v) (hw : IsBlanks w) (hd : item d text) :
    IsMember f item (name, d) (nameText ++ (v ++ ':' :: (w ++ text)))

/-- A text spells a list or an object with such items. -/
inductive IsOpened (f : Format) (item : Document → List Char → Prop) : Document → List Char → Prop
  | list {ds : List Document} {text : List Char} (h : IsBracketed item ds text) :
    IsOpened f item (.list ds) ('[' :: (text ++ [']']))
  | object {es : List (String × Document)} {text : List Char}
    (h : IsBracketed (IsMember f item) es text)
    (hnames : f = .standard → (es.map Prod.fst).Nodup) :
    IsOpened f item (.object (ofEntries es)) ('\x7b' :: (text ++ ['\x7d']))

/-- A text spells a document with at most `depth` lists and objects within one another. -/
def Spelled (f : Format) : Nat → Document → List Char → Prop
  | 0, d, cs => IsLeaf f d cs
  | depth + 1, d, cs => IsLeaf f d cs ∨ IsOpened f (Spelled f depth) d cs

theorem IsLeaf.spelled {f : Format} {d : Document} {text : List Char} (h : IsLeaf f d text)
    (depth : Nat) : Spelled f depth d text := by
  cases depth with
  | zero => exact h
  | succ depth => exact .inl h

/-- What stands between an opening bracket and some item. -/
inductive IsLead {α : Type} (item : α → List Char → Prop) : List Char → Prop
  | blanks {v : List Char} (hv : IsBlanks v) : IsLead item v
  | item {a : α} {v text w rest : List Char} (hv : IsBlanks v) (ha : item a text)
    (hw : IsBlanks w) (h : IsLead item rest) : IsLead item (v ++ (text ++ (w ++ ',' :: rest)))

/-- A text opens a list or an object within `depth` others, and is in order up to there. -/
def IsDeep (limit : Nat) : Nat → List Char → Prop
  | 0, cs => ∃ rest, cs = '[' :: rest ∨ cs = '\x7b' :: rest
  | depth + 1, cs =>
    (∃ lead rest, cs = '[' :: (lead ++ rest) ∧ IsLead (Spelled (.torn limit) depth) lead ∧
      IsDeep limit depth rest) ∨
    (∃ lead name nameText v w rest,
      cs = '\x7b' :: (lead ++ (nameText ++ (v ++ ':' :: (w ++ rest)))) ∧
      IsLead (IsMember (.torn limit) (Spelled (.torn limit) depth)) lead ∧
      IsQuoted (.torn limit) name nameText ∧ IsBlanks v ∧ IsBlanks w ∧ IsDeep limit depth rest)

/-! ## From one format to another one -/

section

variable {f g : Format} {size : Nat}

theorem IsNumber.mono (hw : f.Within g size) {d : Document} {text : List Char}
    (h : IsNumber f d text) (hl : text.length ≤ size) : IsNumber g d text := by
  cases h with
  | whole negative h hlimit =>
    refine .whole negative h fun limit hg => ?_
    rw [List.length_append] at hl
    rcases hw.digits limit hg with hsize | hf
    · omega
    · exact hlimit limit hf
  | decimal negative h hf hp hmore => exact .decimal negative h hf hp hmore

theorem IsChars.mono (hw : f.Within g size) {cs text : List Char} (h : IsChars f cs text) :
    IsChars g cs text := by
  induction h with
  | nil => exact .nil
  | plain hcontrol hquote hescape _ ih => exact .plain hcontrol hquote hescape ih
  | letter he _ ih => exact .letter he ih
  | unit hq hn _ ih => exact .unit hq hn ih
  | pair hq hq' hhigh hlow _ ih => exact .pair hq hq' hhigh hlow ih
  | half hf hq hn halone _ ih => exact .half (hw.halves hf) hq hn halone ih

theorem IsQuoted.mono (hw : f.Within g size) {s : String} {text : List Char}
    (h : IsQuoted f s text) : IsQuoted g s text := by
  cases h with
  | quoted h => exact .quoted (h.mono hw)

theorem IsLeaf.mono (hw : f.Within g size) {d : Document} {text : List Char} (h : IsLeaf f d text)
    (hl : text.length ≤ size) : IsLeaf g d text := by
  cases h with
  | null => exact .null
  | true => exact .true
  | false => exact .false
  | number h => exact .number (h.mono hw hl)
  | text h => exact .text (h.mono hw)
  | nan => exact .nan hw.names
  | infinity => exact .infinity hw.names
  | minusInfinity => exact .minusInfinity hw.names

section

variable {α : Type} {item item' : α → List Char → Prop} {as : List α} {text : List Char}

theorem IsRow.imp (himp : ∀ a ∈ as, ∀ text, text.length ≤ size → item a text → item' a text)
    (h : IsRow item as text) (hl : text.length ≤ size) : IsRow item' as text := by
  induction h with
  | one hv ha hw =>
    simp only [List.length_append] at hl
    exact .one hv (himp _ (List.mem_cons_self ..) _ (by omega) ha) hw
  | more hv ha hw _ ih =>
    obtain ⟨himp, himps⟩ := List.forall_mem_cons.1 himp
    simp only [List.length_append, List.length_cons] at hl
    exact .more hv (himp _ (by omega) ha) hw (ih himps (by omega))

theorem IsBracketed.imp
    (himp : ∀ a ∈ as, ∀ text, text.length ≤ size → item a text → item' a text)
    (h : IsBracketed item as text) (hl : text.length ≤ size) : IsBracketed item' as text := by
  cases h with
  | none hw => exact .none hw
  | row h => exact .row (h.imp himp hl)

end

section

variable {item item' : Document → List Char → Prop} (hw : f.Within g size)
  (himp : ∀ d text, text.length ≤ size → item d text → item' d text)

include hw himp

theorem IsMember.mono {e : String × Document} {text : List Char} (h : IsMember f item e text)
    (hl : text.length ≤ size) : IsMember g item' e text := by
  cases h with
  | member hn hv hw' hd =>
    simp only [List.length_append, List.length_cons] at hl
    exact .member (hn.mono hw) hv hw' (himp _ _ (by omega) hd)

theorem IsOpened.mono {d : Document} {text : List Char} (h : IsOpened f item d text)
    (hl : text.length ≤ size) : IsOpened g item' d text := by
  cases h with
  | list h =>
    simp only [List.length_append, List.length_cons] at hl
    exact .list (h.imp (fun d _ => himp d) (by omega))
  | object h =>
    simp only [List.length_append, List.length_cons] at hl
    exact .object (h.imp (fun _ _ _ hl hm => hm.mono hw himp hl) (by omega))
      fun hstandard => absurd hstandard hw.names

end

/-- What a text spells in a format, it spells in every format around it. -/
theorem Spelled.mono (hw : f.Within g size) {depth depth' : Nat} {d : Document} {text : List Char}
    (h : Spelled f depth d text) (hd : depth ≤ depth') (hl : text.length ≤ size) :
    Spelled g depth' d text := by
  induction depth generalizing depth' d text with
  | zero =>
    exact (IsLeaf.mono hw h hl).spelled depth'
  | succ depth ih =>
    cases depth' with
    | zero => omega
    | succ depth' =>
      rcases h with h | h
      · exact (h.mono hw hl).spelled _
      · exact .inr (h.mono hw (fun _ _ hl h => ih h (Nat.le_of_succ_le_succ hd) hl) hl)

end

end Document

end PanelExport
