import Mathlib.Data.List.Forall2
import PanelExport.Proofs.Outcome
import PanelExport.Proofs.Query.Replies
import PanelExport.Proofs.Text.Utf8
import PanelExport.Service.Resource

/-!
# Lists that are posted

Which bodies hold a list of expressions, said of their bytes: behind blanks there is a text that
spells the list, and what comes then is of no account. All others are refused, but for those that
are nested too deeply. A body is taken also where a half of a character stands alone in it; which
expressions are read from it is said of the bodies without such halves.

* `textsOf_eq_ok_iff`, `sentTexts_eq_ok_iff`: what a document sends.
* `Sends.spelled`: what sends expressions is not nested, and no number in it can be too long.
* `IsSent.readBody`, `isSent_of_readBody`, `readBody_eq_tooDeep_iff`: what is read from a body.
* `readBody_exact`: a written list is read again, and nothing but a list is read.
-/

namespace PanelExport

open Document Query

namespace Query

/-! ## What a document sends -/

/-- An item of a list, and the expression that it sends; nothing sends an empty one. -/
inductive SendsText : Document → String → Prop
  | null : SendsText .null ""
  | text (s : String) : SendsText (.text s) s

/-- A document, and the expressions that it sends; nothing sends none. -/
inductive Sends : Document → Option (List String) → Prop
  | null : Sends .null none
  | list {ds : List Document} {texts : List String} (h : List.Forall₂ SendsText ds texts) :
    Sends (.list ds) (some texts)

theorem sends_ofTexts (texts : List String) : Sends (.ofTexts texts) (some texts) := by
  refine .list ?_
  induction texts with
  | nil => exact .nil
  | cons text texts ih => exact .cons (.text text) ih

theorem exists_sendsText {ds : List Document} {texts : List String}
    (h : List.Forall₂ SendsText ds texts) : ∀ d ∈ ds, ∃ s, SendsText d s := by
  induction h with
  | nil => nofun
  | cons hd _ ih => exact List.forall_mem_cons.2 ⟨⟨_, hd⟩, ih⟩

/-- A list is read item by item. -/
theorem textsOf_cons_eq_ok_iff {d : Document} {ds : List Document} {texts : List String} :
    textsOf (d :: ds) = .ok texts ↔
      ∃ s rest, SendsText d s ∧ textsOf ds = .ok rest ∧ texts = s :: rest := by
  constructor
  · intro h
    cases d with
    | null =>
      obtain ⟨rest, hrest, h⟩ := bind_eq_ok.1 h
      cases h
      exact ⟨"", rest, .null, hrest, rfl⟩
    | text s =>
      obtain ⟨rest, hrest, h⟩ := bind_eq_ok.1 h
      cases h
      exact ⟨s, rest, .text s, hrest, rfl⟩
    | _ => cases h
  · rintro ⟨s, rest, hs, hrest, rfl⟩
    cases hs with
    | null => exact bind_eq_ok.2 ⟨rest, hrest, rfl⟩
    | text s => exact bind_eq_ok.2 ⟨rest, hrest, rfl⟩

theorem textsOf_eq_ok_iff {ds : List Document} {texts : List String} :
    textsOf ds = .ok texts ↔ List.Forall₂ SendsText ds texts := by
  induction ds generalizing texts with
  | nil => simp [textsOf, eq_comm]
  | cons d ds ih => simp only [textsOf_cons_eq_ok_iff, ih, List.forall₂_cons_left_iff]

theorem sentTexts_eq_ok_iff {d : Document} {texts? : Option (List String)} :
    sentTexts d = .ok texts? ↔ Sends d texts? := by
  constructor
  · intro h
    cases d with
    | null =>
      cases h
      exact .null
    | list ds =>
      obtain ⟨texts, htexts, h⟩ := bind_eq_ok.1 h
      cases h
      exact .list (textsOf_eq_ok_iff.1 htexts)
    | _ => cases h
  · intro h
    cases h with
    | null => rfl
    | list h => exact bind_eq_ok.2 ⟨_, textsOf_eq_ok_iff.2 h, rfl⟩

theorem eq_notTexts_of_textsOf {ds : List Document} {fault : BodyFault}
    (h : textsOf ds = .error fault) : fault = .notTexts := by
  fun_induction textsOf ds with
  | case1 => cases h
  | case2 ds ih =>
    rcases bind_eq_error.1 h with h | ⟨_, -, h⟩
    · exact ih h
    · cases h
  | case3 s ds ih =>
    rcases bind_eq_error.1 h with h | ⟨_, -, h⟩
    · exact ih h
    · cases h
  | case4 =>
    cases h
    rfl

theorem eq_notTexts_of_sentTexts {d : Document} {fault : BodyFault}
    (h : sentTexts d = .error fault) : fault = .notTexts := by
  cases d with
  | null => cases h
  | list ds =>
    rcases bind_eq_error.1 h with h | ⟨_, -, h⟩
    · exact eq_notTexts_of_textsOf h
    · cases h
  | _ =>
    cases h
    rfl

/-! ## How what is sent is spelled -/

section

variable {f g : Format} {size depth : Nat} {d : Document} {text : List Char}

theorem SendsText.isLeaf (hw : f.Within g size) {s : String} (h : SendsText d s)
    (hd : Spelled f depth d text) : IsLeaf g d text := by
  have hleaf : IsLeaf f d text := by
    cases depth with
    | zero => exact hd
    | succ depth =>
      rcases hd with hd | hd
      · exact hd
      · cases hd <;> cases h
  cases h with
  | null =>
    cases hleaf with
    | null => exact .null
    | number h => cases h
  | text s =>
    cases hleaf with
    | number h => cases h
    | text h => exact .text (h.mono hw)

/-- What sends expressions is not nested, and no number in it can be too long. -/
theorem Sends.spelled (hw : f.Within g size) {texts? : Option (List String)} (h : Sends d texts?)
    (hd : Spelled f depth d text) (depth' : Nat) : Spelled g (depth' + 1) d text := by
  have hcases : IsLeaf f d text ∨ ∃ depth, IsOpened f (Spelled f depth) d text := by
    cases depth with
    | zero => exact .inl hd
    | succ depth => exact hd.imp_right fun hd => ⟨depth, hd⟩
  cases h with
  | null =>
    rcases hcases with hleaf | ⟨_, hopened⟩
    · cases hleaf with
      | null => exact .inl .null
      | number h => cases h
    · cases hopened
  | list h =>
    rcases hcases with hleaf | ⟨depth, hopened⟩
    · cases hleaf with
      | number h => cases h
    · cases hopened with
      | list hitems =>
        refine .inr (.list (hitems.imp (fun d hd text _ hspelled => ?_) (Nat.le_refl _)))
        obtain ⟨s, hs⟩ := exists_sendsText h d hd
        exact (hs.isLeaf hw hspelled).spelled depth'

theorem Sends.not_number {texts? : Option (List String)} (h : Sends d texts?) :
    ¬ IsNumber f d text := by
  rintro (_ | _) <;> cases h

end

/-! ## What is read from a body -/

/-- In the bytes of a body there are blanks, a document of some format that sends the expressions,
and whatever follows. -/
def IsSent (f : Format) (texts? : Option (List String)) (bytes : List UInt8) : Prop :=
  ∃ w text rest depth d, bytes = Utf8.bytesOf (w ++ (text ++ rest)) ∧ IsBlanks w ∧
    Spelled f depth d text ∧ Sends d texts?

/-- In the bytes of a body there are blanks, and then a text that is nested too deeply. -/
def IsTooDeep (bytes : List UInt8) : Prop :=
  ∃ w text, bytes = Utf8.bytesOf (w ++ text) ∧ IsBlanks w ∧ IsDeep digitLimit depthLimit text

variable {bytes : List UInt8} {texts? : Option (List String)}

/-- What is sent in any format is read. -/
theorem IsSent.readBody {f : Format} (h : IsSent f texts? bytes) : readBody bytes = .ok texts? := by
  obtain ⟨w, text, rest, depth, d, rfl, hw, hspelled, hsends⟩ := h
  have htorn := hsends.spelled (f.within_torn digitLimit) hspelled 989
  have hread : readFirst (skipBlanks (w ++ (text ++ rest))) = .ok d :=
    Spelled.readFirst hw htorn fun h => absurd h hsends.not_number
  exact bind_eq_ok.2 ⟨_, mapError_eq_ok.2 (Utf8.read_eq_ok_iff.2 rfl),
    bind_eq_ok.2 ⟨d, mapError_eq_ok.2 hread, sentTexts_eq_ok_iff.2 hsends⟩⟩

/-- What is read is sent in the format that the reader follows. -/
theorem isSent_of_readBody (h : readBody bytes = .ok texts?) :
    IsSent (.torn digitLimit) texts? bytes := by
  obtain ⟨cs, hcs, h⟩ := bind_eq_ok.1 h
  obtain ⟨d, hd, hsent⟩ := bind_eq_ok.1 h
  obtain ⟨w, text, rest, rfl, hw, hspelled⟩ := exists_spelled_of_readFirst (mapError_eq_ok.1 hd)
  exact ⟨w, text, rest, depthLimit, d, Utf8.read_eq_ok_iff.1 (mapError_eq_ok.1 hcs), hw, hspelled,
    sentTexts_eq_ok_iff.1 hsent⟩

theorem readBody_eq_tooDeep_iff :
    readBody bytes = .error (.document .tooDeep) ↔ IsTooDeep bytes := by
  constructor
  · intro h
    rcases bind_eq_error.1 h with h | ⟨cs, hcs, h⟩
    · obtain ⟨_, -, h⟩ := mapError_eq_error.1 h
      cases h
    rcases bind_eq_error.1 h with h | ⟨d, -, h⟩
    · obtain ⟨_, hread, h⟩ := mapError_eq_error.1 h
      cases h
      obtain ⟨w, text, rfl, hw, hdeep⟩ := readFirst_tooDeep_iff.1 hread
      exact ⟨w, text, Utf8.read_eq_ok_iff.1 (mapError_eq_ok.1 hcs), hw, hdeep⟩
    · cases eq_notTexts_of_sentTexts h
  · rintro ⟨w, text, rfl, hw, hdeep⟩
    have hread := readFirst_tooDeep_iff.2 ⟨w, text, rfl, hw, hdeep⟩
    exact bind_eq_error.2 (.inr ⟨_, mapError_eq_ok.2 (Utf8.read_eq_ok_iff.2 rfl),
      bind_eq_error.2 (.inl (mapError_eq_error.2 ⟨_, hread, rfl⟩))⟩)

/-- The list of a reply stands at its front as it may be sent. -/
theorem Reply.exists_body_eq {p : Reply} {texts : List String} (h : p.texts? = some texts) :
    ∃ rest, p.body =
      "\x7b\"exprs\":" ++ (Document.write embedded (.ofTexts texts) ++ rest) := by
  have hname : spellText embedded.plain "exprs" = "\"exprs\"" := by decide +kernel
  rw [Reply.body_eq_write, Reply.toDocument, Document.write, writeEntries_eq, List.map_cons,
    List.map_cons, String.intercalate_cons_cons, writeEntry, hname, h]
  simp only [String.append_assoc]
  exact ⟨_, rfl⟩

end Query

namespace Service

/-- A body without a list is refused, unless it is nested too deeply. -/
theorem reportOn_of_error {bytes : List UInt8} {fault : BodyFault}
    (h : readBody bytes = .error fault) (hfault : fault ≠ .document .tooDeep) :
    reportOn bytes = .ok (plainText 400 "invalid JSON body\n") := by
  unfold reportOn
  rw [h]
  split
  · rename_i heq
    cases heq
    exact absurd rfl hfault
  · rfl
  · rename_i heq
    cases heq

/-- A list of expressions is read back however it is spelled, between blanks and whatever follows,
and a reply spells its own list so. Something is read from the bytes of a body exactly if it sends a
list, where halves of characters may stand alone; if none does, the expressions that it sends are
what is read. Of the other bodies, those that are nested too deeply have no answer, and the rest is
refused. -/
theorem readBody_exact :
    (∀ (texts : List String) (w text rest : List Char) (f : Format) (depth : Nat), IsBlanks w →
      f.isWhole = true → Spelled f depth (.ofTexts texts) text →
        readBody (Utf8.bytesOf (w ++ (text ++ rest))) = .ok (some texts)) ∧
    (∀ (p : Query.Reply) (texts : List String), p.texts? = some texts →
      ∃ text after : String, p.body = "\x7b\"exprs\":" ++ (text ++ after) ∧
        Spelled .standard 1 (.ofTexts texts) text.toList ∧
        ∀ w rest : List Char, IsBlanks w →
          readBody (Utf8.bytesOf (w ++ (text.toList ++ rest))) = .ok (some texts)) ∧
    (∀ bytes, (∃ texts?, readBody bytes = .ok texts?) ↔
      ∃ texts?, IsSent (.torn digitLimit) texts? bytes) ∧
    (∀ bytes, (∃ texts?, IsSent (.lenient digitLimit) texts? bytes) →
      ∀ texts?, readBody bytes = .ok texts? ↔ IsSent (.lenient digitLimit) texts? bytes) ∧
    (∀ bytes, readBody bytes = .error (.document .tooDeep) ↔ IsTooDeep bytes) ∧
    (∀ bytes, (¬ ∃ texts?, IsSent (.torn digitLimit) texts? bytes) → ¬ IsTooDeep bytes →
      (∃ fault, readBody bytes = .error fault) ∧
        reportOn bytes = .ok (plainText 400 "invalid JSON body\n")) := by
  have hback : ∀ (texts : List String) (w text rest : List Char) (f : Format) (depth : Nat),
      IsBlanks w → Spelled f depth (.ofTexts texts) text →
        readBody (Utf8.bytesOf (w ++ (text ++ rest))) = .ok (some texts) :=
    fun texts w text rest f depth hw h =>
      IsSent.readBody ⟨w, text, rest, depth, .ofTexts texts, rfl, hw, h, sends_ofTexts texts⟩
  -- A torn text is read as well, but then the characters read are not all of those that it means.
  refine ⟨fun texts w text rest f depth hw _ h => hback texts w text rest f depth hw h,
    fun p texts h => ?_, fun bytes => ⟨?_, ?_⟩, fun bytes hsent texts? => ⟨fun h => ?_, ?_⟩,
    fun _ => readBody_eq_tooDeep_iff, fun bytes hsent hdeep => ?_⟩
  · obtain ⟨after, hbody⟩ := Reply.exists_body_eq h
    have hspelled := spelled_write isStandard_embedded (writable_ofTexts (f := .standard) texts 0)
    exact ⟨_, after, hbody, hspelled, fun w rest hw => hback texts w _ rest _ _ hw hspelled⟩
  · rintro ⟨texts?, h⟩
    exact ⟨texts?, isSent_of_readBody h⟩
  · rintro ⟨texts?, h⟩
    exact ⟨texts?, h.readBody⟩
  · obtain ⟨sent?, hsent⟩ := hsent
    rw [hsent.readBody] at h
    exact Except.ok.inj h ▸ hsent
  · exact IsSent.readBody
  · cases hread : readBody bytes with
    | ok texts? => exact absurd ⟨texts?, isSent_of_readBody hread⟩ hsent
    | error fault =>
      refine ⟨⟨fault, rfl⟩, reportOn_of_error hread ?_⟩
      rintro rfl
      exact hdeep (readBody_eq_tooDeep_iff.1 hread)

/-- A list with a number in it. -/
def numbered : List UInt8 := Utf8.bytesOf " [null, \"up\", 1] ".toList

/-- A list that is spelled with escapes, between blanks and more. -/
def escaped : List UInt8 :=
  Utf8.bytesOf ([' ', '\n'] ++ ("[\"\\u003ca\\u003e\",\"\\\\\"]".toList ++ "null]".toList))

theorem readBody_exact_marked :
    IsBlanks [' ', '\n'] ∧ Format.standard.isWhole = true ∧
      Spelled .standard 1 (.ofTexts ["<a>", "\\"]) "[\"\\u003ca\\u003e\",\"\\\\\"]".toList ∧
      readBody escaped = .ok (some ["<a>", "\\"]) ∧
      IsSent (.lenient digitLimit) (some ["<a>", "\\"]) escaped ∧
      (∀ texts?, readBody escaped = .ok texts? ↔ IsSent (.lenient digitLimit) texts? escaped) ∧
      (¬ ∃ texts?, IsSent (.torn digitLimit) texts? numbered) ∧ ¬ IsTooDeep numbered ∧
      reportOn numbered = .ok (plainText 400 "invalid JSON body\n") := by
  obtain ⟨hback, -, hsent, hwhole, hdeep, hrefused⟩ := readBody_exact
  have hblanks : IsBlanks [' ', '\n'] := by simp [IsBlanks, isBlankBetween]
  have htext : (Document.write embedded (.ofTexts ["<a>", "\\"])).toList =
      "[\"\\u003ca\\u003e\",\"\\\\\"]".toList := by decide +kernel
  have hspelled (f : Format) : Spelled f 1 (.ofTexts ["<a>", "\\"])
      "[\"\\u003ca\\u003e\",\"\\\\\"]".toList := by
    rw [← htext]
    exact spelled_write isStandard_embedded (writable_ofTexts _ 0)
  have hback := hback _ _ _ "null]".toList _ _ hblanks rfl (hspelled .standard)
  have hescaped : IsSent (.lenient digitLimit) (some ["<a>", "\\"]) escaped :=
    ⟨_, _, _, 1, _, rfl, hblanks, hspelled _, sends_ofTexts _⟩
  have hread : readBody numbered = .error .notTexts := by decide +kernel
  have hnot : ¬ ∃ texts?, IsSent (.torn digitLimit) texts? numbered := by
    intro h
    obtain ⟨texts?, hok⟩ := (hsent _).2 h
    rw [hok] at hread
    cases hread
  have hshallow : ¬ IsTooDeep numbered := by
    intro h
    rw [(hdeep _).2 h] at hread
    cases hread
  exact ⟨hblanks, rfl, hspelled _, hback, hescaped, hwhole _ ⟨_, hescaped⟩, hnot, hshallow,
    (hrefused numbered hnot hshallow).2⟩

end Service

end PanelExport
