import PanelExport.Proofs.Document.Rows

/-!
# Documents that are read

The reader takes off the front of a text the one document that is spelled there, and complains about
the depth of a text exactly if the text goes too deep.

* `readsItem_nested`: documents are read as they are spelled, to any depth.
* `Spelled.unique`: a text spells one document, in whatever format.
* `readWhole_eq_ok_iff`, `readWhole_tooDeep_iff`: what a whole text is read as.
-/

namespace PanelExport.Document

variable {cs : List Char} {limit : Nat}

/-! ## Names with values -/

theorem reading_readMember (r : Reader Document) (body : List Char) :
    reading (readMember r ('"' :: body)) = (do
      let (name, rest) ← reading (readTextChars (body.length + 1) body)
      match skipBlanks rest with
      | ':' :: rest =>
        let (d, rest) ← reading (r (skipBlanks rest))
        return ((String.ofList name, d), rest)
      | other => throw (.malformed .colon other.length)) := by
  unfold readMember
  simp only [List.length_cons]
  cases readTextChars (body.length + 1) body with
  | error fault => rfl
  | ok name =>
    simp only [reading_ok, bind, Except.bind]
    split
    · rename_i rest h
      simp only [h]
      cases r (skipBlanks rest) <;> rfl
    · rename_i h
      split
      · rename_i h'
        exact absurd h' (h _)
      · rfl

theorem readMember_of_not {r : Reader Document} (h : ¬ ∃ body, cs = '"' :: body) :
    readMember r cs = .error (.malformed .name cs.length) := by
  unfold readMember
  split
  · exact absurd ⟨_, rfl⟩ h
  · rfl

/-- What stands in front of a value, and the value goes too deep. -/
def IsDeepMember (limit : Nat) (deep : List Char → Prop) (cs : List Char) : Prop :=
  ∃ name nameText v w rest, cs = nameText ++ (v ++ ':' :: (w ++ rest)) ∧
    IsQuoted (.torn limit) name nameText ∧ IsBlanks v ∧ IsBlanks w ∧ deep rest

/-- A name is read where it is spelled. -/
theorem IsQuoted.exists_reading {name : String} {text : List Char}
    (h : IsQuoted (.torn limit) name text) (rest : List Char) :
    ∃ body v, text ++ rest = '"' :: body ∧ name = String.ofList v ∧
      ∀ start, reading (readTextChars start body) = .ok (v, rest) := by
  obtain ⟨h⟩ := h
  refine ⟨_, _, ?_, rfl, fun start => h.reading⟩
  simp only [List.cons_append, List.append_assoc, List.nil_append]

/-- A quoted text starts with its quote. -/
theorem IsQuoted.startsItem {f : Format} {name : String} {text : List Char}
    (h : IsQuoted f name text) : StartsItem text := by
  obtain ⟨h⟩ := h
  exact ⟨_, _, rfl, by decide, by decide, by decide⟩

/-- A quoted text is spelled where one is read. -/
theorem exists_quoted {start : Nat} {v rest : List Char}
    (h : reading (readTextChars start cs) = .ok (v, rest)) :
    ∃ text, '"' :: cs = text ++ rest ∧ IsQuoted (.torn limit) (String.ofList v) text := by
  obtain ⟨text, rfl, hchars⟩ := exists_chars limit h
  exact ⟨_, by simp only [List.cons_append, List.append_assoc, List.nil_append], .quoted hchars⟩

theorem skipBlanks_colon {v : List Char} (hv : IsBlanks v) (rest : List Char) :
    skipBlanks (v ++ ':' :: rest) = ':' :: rest :=
  hv.skipBlanks_append (by rintro _ ⟨⟩; rfl)

section

variable {r : Reader Document} {item : Document → List Char → Prop} {deep : List Char → Prop}
  (h : ReadsItem r item deep)

include h

/-- A member that is read stands in the text. -/
theorem readMember_sound {e : String × Document} {rest : List Char}
    (hread : reading (readMember r cs) = .ok (e, rest)) :
    ∃ text, cs = text ++ rest ∧ IsMember (.torn limit) item e text := by
  by_cases hquote : ∃ body, cs = '"' :: body
  · obtain ⟨body, rfl⟩ := hquote
    rw [reading_readMember] at hread
    obtain ⟨⟨name, more⟩, hname, hread⟩ := bind_eq_ok.1 hread
    obtain ⟨nameText, hcs, hquoted⟩ := exists_quoted hname
    obtain ⟨v, hv, hmore⟩ := exists_blanks more
    simp only at hread
    split at hread
    · rename_i next hnext
      obtain ⟨⟨d, rest'⟩, hd, hread⟩ := bind_eq_ok.1 hread
      cases hread
      obtain ⟨w, hw, hvalue⟩ := exists_blanks next
      obtain ⟨text, htext, hitem⟩ := h.sound hd
      refine ⟨nameText ++ (v ++ ':' :: (w ++ text)), ?_, .member hquoted hv hw hitem⟩
      rw [hcs, hmore, hnext, hvalue, htext]
      simp only [List.append_assoc, List.cons_append]
    · cases hread
  · rw [readMember_of_not hquote] at hread
    cases hread

/-- A member is read in front of what ends a number. -/
theorem readMember_complete {e : String × Document} {text rest : List Char}
    (he : IsMember (.torn limit) item e text) (hr : EndsNumber rest) :
    reading (readMember r (text ++ rest)) = .ok (e, rest) := by
  obtain @⟨name, d, nameText, v, w, text, hname, hv, hw, hd⟩ := he
  rw [List.append_assoc, List.append_assoc, List.cons_append, List.append_assoc]
  obtain ⟨body, name, hbody, rfl, hread⟩ := hname.exists_reading _
  rw [hbody, reading_readMember, hread]
  simp only [bind, Except.bind, skipBlanks_colon hv]
  rw [hw.skipBlanks_append ((h.starts hd).append _).not_blank, h.complete hd hr]
  rfl

/-- A member is nested too deeply just if its value is, behind a name and a colon. -/
theorem readMember_tooDeep_iff :
    readMember r cs = .error .tooDeep ↔ IsDeepMember limit deep cs := by
  rw [← reading_eq_error]
  constructor
  · intro hread
    by_cases hquote : ∃ body, cs = '"' :: body
    · obtain ⟨body, rfl⟩ := hquote
      rw [reading_readMember] at hread
      cases hname : reading (readTextChars (body.length + 1) body) with
      | error fault =>
        rw [hname] at hread
        cases hread
        exact absurd (reading_eq_error.1 hname) readTextChars_ne_tooDeep
      | ok p =>
        obtain ⟨name, more⟩ := p
        obtain ⟨nameText, hcs, hquoted⟩ := exists_quoted hname
        obtain ⟨v, hv, hmore⟩ := exists_blanks more
        rw [hname] at hread
        simp only [bind, Except.bind] at hread
        split at hread
        · rename_i next hnext
          obtain ⟨w, hw, hvalue⟩ := exists_blanks next
          refine ⟨_, nameText, v, w, skipBlanks next, ?_, hquoted, hv, hw, ?_⟩
          · rw [hcs, hmore, hnext, ← hvalue]
          · cases hd : reading (r (skipBlanks next)) with
            | error fault =>
              rw [hd] at hread
              cases hread
              exact h.tooDeep_iff.1 (reading_eq_error.1 hd)
            | ok p =>
              rw [hd] at hread
              cases hread
        · cases hread
    · rw [readMember_of_not hquote] at hread
      cases hread
  · rintro ⟨name, nameText, v, w, rest, rfl, hname, hv, hw, hdeep⟩
    obtain ⟨body, name, hbody, rfl, hread⟩ := hname.exists_reading _
    rw [hbody, reading_readMember, hread]
    simp only [bind, Except.bind, skipBlanks_colon hv]
    rw [hw.skipBlanks_append (h.deep_starts hdeep).not_blank,
      reading_eq_error.2 (h.tooDeep_iff.2 hdeep)]

/-- Names with values are read as they are spelled. -/
theorem readsItem_member :
    ReadsItem (readMember r) (IsMember (.torn limit) item) (IsDeepMember limit deep) where
  sound := readMember_sound h
  complete := readMember_complete h
  starts he := by
    obtain ⟨hname, -, -, -⟩ := he
    exact hname.startsItem.append _
  deep_starts hd := by
    obtain ⟨name, nameText, v, w, rest, rfl, hname, -⟩ := hd
    exact hname.startsItem.append _
  tooDeep_iff := readMember_tooDeep_iff h

end

/-! ## Documents -/

theorem startsItem_of_digit {negative : Bool} {c : Char} (hc : c.isDigit = true)
    (more : List Char) : StartsItem (signText negative ++ c :: more) := by
  cases negative with
  | true => exact ⟨'-', c :: more, rfl, rfl, by decide, by decide⟩
  | false =>
    have hne : c ≠ ']' ∧ c ≠ '\x7d' := by
      constructor <;> rintro rfl <;> cases hc
    refine ⟨c, more, rfl, ?_, hne⟩
    rw [Bool.eq_false_iff]
    intro hb
    simp only [isBlankBetween, Bool.or_eq_true, beq_iff_eq] at hb
    rcases hb with ((rfl | rfl) | rfl) | rfl <;> cases hc

/-- What is neither a list nor an object starts with no blank and no bracket that closes. -/
theorem IsLeaf.startsItem {f : Format} {d : Document} {text : List Char} (h : IsLeaf f d text) :
    StartsItem text := by
  cases h with
  | number h =>
    obtain ⟨negative, c, more, rfl, hc⟩ := h.exists_digit
    exact startsItem_of_digit hc more
  | text h => exact h.startsItem
  | _ => exact ⟨_, _, rfl, by decide, by decide, by decide⟩

/-- No document starts with a blank or a bracket that closes. -/
theorem Spelled.startsItem {f : Format} {depth : Nat} {d : Document} {text : List Char}
    (h : Spelled f depth d text) : StartsItem text := by
  cases depth with
  | zero => exact IsLeaf.startsItem h
  | succ depth =>
    rcases h with h | h
    · exact h.startsItem
    · cases h <;> exact ⟨_, _, rfl, by decide, by decide, by decide⟩

theorem IsDeep.startsItem {depth : Nat} (h : IsDeep limit depth cs) : StartsItem cs := by
  have hopen : ∃ rest, cs = '[' :: rest ∨ cs = '\x7b' :: rest := by
    cases depth with
    | zero => exact h
    | succ depth =>
      rcases h with ⟨lead, rest, rfl, -⟩ | ⟨lead, name, nameText, v, w, rest, rfl, -⟩
      · exact ⟨_, .inl rfl⟩
      · exact ⟨_, .inr rfl⟩
  obtain ⟨rest, rfl | rfl⟩ := hopen <;> exact ⟨_, _, rfl, by decide, by decide, by decide⟩

section

variable {item : Except ReadFault (Reader Document)}

theorem reading_readWith_text (body : List Char) :
    reading (readWith limit item ('"' :: body)) =
      (reading (readTextChars (body.length + 1) body)).map
        fun p => (.text (String.ofList p.1), p.2) := by
  simp only [readWith]
  cases readTextChars (body.length + 1) body <;> rfl

theorem reading_readWith_list (r : Reader Document) (body : List Char) :
    reading (readWith limit (.ok r) ('[' :: body)) =
      (reading (readBracketed ']' r body)).map fun p => (.list p.1, p.2) := by
  simp only [readWith, bind, Except.bind]
  cases readBracketed ']' r body <;> rfl

theorem reading_readWith_object (r : Reader Document) (body : List Char) :
    reading (readWith limit (.ok r) ('\x7b' :: body)) =
      (reading (readBracketed '\x7d' (readMember r) body)).map
        fun p => (.object (ofEntries p.1), p.2) := by
  simp only [readWith, bind, Except.bind]
  cases readBracketed '\x7d' (readMember r) body <;> rfl

theorem readWith_number {negative : Bool} {c : Char} (hc : c.isDigit = true) (more : List Char) :
    readWith limit item (signText negative ++ c :: more) =
      readNumber limit (signText negative ++ c :: more) := by
  have hhead : ∀ {b : Char} {rest : List Char}, signText negative ++ c :: more = b :: rest →
      b = '-' ∧ rest = c :: more ∨ b.isDigit = true := by
    intro b rest h
    cases negative with
    | true => exact .inl ⟨(List.cons.inj h).1.symm, (List.cons.inj h).2.symm⟩
    | false => exact .inr ((List.cons.inj h).1 ▸ hc)
  rw [readWith]
  case x_9 =>
    intro rest h
    rcases hhead h with ⟨-, h⟩ | h
    · rw [← (List.cons.inj h).1] at hc
      cases hc
    · cases h
  all_goals
    intro rest h
    rcases hhead h with ⟨h, -⟩ | h <;> cases h

/-- What is read is a leaf, a list or an object. -/
theorem readWith_eq_ok {d : Document} {rest : List Char}
    (h : reading (readWith limit item cs) = .ok (d, rest)) :
    (∃ text, cs = text ++ rest ∧ IsLeaf (.torn limit) d text) ∨
    (∃ r body ds, item = .ok r ∧ cs = '[' :: body ∧ d = .list ds ∧
      reading (readBracketed ']' r body) = .ok (ds, rest)) ∨
    (∃ r body es, item = .ok r ∧ cs = '\x7b' :: body ∧ d = .object (ofEntries es) ∧
      reading (readBracketed '\x7d' (readMember r) body) = .ok (es, rest)) := by
  obtain ⟨x, hx, rfl, rfl⟩ := reading_eq_ok.1 h
  unfold readWith at hx
  split at hx
  · rename_i body
    obtain ⟨text, htext, hx⟩ := bind_eq_ok.1 hx
    cases hx
    obtain ⟨quoted, hbody, hquoted⟩ := exists_quoted (reading_eq_ok.2 ⟨text, htext, rfl, rfl⟩)
    exact .inl ⟨quoted, hbody, .text hquoted⟩
  · rename_i body
    obtain ⟨r, hr, hx⟩ := bind_eq_ok.1 hx
    obtain ⟨items, hitems, hx⟩ := bind_eq_ok.1 hx
    cases hx
    exact .inr (.inl ⟨r, body, _, hr, rfl, rfl, reading_eq_ok.2 ⟨items, hitems, rfl, rfl⟩⟩)
  · rename_i body
    obtain ⟨r, hr, hx⟩ := bind_eq_ok.1 hx
    obtain ⟨members, hmembers, hx⟩ := bind_eq_ok.1 hx
    cases hx
    exact .inr (.inr ⟨r, body, _, hr, rfl, rfl, reading_eq_ok.2 ⟨members, hmembers, rfl, rfl⟩⟩)
  · cases hx
    exact .inl ⟨_, rfl, .null⟩
  · cases hx
    exact .inl ⟨_, rfl, .true⟩
  · cases hx
    exact .inl ⟨_, rfl, .false⟩
  · cases hx
    exact .inl ⟨_, rfl, .nan nofun⟩
  · cases hx
    exact .inl ⟨_, rfl, .infinity nofun⟩
  · cases hx
    exact .inl ⟨_, rfl, .minusInfinity nofun⟩
  · obtain ⟨text, hcs, hnumber⟩ :=
      (reads_number limit).sound (reading_eq_ok.2 ⟨x, hx, rfl, rfl⟩)
    exact .inl ⟨text, hcs, .number hnumber⟩

/-- A leaf is read, if what follows a number ends it. -/
theorem readWith_leaf {d : Document} {text rest : List Char} (h : IsLeaf (.torn limit) d text)
    (hr : IsNumber (.torn limit) d text → EndsNumber rest) :
    reading (readWith limit item (text ++ rest)) = .ok (d, rest) := by
  cases h with
  | number h =>
    have hread := (reads_number limit).complete h (hr h)
    obtain ⟨negative, c, more, rfl, hc⟩ := h.exists_digit
    rw [List.append_assoc, List.cons_append] at hread ⊢
    rw [readWith_number hc]
    exact hread
  | text h =>
    obtain ⟨body, v, hbody, rfl, hread⟩ := h.exists_reading rest
    rw [hbody, reading_readWith_text, hread]
    rfl
  | _ => rfl

/-- Only a list or an object is nested too deeply. -/
theorem readWith_tooDeep (h : readWith limit item cs = .error .tooDeep) :
    (∃ body, cs = '[' :: body ∧ ∀ r, item = .ok r → readBracketed ']' r body = .error .tooDeep) ∨
    (∃ body, cs = '\x7b' :: body ∧
      ∀ r, item = .ok r → readBracketed '\x7d' (readMember r) body = .error .tooDeep) := by
  unfold readWith at h
  split at h
  · rename_i body
    cases htext : readTextChars (body.length + 1) body with
    | error fault =>
      rw [htext] at h
      cases h
      exact absurd htext readTextChars_ne_tooDeep
    | ok text =>
      rw [htext] at h
      cases h
  · rename_i body
    refine .inl ⟨body, rfl, ?_⟩
    rintro r rfl
    simp only [bind, Except.bind] at h
    cases hitems : readBracketed ']' r body with
    | error fault =>
      rw [hitems] at h
      cases h
      rfl
    | ok items =>
      rw [hitems] at h
      cases h
  · rename_i body
    refine .inr ⟨body, rfl, ?_⟩
    rintro r rfl
    simp only [bind, Except.bind] at h
    cases hmembers : readBracketed '\x7d' (readMember r) body with
    | error fault =>
      rw [hmembers] at h
      cases h
      rfl
    | ok members =>
      rw [hmembers] at h
      cases h
  · cases h
  · cases h
  · cases h
  · cases h
  · cases h
  · cases h
  · exact absurd h readNumber_ne_tooDeep

end

section

variable {r : Reader Document} {depth : Nat}
  (h : ReadsItem r (Spelled (.torn limit) depth) (IsDeep limit depth))

include h

/-- What is read is spelled in the text. -/
theorem readWith_sound {d : Document} {rest : List Char}
    (hread : reading (readWith limit (.ok r) cs) = .ok (d, rest)) :
    ∃ text, cs = text ++ rest ∧ Spelled (.torn limit) (depth + 1) d text := by
  rcases readWith_eq_ok hread with ⟨text, hcs, hleaf⟩ | ⟨_, body, ds, hr, rfl, rfl, hitems⟩ |
    ⟨_, body, es, hr, rfl, rfl, hmembers⟩
  · exact ⟨text, hcs, .inl hleaf⟩
  · cases hr
    obtain ⟨text, rfl, hspelled⟩ := readBracketed_sound h hitems
    exact ⟨'[' :: (text ++ [']']), by simp, .inr (.list hspelled)⟩
  · cases hr
    obtain ⟨text, rfl, hspelled⟩ := readBracketed_sound (readsItem_member h) hmembers
    exact ⟨'\x7b' :: (text ++ ['\x7d']), by simp, .inr (.object hspelled nofun)⟩

/-- A list or an object is read, whatever follows it. -/
theorem readWith_opened {d : Document} {text : List Char}
    (hd : IsOpened (.torn limit) (Spelled (.torn limit) depth) d text) (rest : List Char) :
    reading (readWith limit (.ok r) (text ++ rest)) = .ok (d, rest) := by
  cases hd with
  | list hitems =>
    rw [List.cons_append, List.append_assoc, List.singleton_append, reading_readWith_list,
      readBracketed_complete h (.inl rfl) hitems]
    rfl
  | object hmembers =>
    rw [List.cons_append, List.append_assoc, List.singleton_append, reading_readWith_object,
      readBracketed_complete (readsItem_member h) (.inr rfl) hmembers]
    rfl

/-- A text is nested too deeply just if it opens one bracket more than may be open. -/
theorem readWith_tooDeep_iff :
    readWith limit (.ok r) cs = .error .tooDeep ↔ IsDeep limit (depth + 1) cs := by
  constructor
  · intro hread
    rcases readWith_tooDeep hread with ⟨body, rfl, hbody⟩ | ⟨body, rfl, hbody⟩
    · obtain ⟨lead, rest, rfl, hlead, hdeep⟩ :=
        (readBracketed_tooDeep_iff h (.inl rfl)).1 (hbody r rfl)
      exact .inl ⟨lead, rest, rfl, hlead, hdeep⟩
    · obtain ⟨lead, _, rfl, hlead, name, nameText, v, w, rest, rfl, hname, hv, hw, hdeep⟩ :=
        (readBracketed_tooDeep_iff (readsItem_member h) (.inr rfl)).1 (hbody r rfl)
      exact .inr ⟨lead, name, nameText, v, w, rest, rfl, hlead, hname, hv, hw, hdeep⟩
  · rw [← reading_eq_error]
    rintro (⟨lead, rest, rfl, hlead, hdeep⟩ |
      ⟨lead, name, nameText, v, w, rest, rfl, hlead, hname, hv, hw, hdeep⟩)
    · rw [reading_readWith_list, reading_eq_error.2 ((readBracketed_tooDeep_iff h (.inl rfl)).2
        ⟨lead, rest, rfl, hlead, hdeep⟩)]
      rfl
    · rw [reading_readWith_object, reading_eq_error.2
        ((readBracketed_tooDeep_iff (readsItem_member h) (.inr rfl)).2
          ⟨lead, _, rfl, hlead, name, nameText, v, w, rest, rfl, hname, hv, hw, hdeep⟩)]
      rfl

end

/-- Documents are read as they are spelled, to any depth. -/
theorem readsItem_nested (limit depth : Nat) :
    ReadsItem (readNested limit depth) (Spelled (.torn limit) depth) (IsDeep limit depth) := by
  induction depth with
  | zero =>
    refine ⟨⟨fun hread => ?_, fun h hr => readWith_leaf h fun _ => hr⟩, Spelled.startsItem,
      IsDeep.startsItem, fun hread => ?_, ?_⟩
    · rcases readWith_eq_ok hread with ⟨text, hcs, hleaf⟩ | ⟨_, _, _, hr, -⟩ | ⟨_, _, _, hr, -⟩
      · exact ⟨text, hcs, hleaf⟩
      · cases hr
      · cases hr
    · rcases readWith_tooDeep hread with ⟨body, rfl, -⟩ | ⟨body, rfl, -⟩
      · exact ⟨body, .inl rfl⟩
      · exact ⟨body, .inr rfl⟩
    · rintro ⟨body, rfl | rfl⟩ <;> rfl
  | succ depth ih =>
    refine ⟨⟨readWith_sound ih, fun h hr => ?_⟩, Spelled.startsItem, IsDeep.startsItem,
      readWith_tooDeep_iff ih⟩
    rcases h with h | h
    · exact readWith_leaf h fun _ => hr
    · exact readWith_opened ih h _

/-- What is spelled is read in front of anything that does not go on with a number. -/
theorem Spelled.reading {depth : Nat} {d : Document} {text rest : List Char}
    (h : Spelled (.torn limit) depth d text)
    (hr : IsNumber (.torn limit) d text → EndsNumber rest) :
    reading (readNested limit depth (text ++ rest)) = .ok (d, rest) := by
  cases depth with
  | zero => exact readWith_leaf h hr
  | succ depth =>
    rcases h with h | h
    · exact readWith_leaf h hr
    · exact readWith_opened (readsItem_nested limit depth) h rest

/-- A text spells one document, in whatever format. -/
theorem Spelled.unique {f f' : Format} {depth depth' : Nat} {d d' : Document} {text : List Char}
    (h : Spelled f depth d text) (h' : Spelled f' depth' d' text) : d = d' := by
  have hread := (h.mono (f.within_torn _) (Nat.le_max_left depth depth') (Nat.le_refl _)).reading
    fun _ => endsNumber_nil
  have hread' := (h'.mono (f'.within_torn _) (Nat.le_max_right depth depth')
    (Nat.le_refl _)).reading fun _ => endsNumber_nil
  rw [hread] at hread'
  cases hread'
  rfl

/-! ## The document at the front of a text -/

/-- What is read at the front of a text stands there. -/
theorem exists_spelled_of_readFirst {d : Document} (h : readFirst (skipBlanks cs) = .ok d) :
    ∃ w text rest, cs = w ++ (text ++ rest) ∧ IsBlanks w ∧
      Spelled (.torn digitLimit) depthLimit d text := by
  obtain ⟨r, hr, rfl⟩ := exceptMap_eq_ok.1 h
  obtain ⟨text, htext, hspelled⟩ :=
    (readsItem_nested digitLimit depthLimit).sound (reading_eq_ok.2 ⟨r, hr, rfl, rfl⟩)
  obtain ⟨w, hw, hcs⟩ := exists_blanks cs
  exact ⟨w, text, r.rest, htext ▸ hcs, hw, hspelled⟩

/-- What stands at the front of a text is read, unless it is a number that goes on. -/
theorem Spelled.readFirst {d : Document} {w text rest : List Char} (hw : IsBlanks w)
    (h : Spelled (.torn digitLimit) depthLimit d text)
    (hr : IsNumber (.torn digitLimit) d text → EndsNumber rest) :
    readFirst (skipBlanks (w ++ (text ++ rest))) = .ok d := by
  rw [hw.skipBlanks_append (h.startsItem.append rest).not_blank]
  obtain ⟨r, hread, hvalue, -⟩ := reading_eq_ok.1 (h.reading hr)
  exact exceptMap_eq_ok.2 ⟨r, hread, hvalue⟩

/-- Behind blanks, the same for the front of a text. -/
theorem readFirst_tooDeep_iff :
    readFirst (skipBlanks cs) = .error .tooDeep ↔
      ∃ w text, cs = w ++ text ∧ IsBlanks w ∧ IsDeep digitLimit depthLimit text := by
  rw [readFirst, exceptMap_eq_error, (readsItem_nested digitLimit depthLimit).tooDeep_iff]
  constructor
  · intro h
    obtain ⟨w, hw, hcs⟩ := exists_blanks cs
    exact ⟨w, _, hcs, hw, h⟩
  · rintro ⟨w, text, rfl, hw, h⟩
    rwa [hw.skipBlanks_append h.startsItem.not_blank]

/-! ## Whole texts -/

/-- A whole text is read as a document if it spells the document, but for blanks around it. -/
theorem readWhole_eq_ok_iff {d : Document} :
    readWhole cs = .ok d ↔ ∃ v text w, cs = v ++ (text ++ w) ∧ IsBlanks v ∧ IsBlanks w ∧
      Spelled (.torn digitLimit) depthLimit d text := by
  constructor
  · intro h
    obtain ⟨r, hr, h⟩ := bind_eq_ok.1 h
    obtain ⟨text, htext, hspelled⟩ :=
      (readsItem_nested digitLimit depthLimit).sound (reading_eq_ok.2 ⟨r, hr, rfl, rfl⟩)
    obtain ⟨v, hv, hcs⟩ := exists_blanks cs
    obtain ⟨w, hw, hrest⟩ := exists_blanks r.rest
    split at h
    · rename_i hend
      cases h
      rw [hend, List.append_nil] at hrest
      exact ⟨v, text, w, by rw [hcs, htext, hrest], hv, hw, hspelled⟩
    · cases h
  · rintro ⟨v, text, w, rfl, hv, hw, hspelled⟩
    have hends := hw.endsNumber endsNumber_nil
    rw [List.append_nil] at hends
    have hblank := hw.skipBlanks_eq_nil
    obtain ⟨r, hr, hvalue, hrest⟩ := reading_eq_ok.1 (hspelled.reading fun _ => hends)
    rw [readWhole, hv.skipBlanks_append (hspelled.startsItem.append _).not_blank, hr]
    simp only [bind, Except.bind, hrest, hblank, hvalue]
    rfl

/-- A text is nested too deeply if it opens too many brackets, whatever follows. -/
theorem readWhole_tooDeep_iff :
    readWhole cs = .error .tooDeep ↔
      ∃ v text, cs = v ++ text ∧ IsBlanks v ∧ IsDeep digitLimit depthLimit text := by
  rw [← readFirst_tooDeep_iff, readFirst, exceptMap_eq_error]
  constructor
  · intro h
    rcases bind_eq_error.1 h with h | ⟨r, -, h⟩
    · exact h
    · split at h <;> cases h
  · exact fun h => bind_eq_error.2 (.inl h)

end PanelExport.Document
