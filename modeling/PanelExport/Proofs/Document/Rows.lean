import PanelExport.Proofs.Document.Characters

/-!
# Rows that are read

A list goes on only after an item that is in order, so where a row goes too deep is known along with
what is read from it. Both are shown for the items of any reader that has the same to say of one
item.

* `readBracketed_sound`, `readBracketed_complete`: what stands between brackets is read as it is
  spelled.
* `readBracketed_tooDeep_iff`: a row goes too deep where one of its items does.
-/

namespace PanelExport.Document

variable {α : Type} {cs : List Char} {limit : Nat}

/-! ## Blanks -/

/-- Blanks are skipped up to what is none. -/
theorem IsBlanks.skipBlanks_append {w rest : List Char} (hw : IsBlanks w)
    (hr : ∀ c ∈ rest.head?, isBlankBetween c = false) : skipBlanks (w ++ rest) = rest := by
  rw [skipBlanks, List.dropWhile_append_of_pos hw]
  cases rest with
  | nil => rfl
  | cons c rest => simp [hr c rfl]

theorem IsBlanks.skipBlanks_eq_nil {w : List Char} (hw : IsBlanks w) : skipBlanks w = [] := by
  have h : skipBlanks (w ++ []) = [] := hw.skipBlanks_append nofun
  rwa [List.append_nil] at h

/-- What is skipped in front of a text is blanks. -/
theorem exists_blanks (cs : List Char) : ∃ w, IsBlanks w ∧ cs = w ++ skipBlanks cs :=
  ⟨cs.takeWhile isBlankBetween, fun c hc => List.all_eq_true.1 (List.all_takeWhile ..) c hc,
    List.takeWhile_append_dropWhile.symm⟩

/-- A text goes on with something that is no blank and closes nothing. -/
def StartsItem (text : List Char) : Prop :=
  ∃ c rest, text = c :: rest ∧ isBlankBetween c = false ∧ c ≠ ']' ∧ c ≠ '\x7d'

/-- The character ends a row. -/
def IsClose (c : Char) : Prop := c = ']' ∨ c = '\x7d'

theorem StartsItem.append {text : List Char} (h : StartsItem text) (rest : List Char) :
    StartsItem (text ++ rest) := by
  obtain ⟨c, more, rfl, hc⟩ := h
  exact ⟨c, more ++ rest, rfl, hc⟩

/-- No item starts with a blank. -/
theorem StartsItem.not_blank {text : List Char} (h : StartsItem text) :
    ∀ c ∈ text.head?, isBlankBetween c = false := by
  obtain ⟨c, rest, rfl, hc, -⟩ := h
  rintro _ ⟨⟩
  exact hc

/-- No item starts with what closes a row. -/
theorem StartsItem.not_close {text : List Char} (h : StartsItem text) {close : Char}
    (hclose : IsClose close) : text.head? ≠ some close := by
  obtain ⟨c, rest, rfl, -, hb, hb'⟩ := h
  rintro ⟨⟩
  rcases hclose with rfl | rfl
  · exact hb rfl
  · exact hb' rfl

theorem endsNumber_nil : EndsNumber [] := nofun

/-- What ends an item ends a number. -/
theorem endsNumber_mark {c : Char} (hc : c = ',' ∨ IsClose c) (rest : List Char) :
    EndsNumber (c :: rest) := by
  rintro _ ⟨⟩
  rcases hc with rfl | rfl | rfl <;> exact ⟨rfl, by decide, by unfold IsPowerMark; decide⟩

/-- Blanks end a number. -/
theorem IsBlanks.endsNumber {w rest : List Char} (hw : IsBlanks w) (hr : EndsNumber rest) :
    EndsNumber (w ++ rest) := by
  cases w with
  | nil => exact hr
  | cons b w =>
    have hb := hw b (List.mem_cons_self ..)
    simp only [isBlankBetween, Bool.or_eq_true, beq_iff_eq] at hb
    rintro _ ⟨⟩
    rcases hb with ((rfl | rfl) | rfl) | rfl <;>
      exact ⟨rfl, by decide, by unfold IsPowerMark; decide⟩

/-! ## Rows -/

theorem reading_readRow (close : Char) (r : Reader α) (cs : List Char) :
    reading (readRow close r cs) = (do
      let (a, rest) ← reading (r cs)
      match skipBlanks rest with
      | c :: rest =>
        if c = close then return ([a], rest)
        else if c = ',' then
          let (others, rest) ← reading (readRow close r (skipBlanks rest))
          return (a :: others, rest)
        else throw (.malformed .comma (rest.length + 1))
      | [] => throw (.malformed .comma 0)) := by
  rw [readRow]
  cases r cs with
  | error fault => rfl
  | ok first =>
    simp only [reading_ok, bind, Except.bind]
    split
    · rename_i c rest h
      simp only [h]
      split
      · rfl
      · split
        · cases readRow close r (skipBlanks rest) <;> rfl
        · rfl
    · rename_i h
      rw [h]
      rfl

/-- A reader of the items of a row, what it reads, and where it complains about depth. -/
structure ReadsItem (r : Reader α) (item : α → List Char → Prop) (deep : List Char → Prop) :
    Prop extends Reads r EndsNumber item where
  starts {a : α} {text : List Char} (h : item a text) : StartsItem text
  deep_starts {cs : List Char} (h : deep cs) : StartsItem cs
  tooDeep_iff {cs : List Char} : r cs = .error .tooDeep ↔ deep cs

section

variable {r : Reader α} {item : α → List Char → Prop} {deep : List Char → Prop} {close : Char}
  (h : ReadsItem r item deep)

include h

/-- An item is read, and then what follows it. -/
theorem reading_item {a : α} {v text w : List Char} {c : Char} (hv : IsBlanks v)
    (ha : item a text) (hw : IsBlanks w) (hc : c = ',' ∨ IsClose c) (rest : List Char) :
    reading (r (skipBlanks (v ++ (text ++ (w ++ c :: rest))))) = .ok (a, w ++ c :: rest) ∧
      skipBlanks (w ++ c :: rest) = c :: rest := by
  have hblank : isBlankBetween c = false := by
    rcases hc with rfl | rfl | rfl <;> rfl
  rw [hv.skipBlanks_append ((h.starts ha).append _).not_blank]
  refine ⟨h.complete ha (hw.endsNumber (endsNumber_mark hc rest)), hw.skipBlanks_append ?_⟩
  rintro _ ⟨⟩
  exact hblank

/-- A row that is read stands in the text, in front of what closes it. -/
theorem reading_readRow_sound {as : List α} {rest : List Char}
    (hread : reading (readRow close r (skipBlanks cs)) = .ok (as, rest)) :
    ∃ text, cs = text ++ close :: rest ∧ IsRow item as text := by
  induction hn : cs.length using Nat.strongRecOn generalizing cs as with
  | ind n ih =>
    obtain ⟨v, hv, hcs⟩ := exists_blanks cs
    rw [reading_readRow] at hread
    obtain ⟨⟨a, more⟩, ha, hread⟩ := bind_eq_ok.1 hread
    obtain ⟨text, htext, hitem⟩ := h.sound ha
    obtain ⟨w, hw, hmore⟩ := exists_blanks more
    simp only at hread
    split at hread
    · rename_i c next hnext
      split at hread
      · rename_i hc
        cases hread
        refine ⟨v ++ (text ++ w), ?_, .one hv hitem hw⟩
        rw [hcs, htext, hmore, hnext, hc]
        simp only [List.append_assoc]
      · split at hread
        · rename_i hc
          obtain ⟨⟨as', rest'⟩, has, hread⟩ := bind_eq_ok.1 hread
          cases hread
          have hlength : next.length < n := by
            rw [← hn, hcs, htext, hmore, hnext]
            simp only [List.length_append, List.length_cons]
            omega
          obtain ⟨text', rfl, hrow⟩ := ih _ hlength has rfl
          refine ⟨v ++ (text ++ (w ++ ',' :: text')), ?_, .more hv hitem hw hrow⟩
          rw [hcs, htext, hmore, hnext, hc]
          simp only [List.append_assoc, List.cons_append]
        · cases hread
    · cases hread

/-- A row in front of what closes it is read. -/
theorem reading_readRow_complete (hclose : IsClose close) {as : List α} {text : List Char}
    (hrow : IsRow item as text) (rest : List Char) :
    reading (readRow close r (skipBlanks (text ++ close :: rest))) = .ok (as, rest) := by
  have hcomma : ',' ≠ close := by rcases hclose with rfl | rfl <;> decide
  induction hrow with
  | one hv ha hw =>
    obtain ⟨hitem, hnext⟩ := reading_item h hv ha hw (.inr hclose) rest
    rw [List.append_assoc, List.append_assoc, reading_readRow, hitem]
    simp only [bind, Except.bind, hnext, if_true]
    rfl
  | @more a as v text w row hv ha hw _ ih =>
    obtain ⟨hitem, hnext⟩ := reading_item h hv ha hw (.inl rfl) (row ++ close :: rest)
    rw [List.append_assoc, List.append_assoc, List.append_assoc, List.cons_append, reading_readRow,
      hitem]
    simp only [bind, Except.bind, hnext, if_neg hcomma, if_true, ih]
    rfl

/-- Where a row is nested too deeply, one of its items is, and those before it are in order. -/
theorem exists_lead_of_readRow (hread : readRow close r (skipBlanks cs) = .error .tooDeep) :
    ∃ lead rest, cs = lead ++ rest ∧ IsLead item lead ∧ deep rest := by
  induction hn : cs.length using Nat.strongRecOn generalizing cs with
  | ind n ih =>
    obtain ⟨v, hv, hcs⟩ := exists_blanks cs
    rw [← reading_eq_error, reading_readRow] at hread
    cases hr : reading (r (skipBlanks cs)) with
    | error fault =>
      rw [hr] at hread
      cases hread
      exact ⟨v, skipBlanks cs, hcs, .blanks hv, h.tooDeep_iff.1 (reading_eq_error.1 hr)⟩
    | ok p =>
      obtain ⟨a, more⟩ := p
      obtain ⟨text, htext, hitem⟩ := h.sound hr
      obtain ⟨w, hw, hmore⟩ := exists_blanks more
      rw [hr] at hread
      simp only [bind, Except.bind] at hread
      split at hread
      · rename_i c next hnext
        split at hread
        · cases hread
        · split at hread
          · rename_i hc
            have hlength : next.length < n := by
              rw [← hn, hcs, htext, hmore, hnext]
              simp only [List.length_append, List.length_cons]
              omega
            have hrow : readRow close r (skipBlanks next) = .error .tooDeep := by
              rw [← reading_eq_error]
              cases hrow : reading (readRow close r (skipBlanks next)) with
              | error fault =>
                rw [hrow] at hread
                cases hread
                rfl
              | ok p =>
                rw [hrow] at hread
                cases hread
            obtain ⟨lead, rest, rfl, hlead, hdeep⟩ := ih _ hlength hrow rfl
            refine ⟨v ++ (text ++ (w ++ ',' :: lead)), rest, ?_, .item hv hitem hw hlead, hdeep⟩
            rw [hcs, htext, hmore, hnext, hc]
            simp only [List.append_assoc, List.cons_append]
          · cases hread
      · cases hread

/-- A row is nested too deeply if an item behind some others is. -/
theorem readRow_of_lead (hclose : IsClose close) {lead rest : List Char} (hlead : IsLead item lead)
    (hdeep : deep rest) : readRow close r (skipBlanks (lead ++ rest)) = .error .tooDeep := by
  have hcomma : ',' ≠ close := by rcases hclose with rfl | rfl <;> decide
  rw [← reading_eq_error]
  induction hlead with
  | blanks hv =>
    rw [hv.skipBlanks_append (h.deep_starts hdeep).not_blank, reading_readRow,
      reading_eq_error.2 (h.tooDeep_iff.2 hdeep)]
    rfl
  | @item a v text w more hv ha hw _ ih =>
    obtain ⟨hitem, hnext⟩ := reading_item h hv ha hw (.inl rfl) (more ++ rest)
    rw [List.append_assoc, List.append_assoc, List.append_assoc, List.cons_append, reading_readRow,
      hitem]
    simp only [bind, Except.bind, hnext, if_neg hcomma, if_true, ih]

/-! ## Brackets -/

omit h in
theorem reading_readBracketed (close : Char) (r : Reader α) (cs : List Char) :
    reading (readBracketed close r cs) =
      if (skipBlanks cs).head? = some close then .ok ([], (skipBlanks cs).tail)
      else reading (readRow close r (skipBlanks cs)) := by
  unfold readBracketed
  simp only
  split
  · rename_i c rest h
    have hrow : reading (readRow close r (skipBlanks cs)) =
        reading (readRow close r (c :: rest)) := by
      rw [h]
    simp only [hrow, h, List.head?_cons, Option.some.injEq, List.tail_cons]
    split
    · rfl
    · cases readRow close r (c :: rest) <;> rfl
  · rename_i h
    have hrow : reading (readRow close r (skipBlanks cs)) = reading (readRow close r []) := by
      rw [h]
    simp only [hrow, h, List.head?_nil, reduceCtorEq, if_false]
    cases readRow close r [] <;> rfl

/-- What closes a row does not stand in front of its first item. -/
theorem head_row_ne (hclose : IsClose close) {as : List α} {text : List Char}
    (hrow : IsRow item as text) (rest : List Char) :
    (skipBlanks (text ++ rest)).head? ≠ some close := by
  cases hrow with
  | one hv ha =>
    rw [List.append_assoc, List.append_assoc,
      hv.skipBlanks_append ((h.starts ha).append _).not_blank]
    exact ((h.starts ha).append _).not_close hclose
  | more hv ha =>
    rw [List.append_assoc, List.append_assoc,
      hv.skipBlanks_append ((h.starts ha).append _).not_blank]
    exact ((h.starts ha).append _).not_close hclose

theorem head_lead_ne (hclose : IsClose close) {lead rest : List Char} (hlead : IsLead item lead)
    (hdeep : deep rest) : (skipBlanks (lead ++ rest)).head? ≠ some close := by
  cases hlead with
  | blanks hv =>
    rw [hv.skipBlanks_append (h.deep_starts hdeep).not_blank]
    exact (h.deep_starts hdeep).not_close hclose
  | item hv ha =>
    rw [List.append_assoc, List.append_assoc,
      hv.skipBlanks_append ((h.starts ha).append _).not_blank]
    exact ((h.starts ha).append _).not_close hclose

/-- What is read between brackets stands there. -/
theorem readBracketed_sound {as : List α} {rest : List Char}
    (hread : reading (readBracketed close r cs) = .ok (as, rest)) :
    ∃ text, cs = text ++ close :: rest ∧ IsBracketed item as text := by
  rw [reading_readBracketed] at hread
  split at hread
  · rename_i hhead
    obtain ⟨v, hv, hcs⟩ := exists_blanks cs
    obtain ⟨tail, htail⟩ := List.head?_eq_some_iff.1 hhead
    rw [htail] at hcs hread
    cases hread
    exact ⟨v, hcs, .none hv⟩
  · obtain ⟨text, hcs, hrow⟩ := reading_readRow_sound h hread
    exact ⟨text, hcs, .row hrow⟩

/-- What stands between brackets is read. -/
theorem readBracketed_complete (hclose : IsClose close) {as : List α} {text : List Char}
    (hitems : IsBracketed item as text) (rest : List Char) :
    reading (readBracketed close r (text ++ close :: rest)) = .ok (as, rest) := by
  rw [reading_readBracketed]
  cases hitems with
  | none hw =>
    have hblank : isBlankBetween close = false := by rcases hclose with rfl | rfl <;> rfl
    rw [hw.skipBlanks_append (by rintro _ ⟨⟩; exact hblank)]
    exact if_pos rfl
  | row hrow =>
    rw [if_neg (head_row_ne h hclose hrow _)]
    exact reading_readRow_complete h hclose hrow rest

/-- Between brackets, what is nested too deeply is an item behind others that are in order. -/
theorem readBracketed_tooDeep_iff (hclose : IsClose close) :
    readBracketed close r cs = .error .tooDeep ↔
      ∃ lead rest, cs = lead ++ rest ∧ IsLead item lead ∧ deep rest := by
  rw [← reading_eq_error, reading_readBracketed]
  constructor
  · intro hread
    split at hread
    · cases hread
    · exact exists_lead_of_readRow h (reading_eq_error.1 hread)
  · rintro ⟨lead, rest, rfl, hlead, hdeep⟩
    rw [if_neg (head_lead_ne h hclose hlead hdeep), reading_eq_error]
    exact readRow_of_lead h hclose hlead hdeep

end

end PanelExport.Document
