import Mathlib.Data.List.TakeDrop
import Mathlib.Data.List.TakeWhile
import PanelExport.Proofs.Outcome
import PanelExport.Proofs.Text.Percent
import PanelExport.Remote.Request

/-!
# Segments of addresses

A segment that is put behind an address that ends with a slash stays where it is put: it goes on
with the last part of the address, whichever that is, and all other parts stay as they are. Only
points do not: they are dropped with the slash in front of them, and two of them take the part
before along.

* `Address.ofText_eq_ok_iff`: an address in terms of the parts of its text.
* `Address.ofText_append_eq_ok_iff`: the address of a text with a segment behind it.
* `Server.dashboardRequest_segment`: where the request for a dashboard goes.
* `Server.dashboardRequest_redirected`: where the one for two points goes.
-/

namespace PanelExport

/-! ## Rows in two parts -/

variable {α : Type} {p : α → Bool} {xs ys : List α}

theorem span_append_of_stop (h : ∃ x ∈ xs, p x = false) (ys : List α) :
    (xs ++ ys).span p = ((xs.span p).1, (xs.span p).2 ++ ys) := by
  obtain ⟨x, hx, hstop⟩ := h
  have htake : (xs.takeWhile p).length ≠ xs.length := fun hlength => by
    have hall := List.takeWhile_eq_self_iff.1 ((List.takeWhile_prefix p).eq_of_length hlength)
    rw [hall x hx] at hstop
    cases hstop
  have hdrop : (xs.dropWhile p).isEmpty ≠ true := fun hempty => by
    have hall := List.dropWhile_eq_nil_iff.1 (List.isEmpty_iff.1 hempty)
    rw [hall x hx] at hstop
    cases hstop
  simp only [List.span_eq_takeWhile_dropWhile, List.takeWhile_append, List.dropWhile_append,
    if_neg htake, if_neg hdrop]

theorem span_of_all (h : ∀ x ∈ xs, p x = true) : xs.span p = (xs, []) := by
  rw [List.span_eq_takeWhile_dropWhile, List.takeWhile_eq_self_iff.2 h,
    List.dropWhile_eq_nil_iff.2 h]

/-- Where a row stops belonging to a class, it goes on with something outside. -/
theorem exists_cons_span (h : ∃ x ∈ xs, p x = false) :
    ∃ x rest, (xs.span p).2 = x :: rest ∧ p x = false := by
  rw [List.span_eq_takeWhile_dropWhile]
  induction xs with
  | nil =>
    obtain ⟨_, hx, -⟩ := h
    cases hx
  | cons y ys ih =>
    cases hy : p y with
    | false => exact ⟨y, ys, List.dropWhile_cons_of_neg (by simp [hy]), hy⟩
    | true =>
      obtain ⟨x, hx, hstop⟩ := h
      have hmem : x ∈ ys := (List.mem_cons.1 hx).resolve_left fun heq => by
        rw [heq, hy] at hstop
        cases hstop
      rw [List.dropWhile_cons_of_pos hy]
      exact ih ⟨x, hmem, hstop⟩

namespace Address

/-! ## The parts of an address -/

/-- The parts of a text that is read as an address. Query and fragment stand with their marks. -/
structure Parts where
  scheme : List Char
  authority : List Char
  path : List Char
  query : List Char
  fragment : List Char

/-- The parts with the path, the query and the fragment of what stands behind the authority. -/
def Parts.ofRest (scheme authority cs : List Char) : Parts :=
  let (path, cs) := cs.span fun c => c ≠ '?' && c ≠ '#'
  let (query, fragment) := cs.span (· ≠ '#')
  ⟨scheme, authority, path, query, fragment⟩

/-- The parts of a text. -/
def partsOf (cs : List Char) : Parts :=
  let (scheme, cs) := spanScheme cs
  let (authority, cs) := spanAuthority cs
  .ofRest scheme authority cs

/-- Whose address it is: the user, the host and the number behind it. -/
structure Origin where
  user : List Char
  host : String
  portNumber? : Option Int

/-- The origin that an authority names. -/
def readOrigin (scheme authority : List Char) : Except AddressFault Origin := do
  let (user, authority) := spanUser authority
  let (host, rest) := spanHost authority
  let host ← readHost host
  let portNumber? ← readPortNumber (String.ofList scheme) ((behind? ':' rest).getD rest)
  return ⟨user, host, portNumber?⟩

/-- The address without a scheme and a host. -/
def Parts.isRelative (p : Parts) (o : Origin) : Bool :=
  p.scheme.isEmpty && o.user.isEmpty && o.host = "" && o.portNumber?.isNone

/-- The address that parts make, with the origin that was read. -/
def Parts.address (p : Parts) (o : Origin) : Address where
  scheme := (String.ofList p.scheme).toLower
  user := percentQuoted isUserChar (String.ofList o.user)
  host := o.host
  portNumber? := o.portNumber?
  path := percentQuoted isPathChar
    (String.ofList (if p.isRelative o then p.path else withoutPoints p.path))
  query? := (behind? '?' p.query).map fun q => percentQuoted isQueryChar (String.ofList q)
  fragment? := (behind? '#' p.fragment).map fun f =>
    percentQuoted isFragmentChar (String.ofList f)

theorem ofText_eq_ok_iff {text : String} {a : Address} : ofText text = .ok a ↔
    charFault? text.toList = none ∧ ∃ o,
      readOrigin (partsOf text.toList).scheme (partsOf text.toList).authority = .ok o ∧
      ((partsOf text.toList).isRelative o = true → pathFault? (partsOf text.toList).path = none) ∧
      a = (partsOf text.toList).address o := by
  unfold ofText partsOf Parts.ofRest readOrigin Parts.address Parts.isRelative
  rcases spanScheme text.toList with ⟨scheme, behindScheme⟩
  dsimp only
  rcases spanAuthority behindScheme with ⟨authority, behindAuthority⟩
  dsimp only
  rcases behindAuthority.span fun c => c ≠ '?' && c ≠ '#' with ⟨path, behindPath⟩
  dsimp only
  rcases behindPath.span (· ≠ '#') with ⟨query, fragment⟩
  rcases spanUser authority with ⟨user, behindUser⟩
  dsimp only
  rcases spanHost behindUser with ⟨hostChars, behindHost⟩
  dsimp only
  cases charFault? text.toList with
  | some fault => exact iff_of_false (fun h => by cases h) (fun h => by cases h.1)
  | none =>
    rw [and_iff_right rfl]
    cases readHost hostChars with
    | error fault =>
      exact iff_of_false (fun h => by cases h) fun ⟨_, h, _⟩ => by cases h
    | ok host =>
      cases readPortNumber (String.ofList scheme) ((behind? ':' behindHost).getD behindHost) with
      | error fault =>
        exact iff_of_false (fun h => by cases h) fun ⟨_, h, _⟩ => by cases h
      | ok portNumber? =>
        simp only [bind, Except.bind, pure, Except.pure, Except.ok.injEq, exists_eq_left']
        generalize (scheme.isEmpty && user.isEmpty && decide (host = "") &&
          portNumber?.isNone) = relative
        cases relative with
        | false => simp [eq_comm]
        | true =>
          cases pathFault? path with
          | none => simp [eq_comm]
          | some fault => exact iff_of_false (fun h => by cases h) fun h => by cases h.1 rfl

/-! ## What goes on at the end -/

/-- The parts with a row behind the last one that is there. -/
def Parts.followedBy (p : Parts) (s : List Char) : Parts :=
  if p.fragment ≠ [] then { p with fragment := p.fragment ++ s }
  else if p.query ≠ [] then { p with query := p.query ++ s }
  else { p with path := p.path ++ s }

/-- The address with a text behind the last part that is there. -/
def followedBy (a : Address) (s : String) : Address :=
  match a.fragment?, a.query? with
  | some fragment, _ => { a with fragment? := some (fragment ++ s) }
  | none, some query => { a with query? := some (query ++ s) }
  | none, none => { a with path := a.path ++ s }

/-- A segment that is put behind a slash and leads nowhere else: no points alone. -/
structure IsPlace (s : List Char) : Prop where
  chars : ∀ c ∈ s, isSegmentChar c = true
  not_here : s ≠ ['.']
  not_up : s ≠ ['.', '.']

/-- The last part of an address, which ends with a slash if it is the path. -/
inductive Parts.EndsOpen (p : Parts) : Prop where
  | path (query : p.query = []) (fragment : p.fragment = []) (slash : p.path.getLast? = some '/')
  | query {q : List Char} (query : p.query = '?' :: q) (fragment : p.fragment = [])
  | fragment {f : List Char} (fragment : p.fragment = '#' :: f)

/-! ## The characters of segments -/

/-- The characters of segments stand for themselves in every part of an address, and mark none. -/
theorem isSegmentChar_plain {c : Char} (h : isSegmentChar c = true) :
    isPathChar c = true ∧ isQueryChar c = true ∧ isFragmentChar c = true ∧ isControl c = false ∧
      c ∉ ['/', '?', '#', ':'] := by
  have hall : ∀ n : Fin 128, isSegmentChar (Char.ofNat n.val) = true →
      isPathChar (Char.ofNat n.val) = true ∧ isQueryChar (Char.ofNat n.val) = true ∧
      isFragmentChar (Char.ofNat n.val) = true ∧ isControl (Char.ofNat n.val) = false ∧
      Char.ofNat n.val ∉ ['/', '?', '#', ':'] := by
    decide +kernel
  have hascii : c.toNat < 128 := by
    simp only [isSegmentChar, isUnreserved, Bool.or_eq_true, isAlphanum_iff, List.contains_iff_mem,
      beq_iff_eq] at h
    rcases h with (h | h) | rfl
    · omega
    · have hmarks : ∀ c ∈ ['_', '.', '-', '~'], c.toNat < 128 := by simp
      exact hmarks c h
    · decide
  have hc := hall ⟨c.toNat, hascii⟩
  rw [Char.ofNat_toNat] at hc
  exact hc h

theorem IsPlace.notMem_mark {s : List Char} (hs : IsPlace s) {m : Char}
    (hm : m ∈ ['/', '?', '#', ':']) : m ∉ s := fun hmem =>
  (isSegmentChar_plain (hs.chars m hmem)).2.2.2.2 hm

/-- Characters that stand for themselves are written as they are. -/
theorem percentQuoted_append {isPlain : Char → Bool} {s : List Char}
    (h : ∀ c ∈ s, isPlain c = true) (text : String) :
    percentQuoted isPlain (text ++ String.ofList s) =
      percentQuoted isPlain text ++ String.ofList s := by
  have hs : s.flatMap (percentChar isPlain) = s := by
    induction s with
    | nil => rfl
    | cons c s ih =>
      obtain ⟨hc, hs⟩ := List.forall_mem_cons.1 h
      rw [List.flatMap_cons, percentChar_plain hc, ih hs, List.singleton_append]
  rw [percentQuoted, percentQuoted, String.toList_append, String.toList_ofList,
    List.flatMap_append, hs, String.ofList_append]

/-! ## Points -/

theorem dropPoints_append (kept parts more : List (List Char)) :
    dropPoints kept (parts ++ more) = dropPoints (dropPoints kept parts) more := by
  induction parts generalizing kept with
  | nil => rfl
  | cons part parts ih =>
    rw [List.cons_append, dropPoints, dropPoints]
    split
    · exact ih _
    · split
      · exact ih _
      · exact ih _

theorem dropPoints_concat {part : List Char} (hhere : part ≠ ['.']) (hup : part ≠ ['.', '.'])
    (parts : List (List Char)) :
    dropPoints [] (parts ++ [part]) = dropPoints [] parts ++ [part] := by
  rw [dropPoints_append, dropPoints_of_plain _ [part]]
  intro other hother
  rw [List.mem_singleton.1 hother]
  exact ⟨hhere, hup⟩

theorem intercalate_concat (parts : List (List Char)) (s : List Char) :
    ['/'].intercalate (parts ++ [s]) = ['/'].intercalate (parts ++ [[]]) ++ s := by
  induction parts with
  | nil => simp
  | cons part parts ih =>
    rw [List.cons_append, List.cons_append, List.intercalate_cons_of_ne_nil (by simp),
      List.intercalate_cons_of_ne_nil (by simp), ih, List.append_assoc _ _ s]

/-- A path that ends with a slash keeps what is put behind it. -/
theorem withoutPoints_append {path s : List Char} (hs : IsPlace s)
    (hpath : path.getLast? = some '/') : withoutPoints (path ++ s) = withoutPoints path ++ s := by
  obtain ⟨directory, rfl⟩ := List.getLast?_eq_some_iff.1 hpath
  have hslash : '/' ∉ s := hs.notMem_mark (List.mem_cons_self ..)
  rw [withoutPoints, withoutPoints, List.append_assoc, List.singleton_append,
    List.splitOn_append_cons_self, List.splitOn_append_cons_self, List.splitOn_nil,
    List.splitOn_eq_singleton hslash, dropPoints_concat hs.not_here hs.not_up,
    dropPoints_concat (by simp) (by simp), intercalate_concat]

/-! ## Texts with a segment behind them -/

/-- A text ends with a slash that stands alone. -/
def EndsFolder (cs : List Char) : Prop :=
  ∃ front c, cs = front ++ [c, '/'] ∧ c ≠ '/'

variable {cs s : List Char}

theorem charFault?_eq_none_iff :
    charFault? cs = none ↔ cs.length ≤ lengthLimit ∧ ∀ c ∈ cs, isControl c = false := by
  unfold charFault?
  split
  · rename_i hlong
    exact iff_of_false (by simp) fun h => Nat.not_le_of_lt hlong h.1
  · rename_i hshort
    rw [Option.map_eq_none_iff, List.find?_eq_none, and_iff_right (Nat.le_of_not_lt hshort)]
    simp only [Bool.not_eq_true]

theorem charFault?_append (hs : ∀ c ∈ s, isControl c = false) :
    charFault? (cs ++ s) = none ↔ (cs ++ s).length ≤ lengthLimit ∧ charFault? cs = none := by
  rw [charFault?_eq_none_iff, charFault?_eq_none_iff, List.forall_mem_append, and_iff_left hs]
  refine and_congr_right fun hlength => (and_iff_right ?_).symm
  rw [List.length_append] at hlength
  omega

theorem getLast?_of_suffix {xs ys : List Char} (h : xs <:+ ys) (hne : xs ≠ []) :
    xs.getLast? = ys.getLast? := by
  obtain ⟨front, rfl⟩ := h
  rw [List.getLast?_append, Option.or_of_isSome]
  simpa using hne

theorem span_suffix (p : Char → Bool) (cs : List Char) : (cs.span p).2 <:+ cs := by
  rw [List.span_eq_takeWhile_dropWhile]
  exact List.dropWhile_suffix p

/-- The scheme ends before the first slash, so nothing behind that changes it. -/
theorem spanScheme_append (hslash : cs.getLast? = some '/') : ∃ scheme rest,
    spanScheme cs = (scheme, rest) ∧ rest <:+ cs ∧ rest.getLast? = some '/' ∧
      ∀ s, spanScheme (cs ++ s) = (scheme, rest ++ s) := by
  have hstop : ∃ c ∈ cs, (c.isAlphanum || c == '+' || c == '.' || c == '-') = false :=
    ⟨'/', List.mem_of_getLast? hslash, by decide⟩
  obtain ⟨c, rest, hrest, -⟩ := exists_cons_span hstop
  have hsuffix := span_suffix (fun c => c.isAlphanum || c == '+' || c == '.' || c == '-') cs
  have hspan := fun s => span_append_of_stop hstop s
  unfold spanScheme
  simp only [hspan]
  generalize cs.span (fun c => c.isAlphanum || c == '+' || c == '.' || c == '-') = found at *
  obtain ⟨name, behind⟩ := found
  obtain rfl : behind = c :: rest := hrest
  by_cases hscheme : c = ':' ∧ name.head?.all Char.isAlpha = true
  · obtain ⟨rfl, hname⟩ := hscheme
    have hrest : rest ≠ [] := by
      rintro rfl
      rw [← getLast?_of_suffix hsuffix (List.cons_ne_nil _ _)] at hslash
      cases hslash
    have hbehind := (List.suffix_cons ':' rest).trans hsuffix
    exact ⟨name, rest, if_pos hname, hbehind, (getLast?_of_suffix hbehind hrest).trans hslash,
      fun s => if_pos hname⟩
  · refine ⟨[], cs, ?_, List.suffix_refl cs, hslash, fun s => ?_⟩
    · split
      · rename_i heq
        cases heq
        exact if_neg fun hname => hscheme ⟨rfl, hname⟩
      · rfl
    · split
      · rename_i heq
        cases heq
        exact if_neg fun hname => hscheme ⟨rfl, hname⟩
      · rfl

/-- An authority ends at the latest before the last slash, so nothing behind that changes it. -/
theorem spanAuthority_append (hs : '/' ∉ s) (hslash : cs.getLast? = some '/')
    (hne : cs ≠ ['/', '/']) : ∃ authority rest, spanAuthority cs = (authority, rest) ∧
      rest.getLast? = some '/' ∧ spanAuthority (cs ++ s) = (authority, rest ++ s) := by
  by_cases hmarked : ∃ behind, cs = '/' :: '/' :: behind
  · obtain ⟨behind, rfl⟩ := hmarked
    have hbehind : behind ≠ [] := fun h => hne (by rw [h])
    have hlast : behind.getLast? = some '/' := by
      rw [← hslash]
      exact getLast?_of_suffix ⟨['/', '/'], rfl⟩ hbehind
    have hstop : ∃ c ∈ behind, (c ≠ '/' && c ≠ '?' && c ≠ '#') = false :=
      ⟨'/', List.mem_of_getLast? hlast, by decide⟩
    obtain ⟨c, rest, hrest, -⟩ := exists_cons_span hstop
    refine ⟨_, _, rfl, ?_, span_append_of_stop hstop s⟩
    rw [← hlast]
    exact getLast?_of_suffix (span_suffix _ _) fun hnil =>
      List.cons_ne_nil _ _ (hrest.symm.trans hnil)
  · have hplain : ∀ {ds : List Char}, (¬ ∃ behind, ds = '/' :: '/' :: behind) →
        spanAuthority ds = ([], ds) := by
      intro ds hds
      unfold spanAuthority
      split
      · exact absurd ⟨_, rfl⟩ hds
      · rfl
    refine ⟨[], cs, hplain hmarked, hslash, hplain ?_⟩
    rintro ⟨behind, heq⟩
    rcases cs with _ | ⟨x, _ | ⟨y, rest⟩⟩
    · cases hslash
    · obtain ⟨-, rfl⟩ := List.cons.inj heq
      exact hs (List.mem_cons_self ..)
    · obtain ⟨rfl, hmore⟩ := List.cons.inj heq
      obtain ⟨rfl, -⟩ := List.cons.inj hmore
      exact hmarked ⟨rest, rfl⟩

/-- A segment behind a path, a query or a fragment goes on with it, whichever is last. -/
theorem Parts.ofRest_append (hs : IsPlace s) {rest : List Char} (hrest : rest.getLast? = some '/')
    (scheme authority : List Char) :
    ofRest scheme authority (rest ++ s) = (ofRest scheme authority rest).followedBy s ∧
      (ofRest scheme authority rest).EndsOpen := by
  unfold ofRest
  by_cases hstop : ∃ c ∈ rest, (c ≠ '?' && c ≠ '#') = false
  · obtain ⟨c, more, hmore, hc⟩ := exists_cons_span hstop
    rw [span_append_of_stop hstop]
    generalize rest.span (fun c => c ≠ '?' && c ≠ '#') = found at hmore
    obtain ⟨path, behindPath⟩ := found
    obtain rfl : behindPath = c :: more := hmore
    dsimp only
    by_cases hfragment : ∃ x ∈ c :: more, decide (x ≠ '#') = false
    · obtain ⟨x, f, hf, hx⟩ := exists_cons_span hfragment
      rw [span_append_of_stop hfragment]
      generalize (c :: more).span (fun x => decide (x ≠ '#')) = found at hf
      obtain ⟨query, fragment⟩ := found
      obtain rfl : fragment = x :: f := hf
      obtain rfl : x = '#' := by simpa using hx
      exact ⟨rfl, .fragment rfl⟩
    · have hall : ∀ x ∈ c :: more, decide (x ≠ '#') = true := fun x hx =>
        Bool.of_not_eq_false fun hmark => hfragment ⟨x, hx, hmark⟩
      have halls : ∀ x ∈ c :: more ++ s, decide (x ≠ '#') = true :=
        List.forall_mem_append.2 ⟨hall, fun x hx => decide_eq_true fun heq =>
          hs.notMem_mark (m := '#') (by simp) (heq ▸ hx)⟩
      -- what ends the path is one of both marks, and no fragment starts here
      obtain rfl : c = '?' := by
        have hfirst := hall c (List.mem_cons_self ..)
        simp_all
      rw [span_of_all hall, span_of_all halls]
      exact ⟨rfl, .query rfl rfl⟩
  · have hall : ∀ c ∈ rest, (c ≠ '?' && c ≠ '#') = true := fun c hc =>
      Bool.of_not_eq_false fun hmark => hstop ⟨c, hc, hmark⟩
    have halls : ∀ c ∈ rest ++ s, (c ≠ '?' && c ≠ '#') = true :=
      List.forall_mem_append.2 ⟨hall, fun c hc => by
        have hquery : c ≠ '?' := fun heq => hs.notMem_mark (m := '?') (by simp) (heq ▸ hc)
        have hfragment : c ≠ '#' := fun heq => hs.notMem_mark (m := '#') (by simp) (heq ▸ hc)
        simp [hquery, hfragment]⟩
    rw [span_of_all hall, span_of_all halls]
    exact ⟨rfl, .path rfl rfl hrest⟩

/-- A segment behind a text that ends with a slash goes on with its last part. -/
theorem partsOf_append (hs : IsPlace s) (h : EndsFolder cs) :
    partsOf (cs ++ s) = (partsOf cs).followedBy s ∧ (partsOf cs).EndsOpen := by
  obtain ⟨front, d, rfl, hd⟩ := h
  have hslash : (front ++ [d, '/']).getLast? = some '/' := by simp
  obtain ⟨scheme, behindScheme, hscheme, hsuffix, hlast, hschemes⟩ := spanScheme_append hslash
  have hne : behindScheme ≠ ['/', '/'] := by
    rintro rfl
    obtain ⟨more, hmore⟩ := hsuffix
    obtain ⟨-, htail⟩ := List.append_inj' hmore rfl
    exact hd (List.cons.inj htail).1.symm
  obtain ⟨authority, rest, hauthority, hrest, hauthorities⟩ :=
    spanAuthority_append (hs.notMem_mark (by simp)) hlast hne
  simp only [partsOf, hscheme, hschemes, hauthority, hauthorities]
  exact Parts.ofRest_append hs hrest scheme authority

theorem Parts.address_followedBy {p : Parts} (hp : p.EndsOpen) (hs : IsPlace s) (o : Origin) :
    (p.followedBy s).address o = (p.address o).followedBy (String.ofList s) := by
  have hplain := fun c hc => isSegmentChar_plain (hs.chars c hc)
  obtain ⟨scheme, authority, path, query, fragment⟩ := p
  cases hp with
  | fragment hfragment =>
    obtain rfl := hfragment
    have happend := percentQuoted_append fun c hc => (hplain c hc).2.2.1
    simp [Parts.followedBy, Parts.address, Address.followedBy, behind?, happend, Parts.isRelative]
  | query hquery hfragment =>
    obtain rfl := hquery
    obtain rfl := hfragment
    have happend := percentQuoted_append fun c hc => (hplain c hc).2.1
    simp [Parts.followedBy, Parts.address, Address.followedBy, behind?, happend, Parts.isRelative]
  | path hquery hfragment hslash =>
    obtain rfl := hquery
    obtain rfl := hfragment
    have happend := percentQuoted_append fun c hc => (hplain c hc).1
    have hpath : ∀ relative : Bool, (if relative then path ++ s else withoutPoints (path ++ s)) =
        (if relative then path else withoutPoints path) ++ s := by
      rintro (_ | _)
      · exact withoutPoints_append hs hslash
      · rfl
    simp only [Parts.followedBy, Parts.address, Address.followedBy, Parts.isRelative, behind?,
      ne_eq, not_true_eq_false, if_false, Option.map_none, hpath, String.ofList_append, happend]
    rfl

theorem Parts.origin_followedBy (p : Parts) (s : List Char) :
    (p.followedBy s).scheme = p.scheme ∧ (p.followedBy s).authority = p.authority := by
  unfold followedBy
  split
  · exact ⟨rfl, rfl⟩
  · split <;> exact ⟨rfl, rfl⟩

theorem pathFault?_cons_cons (c d : Char) (cs : List Char) : pathFault? (c :: d :: cs) =
    if c = '/' ∧ d = '/' then some .slashes else if c = ':' then some .colon else none := by
  unfold pathFault?
  split <;> simp_all

/-- What stands behind a slash at the end of a path does not make the path start otherwise. -/
theorem pathFault?_append {path s : List Char} (hs : '/' ∉ s) (hslash : path.getLast? = some '/') :
    pathFault? (path ++ s) = pathFault? path := by
  rcases path with _ | ⟨c, _ | ⟨d, path⟩⟩
  · cases hslash
  · obtain rfl : c = '/' := Option.some.inj hslash
    cases s with
    | nil => rfl
    | cons d s =>
      have hd : d ≠ '/' := fun heq => hs (heq ▸ List.mem_cons_self ..)
      rw [List.singleton_append, pathFault?_cons_cons, if_neg fun h => hd h.2]
      rfl
  · rw [List.cons_append, List.cons_append, pathFault?_cons_cons, pathFault?_cons_cons]

theorem Parts.pathFault?_followedBy {p : Parts} (hp : p.EndsOpen) (hs : IsPlace s) :
    pathFault? (p.followedBy s).path = pathFault? p.path := by
  obtain ⟨scheme, authority, path, query, fragment⟩ := p
  cases hp with
  | fragment hfragment =>
    obtain rfl := hfragment
    rfl
  | query hquery hfragment =>
    obtain rfl := hquery
    obtain rfl := hfragment
    rfl
  | path hquery hfragment hslash =>
    obtain rfl := hquery
    obtain rfl := hfragment
    exact pathFault?_append (hs.notMem_mark (by simp)) hslash

/-- An address that ends with a slash goes on with a segment, if the text is not too long. -/
theorem ofText_append_eq_ok_iff {text segment : String} (h : EndsFolder text.toList)
    (hs : IsPlace segment.toList) {b : Address} :
    ofText (text ++ segment) = .ok b ↔ (text ++ segment).length ≤ lengthLimit ∧
      ∃ a, ofText text = .ok a ∧ b = a.followedBy segment := by
  have hcontrol : ∀ c ∈ segment.toList, isControl c = false := fun c hc =>
    (isSegmentChar_plain (hs.chars c hc)).2.2.2.1
  obtain ⟨hparts, hopen⟩ := partsOf_append hs h
  have hlength : (text ++ segment).length = (text.toList ++ segment.toList).length := by
    rw [← String.length_toList, String.toList_append]
  simp only [ofText_eq_ok_iff, String.toList_append, charFault?_append hcontrol, hlength, hparts,
    Parts.origin_followedBy, Parts.pathFault?_followedBy hopen hs, Parts.isRelative,
    Parts.address_followedBy hopen hs, String.ofList_toList]
  constructor
  · rintro ⟨⟨hlimit, hfault⟩, o, horigin, hrelative, rfl⟩
    exact ⟨hlimit, _, ⟨hfault, o, horigin, hrelative, rfl⟩, rfl⟩
  · rintro ⟨hlimit, _, ⟨hfault, o, horigin, hrelative, rfl⟩, rfl⟩
    exact ⟨⟨hlimit, hfault⟩, o, horigin, hrelative, rfl⟩

/-- What goes on with an address is written behind it. -/
theorem text_followedBy (a : Address) (s : String) : (a.followedBy s).text = a.text ++ s := by
  obtain ⟨scheme, user, host, portNumber?, path, query?, fragment?⟩ := a
  cases fragment? with
  | some fragment =>
    simp only [followedBy, text, Option.elim_some, String.append_assoc]
    rfl
  | none =>
    cases query? with
    | some query =>
      simp only [followedBy, text, Option.elim_some, Option.elim_none, String.append_assoc,
        String.append_empty]
      rfl
    | none =>
      simp only [followedBy, text, Option.elim_none, String.append_assoc, String.append_empty]
      rfl

end Address

/-! ## Requests for dashboards -/

theorem isPlace_percentEncoded {text : String} (hhere : text ≠ ".") (hup : text ≠ "..") :
    Address.IsPlace (percentEncoded text).toList where
  chars _ := (isSegment_percentEncoded text).mem
  not_here h := hhere (percentEncoded_injective (String.toList_inj.1 h))
  not_up h := hup (percentEncoded_injective (String.toList_inj.1 h))

namespace Server

variable (v : Server)

/-- The address is without its slashes at the end, and has none left. -/
theorem exists_slashes : (∃ n, v.url = v.base ++ String.ofList (List.replicate n '/')) ∧
    v.base.toList.getLast? ≠ some '/' := by
  have hslashes : ∀ c ∈ v.url.toList.reverse.takeWhile (· == '/'), c = '/' := fun c hc => by
    simpa using List.mem_takeWhile_imp hc
  have hbase : v.base.toList = (v.url.toList.reverse.dropWhile (· == '/')).reverse :=
    String.toList_ofList
  refine ⟨⟨(v.url.toList.reverse.takeWhile (· == '/')).length, String.toList_inj.1 ?_⟩,
    fun hlast => ?_⟩
  · calc v.url.toList
        = (v.url.toList.reverse.takeWhile (· == '/') ++
            v.url.toList.reverse.dropWhile (· == '/')).reverse := by
          rw [List.takeWhile_append_dropWhile, List.reverse_reverse]
      _ = v.base.toList ++
            (List.replicate (v.url.toList.reverse.takeWhile (· == '/')).length '/').reverse := by
          rw [List.reverse_append, hbase, ← List.eq_replicate_iff.2 ⟨rfl, hslashes⟩]
      _ = _ := by rw [List.reverse_replicate, String.toList_append, String.toList_ofList]
  · have hhead := List.head?_dropWhile_not (· == '/') v.url.toList.reverse
    rw [hbase, List.getLast?_reverse] at hlast
    simp [hlast] at hhead

/-- The text that stands in front of the uid in the address of every request for a dashboard. -/
def dashboardFolder : String :=
  v.base ++ "/api/dashboards/uid/"

theorem endsFolder_dashboardFolder : Address.EndsFolder v.dashboardFolder.toList :=
  ⟨v.base.toList ++ "/api/dashboards/ui".toList, 'd', by simp [dashboardFolder], by decide⟩

variable {v}

/-- Where the request for a dashboard goes if its address names a server. -/
theorem address_dashboardRequest {uid : String} (hhere : uid ≠ ".") (hup : uid ≠ "..")
    {b : Address} (habsolute : b.isAbsolute = true) :
    (v.dashboardRequest uid).address = .ok b ↔
      (v.dashboardRequest uid).url.length ≤ Address.lengthLimit ∧
      ∃ a, Address.ofText v.dashboardFolder = .ok a ∧ b = a.followedBy (percentEncoded uid) := by
  have hurl : (v.dashboardRequest uid).url = v.dashboardFolder ++ percentEncoded uid := rfl
  have hplace : ∀ a : Address, a.asPlace.isAbsolute = false := fun a => rfl
  rw [hurl, ← Address.ofText_append_eq_ok_iff v.endsFolder_dashboardFolder
    (isPlace_percentEncoded hhere hup), Request.address, bind_eq_ok, hurl]
  constructor
  · rintro ⟨a, ha, h⟩
    by_cases haddress : a.isAbsolute = true
    · rw [if_pos haddress] at h
      cases h
      exact ha
    · rw [if_neg haddress] at h
      cases h
      rw [hplace] at habsolute
      cases habsolute
  · intro h
    exact ⟨b, h, by rw [if_pos habsolute]; rfl⟩

/-- A request for a dashboard is addressed to the server without its last slashes, to the place of
dashboards there, and to a segment of characters that stand for themselves and of bytes by number,
none of which marks a part of an address. The segment is read back as the uid, so other uids are
asked for elsewhere. A uid that is no point and no two points cannot lead the request away either:
if its address names a server, it is the address of the place with the segment behind it. -/
theorem dashboardRequest_segment (v : Server) (uid : String) :
    let segment := percentEncoded uid
    let url := (v.dashboardRequest uid).url
    (∃ n, v.url = v.base ++ String.ofList (List.replicate n '/')) ∧
      v.base.toList.getLast? ≠ some '/' ∧
      url = v.base ++ "/api/dashboards/uid/" ++ segment ∧
      IsSegment segment.toList ∧ (∀ c ∈ "/?# ".toList, c ∉ segment.toList) ∧
      Utf8.read (percentBytes segment.toList) = .ok uid.toList ∧
      (∀ other, (v.dashboardRequest other).url = url → other = uid) ∧
      (uid ≠ "." → uid ≠ ".." → ∀ b : Address, b.isAbsolute = true →
        ((v.dashboardRequest uid).address = .ok b ↔ url.length ≤ Address.lengthLimit ∧
          ∃ a, Address.ofText (v.base ++ "/api/dashboards/uid/") = .ok a ∧
            b = a.followedBy segment ∧ b.text = a.text ++ segment)) := by
  intro segment url
  obtain ⟨hslashes, hlast⟩ := v.exists_slashes
  refine ⟨hslashes, hlast, rfl, isSegment_percentEncoded uid, fun c hc hmem => ?_,
    read_percentBytes uid, fun other hother => ?_, fun hhere hup b habsolute => ?_⟩
  · have hchar := (isSegment_percentEncoded uid).mem hmem
    have hmarks : "/?# ".toList.all (!isSegmentChar ·) = true := by decide
    have hmark := List.all_eq_true.1 hmarks c hc
    simp [hchar] at hmark
  · exact percentEncoded_injective ((String.append_right_inj _).1 hother)
  · rw [address_dashboardRequest hhere hup habsolute]
    refine and_congr_right fun _ => exists_congr fun a => and_congr_right fun _ => ?_
    exact ⟨fun h => ⟨h, h ▸ a.text_followedBy segment⟩, fun h => h.1⟩

/-- A server whose address ends with slashes. -/
def slashedServer : Server := ⟨"https://g.example.com//", none, none⟩

theorem dashboardRequest_segment_slash :
    percentEncoded "a/b%é" = "a%2Fb%25%C3%A9" ∧
      Utf8.read (percentBytes "a%2Fb%25%C3%A9".toList) = .ok "a/b%é".toList ∧
      ∃ a b, Address.ofText "https://g.example.com/api/dashboards/uid/" = .ok a ∧
        (slashedServer.dashboardRequest "a/b%é").address = .ok b ∧
        b.text = a.text ++ "a%2Fb%25%C3%A9" := by
  obtain ⟨-, -, -, -, -, hread, -, hgoes⟩ := dashboardRequest_segment slashedServer "a/b%é"
  have hsegment : percentEncoded "a/b%é" = "a%2Fb%25%C3%A9" := by decide +kernel
  have hevaluated : (slashedServer.dashboardRequest "a/b%é").address.toOption.map
      Address.isAbsolute = some true := by
    decide +kernel
  obtain ⟨b, hb, habsolute⟩ := Option.map_eq_some_iff.1 hevaluated
  have haddress := toOption_eq_some.1 hb
  have hfolder : slashedServer.base ++ "/api/dashboards/uid/" =
      "https://g.example.com/api/dashboards/uid/" := by
    decide +kernel
  obtain ⟨-, a, ha, -, htext⟩ := (hgoes (by decide) (by decide) b habsolute).1 haddress
  exact ⟨hsegment, hsegment ▸ hread, a, b, hfolder ▸ ha, haddress, hsegment ▸ htext⟩

/-- Two points as a uid lead the request away from the place of dashboards. -/
theorem dashboardRequest_redirected :
    let server : Server := ⟨"https://g.example.com", none, none⟩
    (server.dashboardRequest "..").url = "https://g.example.com/api/dashboards/uid/.." ∧
      ∃ r, (server.dashboardRequest "..").sent? = some r ∧
        r.url = "https://g.example.com/api/dashboards" ∧
        ¬ ∃ segment, r.url = server.base ++ "/api/dashboards/uid/" ++ segment := by
  intro server
  have hevaluated : (server.dashboardRequest "..").sent?.map (·.url) =
      some "https://g.example.com/api/dashboards" := by
    decide +kernel
  obtain ⟨r, hr, hurl⟩ := Option.map_eq_some_iff.1 hevaluated
  refine ⟨by decide +kernel, r, hr, hurl, ?_⟩
  rintro ⟨segment, h⟩
  have hlength := congrArg String.length (hurl.symm.trans h)
  have hfolder : (server.base ++ "/api/dashboards/uid/").length = 41 := by decide +kernel
  have hplace : "https://g.example.com/api/dashboards".length = 36 := by decide +kernel
  rw [String.length_append, hfolder, hplace] at hlength
  omega

end Server

end PanelExport
