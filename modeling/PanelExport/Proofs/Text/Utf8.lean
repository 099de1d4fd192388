import Mathlib.Tactic.SplitIfs
import PanelExport.Proofs.Outcome
import PanelExport.Text.Utf8

/-!
# Texts and their bytes

Bytes are the spelling of a text exactly if they are read as that text. A first byte says how many
bytes follow and within which bounds, and these bounds leave one spelling for every character.

* `readChar_eq_ok`: a character is read where its bytes stand.
* `read_eq_ok_iff`: a text is read from its bytes and from no others.
-/

namespace PanelExport

namespace Utf8

/-- The bytes of a text. -/
def bytesOf (text : List Char) : List UInt8 :=
  text.flatMap String.utf8EncodeChar

/-- A byte is one of those that follow a first byte. -/
def IsTail (low high : Nat) (b : UInt8) : Prop :=
  low ≤ b.toNat ∧ b.toNat ≤ high

theorem readTails_succ_eq_ok {code low high tails used result : Nat} {bs : List UInt8} :
    readTails code low high (tails + 1) bs = (used, .ok result) ↔ ∃ b rest k, bs = b :: rest ∧
      IsTail low high b ∧ used = k + 1 ∧
      readTails (code * 64 + (b.toNat - 0x80)) 0x80 0xBF tails rest = (k, .ok result) := by
  cases bs with
  | nil => simp [readTails]
  | cons b rest =>
    by_cases hb : low ≤ b.toNat ∧ b.toNat ≤ high
    · rcases hr : readTails (code * 64 + (b.toNat - 0x80)) 0x80 0xBF tails rest with ⟨k, r⟩
      simp only [readTails, if_pos hb, hr, IsTail, Prod.mk.injEq]
      constructor
      · rintro ⟨rfl, rfl⟩
        exact ⟨b, rest, k, rfl, hb, rfl, hr⟩
      · rintro ⟨b', rest', k', heq, -, rfl, hr'⟩
        cases heq
        rw [hr] at hr'
        cases hr'
        exact ⟨rfl, rfl⟩
    · simp only [readTails, if_neg hb, IsTail]
      constructor
      · intro h
        cases h
      · rintro ⟨b', rest', k', heq, hb', -⟩
        cases heq
        exact absurd hb' hb

theorem readTails_zero_eq_ok {code low high used result : Nat} {bs : List UInt8} :
    readTails code low high 0 bs = (used, .ok result) ↔ used = 0 ∧ result = code := by
  simp only [readTails, Prod.mk.injEq, Except.ok.injEq]
  exact and_congr eq_comm eq_comm

/-! ## Characters -/

theorem val_ofNat {n : Nat} (h : n.isValidChar) : (Char.ofNat n).val.toNat = n := by
  rw [Char.ofNat, dif_pos h]
  rfl

theorem ofNat_eq_of_toNat {n : Nat} {b : UInt8} (h : n = b.toNat) : UInt8.ofNat n = b := by
  rw [h, UInt8.ofNat_toNat]

section

variable {a b c d : UInt8}

theorem encode_one (ha : a.toNat < 0x80) : String.utf8EncodeChar (Char.ofNat a.toNat) = [a] := by
  have hvalid : a.toNat.isValidChar := .inl (by omega)
  rw [String.utf8EncodeChar, val_ofNat hvalid, if_pos (by omega), UInt8.ofNat_toNat]

theorem encode_two (ha : 0xC2 ≤ a.toNat ∧ a.toNat < 0xE0) (hb : IsTail 0x80 0xBF b) :
    String.utf8EncodeChar (Char.ofNat ((a.toNat - 0xC0) * 64 + (b.toNat - 0x80))) = [a, b] := by
  obtain ⟨hb, hb'⟩ := hb
  have hvalid : ((a.toNat - 0xC0) * 64 + (b.toNat - 0x80)).isValidChar := .inl (by omega)
  rw [String.utf8EncodeChar, val_ofNat hvalid, if_neg (by omega), if_pos (by omega),
    ofNat_eq_of_toNat (b := a) (by omega), ofNat_eq_of_toNat (b := b) (by omega)]

theorem encode_three (ha : 0xE0 ≤ a.toNat ∧ a.toNat < 0xF0)
    (hb : IsTail (if a.toNat = 0xE0 then 0xA0 else 0x80) (if a.toNat = 0xED then 0x9F else 0xBF) b)
    (hc : IsTail 0x80 0xBF c) :
    String.utf8EncodeChar (Char.ofNat
      (((a.toNat - 0xE0) * 64 + (b.toNat - 0x80)) * 64 + (c.toNat - 0x80))) = [a, b, c] := by
  obtain ⟨hb, hb'⟩ := hb
  obtain ⟨hc, hc'⟩ := hc
  have hbounds : 0x80 ≤ b.toNat ∧ b.toNat ≤ 0xBF ∧ (a.toNat = 0xE0 → 0xA0 ≤ b.toNat) ∧
      (a.toNat = 0xED → b.toNat ≤ 0x9F) := by
    split_ifs at hb hb' <;> omega
  have hvalid : (((a.toNat - 0xE0) * 64 + (b.toNat - 0x80)) * 64 +
      (c.toNat - 0x80)).isValidChar := by
    unfold Nat.isValidChar
    omega
  rw [String.utf8EncodeChar, val_ofNat hvalid, if_neg (by omega), if_neg (by omega),
    if_pos (by omega), ofNat_eq_of_toNat (b := a) (by omega), ofNat_eq_of_toNat (b := b) (by omega),
    ofNat_eq_of_toNat (b := c) (by omega)]

theorem encode_four (ha : 0xF0 ≤ a.toNat ∧ a.toNat < 0xF5)
    (hb : IsTail (if a.toNat = 0xF0 then 0x90 else 0x80) (if a.toNat = 0xF4 then 0x8F else 0xBF) b)
    (hc : IsTail 0x80 0xBF c) (hd : IsTail 0x80 0xBF d) :
    String.utf8EncodeChar (Char.ofNat
      ((((a.toNat - 0xF0) * 64 + (b.toNat - 0x80)) * 64 + (c.toNat - 0x80)) * 64 +
        (d.toNat - 0x80))) = [a, b, c, d] := by
  obtain ⟨hb, hb'⟩ := hb
  obtain ⟨hc, hc'⟩ := hc
  obtain ⟨hd, hd'⟩ := hd
  have hbounds : 0x80 ≤ b.toNat ∧ b.toNat ≤ 0xBF ∧ (a.toNat = 0xF0 → 0x90 ≤ b.toNat) ∧
      (a.toNat = 0xF4 → b.toNat ≤ 0x8F) := by
    split_ifs at hb hb' <;> omega
  have hvalid : ((((a.toNat - 0xF0) * 64 + (b.toNat - 0x80)) * 64 + (c.toNat - 0x80)) * 64 +
      (d.toNat - 0x80)).isValidChar := by
    unfold Nat.isValidChar
    omega
  rw [String.utf8EncodeChar, val_ofNat hvalid, if_neg (by omega), if_neg (by omega),
    if_neg (by omega), ofNat_eq_of_toNat (b := a) (by omega), ofNat_eq_of_toNat (b := b) (by omega),
    ofNat_eq_of_toNat (b := c) (by omega), ofNat_eq_of_toNat (b := d) (by omega)]

end

/-! ## Characters that are read -/

/-- What a first byte says, by the number of bytes that follow it. -/
theorem lead?_eq_some_iff {n : Nat} {lead : Lead} : lead? n = some lead ↔
    (n < 0x80 ∧ lead = ⟨n, 0, 0x80, 0xBF⟩) ∨
    (0xC2 ≤ n ∧ n < 0xE0 ∧ lead = ⟨n - 0xC0, 1, 0x80, 0xBF⟩) ∨
    (0xE0 ≤ n ∧ n < 0xF0 ∧
      lead = ⟨n - 0xE0, 2, if n = 0xE0 then 0xA0 else 0x80, if n = 0xED then 0x9F else 0xBF⟩) ∨
    (0xF0 ≤ n ∧ n < 0xF5 ∧
      lead = ⟨n - 0xF0, 3, if n = 0xF0 then 0x90 else 0x80, if n = 0xF4 then 0x8F else 0xBF⟩) := by
  constructor
  · intro h
    unfold lead? at h
    by_cases h1 : n < 0x80
    · rw [if_pos h1] at h
      exact .inl ⟨h1, (Option.some.inj h).symm⟩
    · rw [if_neg h1] at h
      by_cases h2 : n < 0xC2
      · rw [if_pos h2] at h
        cases h
      · rw [if_neg h2] at h
        by_cases h3 : n < 0xE0
        · rw [if_pos h3] at h
          exact .inr (.inl ⟨Nat.le_of_not_lt h2, h3, (Option.some.inj h).symm⟩)
        · rw [if_neg h3] at h
          by_cases h4 : n < 0xF0
          · rw [if_pos h4] at h
            exact .inr (.inr (.inl ⟨Nat.le_of_not_lt h3, h4, (Option.some.inj h).symm⟩))
          · rw [if_neg h4] at h
            obtain ⟨h5, h⟩ := Option.ite_none_right_eq_some.1 h
            exact .inr (.inr (.inr ⟨Nat.le_of_not_lt h4, h5, (Option.some.inj h).symm⟩))
  · rintro (⟨h, rfl⟩ | ⟨h, h', rfl⟩ | ⟨h, h', rfl⟩ | ⟨h, h', rfl⟩)
    · rw [lead?, if_pos h]
    · rw [lead?, if_neg (by omega), if_neg (by omega), if_pos h']
    · rw [lead?, if_neg (by omega), if_neg (by omega), if_neg (by omega), if_pos h']
    · rw [lead?, if_neg (by omega), if_neg (by omega), if_neg (by omega), if_neg (by omega),
        if_pos h']

/-- How a character is read, by the number of bytes that follow its first one. -/
theorem readChar_eq_ok {pos used : Nat} {b : UInt8} {bs : List UInt8} {c : Char} :
    readChar pos b bs = (used, .ok c) ↔ ∃ code, Char.ofNat code = c ∧
      ((b.toNat < 0x80 ∧ readTails b.toNat 0x80 0xBF 0 bs = (used, .ok code)) ∨
      (0xC2 ≤ b.toNat ∧ b.toNat < 0xE0 ∧
        readTails (b.toNat - 0xC0) 0x80 0xBF 1 bs = (used, .ok code)) ∨
      (0xE0 ≤ b.toNat ∧ b.toNat < 0xF0 ∧
        readTails (b.toNat - 0xE0) (if b.toNat = 0xE0 then 0xA0 else 0x80)
          (if b.toNat = 0xED then 0x9F else 0xBF) 2 bs = (used, .ok code)) ∨
      (0xF0 ≤ b.toNat ∧ b.toNat < 0xF5 ∧
        readTails (b.toNat - 0xF0) (if b.toNat = 0xF0 then 0x90 else 0x80)
          (if b.toNat = 0xF4 then 0x8F else 0xBF) 3 bs = (used, .ok code))) := by
  have hiff : readChar pos b bs = (used, .ok c) ↔ ∃ lead code, lead? b.toNat = some lead ∧
      readTails lead.bits lead.low lead.high lead.tails bs = (used, .ok code) ∧
      Char.ofNat code = c := by
    unfold readChar
    cases lead? b.toNat with
    | none => simp
    | some lead =>
      rcases h : readTails lead.bits lead.low lead.high lead.tails bs with ⟨k, _ | code⟩
      · simp [h]
      · simp [h, and_assoc]
  rw [hiff]
  constructor
  · rintro ⟨lead, code, hlead, htails, rfl⟩
    refine ⟨code, rfl, ?_⟩
    rcases lead?_eq_some_iff.1 hlead with
      ⟨hb, rfl⟩ | ⟨hb, hb', rfl⟩ | ⟨hb, hb', rfl⟩ | ⟨hb, hb', rfl⟩
    · exact .inl ⟨hb, htails⟩
    · exact .inr (.inl ⟨hb, hb', htails⟩)
    · exact .inr (.inr (.inl ⟨hb, hb', htails⟩))
    · exact .inr (.inr (.inr ⟨hb, hb', htails⟩))
  · rintro ⟨code, rfl, ⟨hb, htails⟩ | ⟨hb, hb', htails⟩ | ⟨hb, hb', htails⟩ | ⟨hb, hb', htails⟩⟩
    · exact ⟨_, code, lead?_eq_some_iff.2 (.inl ⟨hb, rfl⟩), htails, rfl⟩
    · exact ⟨_, code, lead?_eq_some_iff.2 (.inr (.inl ⟨hb, hb', rfl⟩)), htails, rfl⟩
    · exact ⟨_, code, lead?_eq_some_iff.2 (.inr (.inr (.inl ⟨hb, hb', rfl⟩))), htails, rfl⟩
    · exact ⟨_, code, lead?_eq_some_iff.2 (.inr (.inr (.inr ⟨hb, hb', rfl⟩))), htails, rfl⟩

/-- A character is read from its bytes alone. -/
theorem encode_of_readChar {pos used : Nat} {b : UInt8} {bs : List UInt8} {c : Char}
    (h : readChar pos b bs = (used, .ok c)) :
    ∃ tail rest, bs = tail ++ rest ∧ tail.length = used ∧ String.utf8EncodeChar c = b :: tail := by
  obtain ⟨code, rfl, ⟨hb, htails⟩ | ⟨hb, hb', htails⟩ | ⟨hb, hb', htails⟩ | ⟨hb, hb', htails⟩⟩ :=
    readChar_eq_ok.1 h
  · obtain ⟨rfl, rfl⟩ := readTails_zero_eq_ok.1 htails
    exact ⟨[], bs, rfl, rfl, encode_one hb⟩
  · obtain ⟨t, bs, k, rfl, ht, rfl, hend⟩ := readTails_succ_eq_ok.1 htails
    obtain ⟨rfl, hcode⟩ := readTails_zero_eq_ok.1 hend
    rw [hcode]
    exact ⟨[t], bs, rfl, rfl, encode_two ⟨hb, hb'⟩ ht⟩
  · obtain ⟨t, bs, k, rfl, ht, rfl, htails'⟩ := readTails_succ_eq_ok.1 htails
    obtain ⟨u, bs, k, rfl, hu, rfl, hend⟩ := readTails_succ_eq_ok.1 htails'
    obtain ⟨rfl, hcode⟩ := readTails_zero_eq_ok.1 hend
    rw [hcode]
    exact ⟨[t, u], bs, rfl, rfl, encode_three ⟨hb, hb'⟩ ht hu⟩
  · obtain ⟨t, bs, k, rfl, ht, rfl, htails'⟩ := readTails_succ_eq_ok.1 htails
    obtain ⟨u, bs, k, rfl, hu, rfl, htails''⟩ := readTails_succ_eq_ok.1 htails'
    obtain ⟨v, bs, k, rfl, hv, rfl, hend⟩ := readTails_succ_eq_ok.1 htails''
    obtain ⟨rfl, hcode⟩ := readTails_zero_eq_ok.1 hend
    rw [hcode]
    exact ⟨[t, u, v], bs, rfl, rfl, encode_four ⟨hb, hb'⟩ ht hu hv⟩

theorem toNat_ofNat {n : Nat} (h : n < 256) : (UInt8.ofNat n).toNat = n := by
  rw [UInt8.toNat_ofNat', Nat.mod_eq_of_lt h]

theorem isTail_ofNat {low high n : Nat} (h : n < 256) (hlow : low ≤ n) (hhigh : n ≤ high) :
    IsTail low high (UInt8.ofNat n) := by
  rw [IsTail, toNat_ofNat h]
  exact ⟨hlow, hhigh⟩

/-- A character is read where its bytes stand. -/
theorem readChar_encode (pos : Nat) {c : Char} {b : UInt8} {tail : List UInt8}
    (h : String.utf8EncodeChar c = b :: tail) (rest : List UInt8) :
    readChar pos b (tail ++ rest) = (tail.length, .ok c) := by
  have hvalid : c.val.toNat < 0xD800 ∨ 0xDFFF < c.val.toNat ∧ c.val.toNat < 0x110000 := c.valid
  have hc : Char.ofNat c.val.toNat = c := Char.ofNat_toNat c
  rw [readChar_eq_ok]
  unfold String.utf8EncodeChar at h
  generalize c.val.toNat = n at hvalid hc h
  simp only at h
  split_ifs at h with h1 h2 h3
  · obtain ⟨rfl, rfl⟩ := List.cons.inj h
    rw [toNat_ofNat (by omega)]
    exact ⟨n, hc, .inl ⟨by omega, readTails_zero_eq_ok.2 ⟨rfl, rfl⟩⟩⟩
  · obtain ⟨rfl, rfl⟩ := List.cons.inj h
    rw [toNat_ofNat (by omega)]
    refine ⟨n, hc, .inr (.inl ⟨by omega, by omega, ?_⟩)⟩
    refine readTails_succ_eq_ok.2 ⟨_, rest, 0, rfl, isTail_ofNat (by omega) (by omega) (by omega),
      rfl, readTails_zero_eq_ok.2 ⟨rfl, ?_⟩⟩
    rw [toNat_ofNat (by omega)]
    omega
  · obtain ⟨rfl, rfl⟩ := List.cons.inj h
    rw [toNat_ofNat (by omega)]
    refine ⟨n, hc, .inr (.inr (.inl ⟨by omega, by omega, ?_⟩))⟩
    refine readTails_succ_eq_ok.2 ⟨_, _, 1, rfl, isTail_ofNat (by omega) ?_ ?_, rfl,
      readTails_succ_eq_ok.2 ⟨_, rest, 0, rfl, isTail_ofNat (by omega) (by omega) (by omega), rfl,
        readTails_zero_eq_ok.2 ⟨rfl, ?_⟩⟩⟩
    · split_ifs <;> omega
    · split_ifs <;> omega
    · rw [toNat_ofNat (by omega), toNat_ofNat (by omega)]
      omega
  · obtain ⟨rfl, rfl⟩ := List.cons.inj h
    rw [toNat_ofNat (by omega)]
    refine ⟨n, hc, .inr (.inr (.inr ⟨by omega, by omega, ?_⟩))⟩
    refine readTails_succ_eq_ok.2 ⟨_, _, 2, rfl, isTail_ofNat (by omega) ?_ ?_, rfl,
      readTails_succ_eq_ok.2 ⟨_, _, 1, rfl, isTail_ofNat (by omega) (by omega) (by omega), rfl,
      readTails_succ_eq_ok.2 ⟨_, rest, 0, rfl, isTail_ofNat (by omega) (by omega) (by omega), rfl,
        readTails_zero_eq_ok.2 ⟨rfl, ?_⟩⟩⟩⟩
    · split_ifs <;> omega
    · split_ifs <;> omega
    · rw [toNat_ofNat (by omega), toNat_ofNat (by omega), toNat_ofNat (by omega)]
      omega

/-! ## Texts -/

theorem bytesOf_cons (c : Char) (text : List Char) :
    bytesOf (c :: text) = String.utf8EncodeChar c ++ bytesOf text :=
  List.flatMap_cons

/-- The bytes of a text are those of the standard library. -/
theorem bytesOf_toList (s : String) : bytesOf s.toList = s.toUTF8.data.toList := by
  rw [String.toUTF8_eq_toByteArray, ← String.utf8Encode_toList, bytesOf]
  simp [List.utf8Encode]

theorem readFrom_encode (pos : Nat) (c : Char) (rest : List UInt8) :
    readFrom pos (String.utf8EncodeChar c ++ rest) =
      .ok c :: readFrom (pos + (String.utf8EncodeChar c).length) rest := by
  cases h : String.utf8EncodeChar c with
  | nil => exact absurd h String.utf8EncodeChar_ne_nil
  | cons b tail =>
    rw [List.cons_append, readFrom, readChar_encode pos h]
    simp only [List.drop_left, List.length_cons]
    rw [Nat.add_assoc, Nat.add_comm 1]

theorem readFrom_eq_ok_iff {pos : Nat} {bytes : List UInt8} {text : List Char} :
    (readFrom pos bytes).mapM id = .ok text ↔ bytes = bytesOf text := by
  constructor
  · intro h
    induction text generalizing pos bytes with
    | nil =>
      cases bytes with
      | nil => rfl
      | cons b bs =>
        rw [readFrom, List.mapM_cons] at h
        obtain ⟨c, -, h⟩ := bind_eq_ok.1 h
        obtain ⟨cs, -, h⟩ := bind_eq_ok.1 h
        cases h
    | cons c text ih =>
      cases bytes with
      | nil =>
        rw [readFrom_nil] at h
        cases h
      | cons b bs =>
        rcases hchar : readChar pos b bs with ⟨used, item⟩
        rw [readFrom, hchar, List.mapM_cons] at h
        obtain ⟨c', hitem, h⟩ := bind_eq_ok.1 h
        obtain ⟨text', hmore, h⟩ := bind_eq_ok.1 h
        cases h
        cases hitem
        obtain ⟨tail, rest, rfl, rfl, hc⟩ := encode_of_readChar hchar
        simp only [List.drop_left] at hmore
        rw [bytesOf_cons, hc, ih hmore, List.cons_append]
  · rintro rfl
    induction text generalizing pos with
    | nil =>
      rw [bytesOf, List.flatMap_nil, readFrom_nil]
      rfl
    | cons c text ih =>
      rw [bytesOf_cons, readFrom_encode, List.mapM_cons, ih]
      rfl

/-- A text is read from its bytes and from no others. -/
theorem read_eq_ok_iff {bytes : List UInt8} {text : List Char} :
    read bytes = .ok text ↔ bytes = bytesOf text :=
  readFrom_eq_ok_iff

end Utf8

end PanelExport
