import PanelExport.Proofs.Document.PageMarks
import PanelExport.Proofs.Document.Reading
import PanelExport.Query.Report

/-!
# Replies that are written

A reply is sent as one line that may stand inside a web page, and nothing of it is lost on the way,
whatever its texts hold: quotes, backslashes in front of what is replaced, or texts that look like
an escape themselves.

* `Reply.toDocument_injective`: the document of a reply has all of the reply.
* `Reply.body_eq_write`: a reply is written at once as it is sent.
* `Reply.body_lossless`: what is sent is one document on one line, safe in a page, that every reader
  takes for the document of the reply.
-/

namespace PanelExport

variable {f : Format}

/-! ## Texts as a document -/

namespace Document

theorem ofTexts_injective {texts texts' : List String} (h : ofTexts texts = ofTexts texts') :
    texts = texts' :=
  (List.map_inj_right fun _ _ h => Document.text.inj h).1 (Document.list.inj h)

theorem writable_ofTexts (texts : List String) (depth : Nat) :
    Writable f (depth + 1) (ofTexts texts) := by
  refine .list fun d hd => ?_
  obtain ⟨text, -, rfl⟩ := List.mem_map.1 hd
  exact .text text

end Document

namespace Query.Reply

open Document

/-! ## The document of a reply -/

theorem listed_injective {texts? texts?' : Option (List String)}
    (h : listed texts? = listed texts?') : texts? = texts?' := by
  cases texts? with
  | none =>
    cases texts?' with
    | none => rfl
    | some => cases h
  | some texts =>
    cases texts?' with
    | none => cases h
    | some texts' => exact congrArg some (ofTexts_injective h)

theorem toDocument_injective {p q : Reply} (h : p.toDocument = q.toDocument) : p = q := by
  have hentries := Document.object.inj h
  simp only [List.cons.injEq, Prod.mk.injEq, true_and, and_true, Document.int.injEq,
    Document.bool.injEq] at hentries
  obtain ⟨htexts, hmetrics, hcount, hok, herrors, hreceived⟩ := hentries
  cases p
  cases q
  cases hok
  cases hreceived
  cases hcount
  cases listed_injective htexts
  cases listed_injective hmetrics
  cases ofTexts_injective herrors
  rfl

theorem writable_listed (texts? : Option (List String)) (depth : Nat) :
    Writable f (depth + 1) (listed texts?) := by
  cases texts? with
  | none => exact .null
  | some texts => exact writable_ofTexts texts depth

/-- The number of digits of a count. -/
def countDigits (n : Int) : Nat := (Nat.toDigits 10 n.natAbs).length

/-- A document holds a reply if its counts are short enough for the format. -/
theorem writable_toDocument {p : Reply} (depth : Nat)
    (hlimit : ∀ limit, f.digits? = some limit →
      countDigits p.received ≤ limit ∧ countDigits p.metricsCount ≤ limit) :
    Writable f (depth + 2) p.toDocument := by
  refine .object ?_ (by simp only [List.map_cons, List.map_nil]; decide)
  simp only [List.forall_mem_cons]
  exact ⟨writable_listed _ _, writable_listed _ _, .int fun limit hf => (hlimit limit hf).2,
    .bool _, writable_ofTexts _ _, .int fun limit hf => (hlimit limit hf).1, nofun⟩

/-- Every reply has a document of the standard format. -/
theorem writable_standard (p : Reply) : Writable .standard 2 p.toDocument :=
  writable_toDocument 0 nofun

/-! ## What is sent -/

/-- A reply is written at once as it is sent. -/
theorem body_eq_write (p : Reply) : p.body = write embedded p.toDocument ++ "\n" := by
  rw [body, escapeMarks_write p.writable_standard]

/-- What is sent is read as the document of the reply. -/
theorem read_body {p : Reply} (hreceived : countDigits p.received ≤ digitLimit)
    (hcount : countDigits p.metricsCount ≤ digitLimit) :
    Document.read p.body.toList = .ok p.toDocument := by
  have hwritable : Writable (.torn digitLimit) depthLimit p.toDocument := by
    refine writable_toDocument 988 ?_
    rintro _ ⟨⟩
    exact ⟨hreceived, hcount⟩
  have hend : "\n".toList = ['\n'] := rfl
  have hblank : IsBlanks ['\n'] := by simp [IsBlanks, isBlankBetween]
  have hmark : ((write embedded p.toDocument).toList ++ ['\n']).head? ≠ some '\uFEFF' := by
    rw [toDocument, toList_write_object]
    intro h
    cases h
  rw [body_eq_write, String.toList_append, hend, Document.read, if_neg hmark]
  exact readWhole_eq_ok_iff.2 ⟨[], (write embedded p.toDocument).toList, ['\n'],
    (List.nil_append _).symm, isBlanks_nil, hblank, spelled_write isStandard_embedded hwritable⟩

/-- A reply is sent as one object on one line. The line spells the document of the reply and no
other, in whatever format it is read, and no other reply has that document; nothing in it could end
a script or a line of a web page. If the counts are not too long for it, the library's own reader
reads the document. -/
theorem body_lossless (p : Reply) :
    ∃ line : String, p.body = line ++ "\n" ∧
      Spelled .standard 2 p.toDocument line.toList ∧
      (∀ f depth d, Spelled f depth d line.toList →
        d = p.toDocument ∧ ∀ q : Reply, d = q.toDocument → q = p) ∧
      (∀ c ∈ line.toList, c ∉ pageMarks ∧ c ≠ '\n') ∧
      (countDigits p.received ≤ digitLimit → countDigits p.metricsCount ≤ digitLimit →
        Document.read p.body.toList = .ok p.toDocument) := by
  have hspelled := spelled_write isStandard_embedded p.writable_standard
  refine ⟨_, p.body_eq_write, hspelled, fun f depth d h => ?_, safe_write p.writable_standard,
    read_body⟩
  obtain rfl := h.unique hspelled
  exact ⟨rfl, fun q h => toDocument_injective h.symm⟩

/-- A reply whose texts hold backslashes in front of page marks, and what looks like an escape. -/
def marked : Reply where
  ok := true
  received := 2
  texts? := some ["\\\\<a href=\"\">\\u003c&\u2028\u2029", "\x01\n\x7b\x7d"]
  metrics? := none
  metricsCount := 0
  errors := ["", "\\"]

theorem body_lossless_marked :
    countDigits marked.received ≤ digitLimit ∧ countDigits marked.metricsCount ≤ digitLimit ∧
      marked.body =
        "\x7b\"exprs\":[\"\\\\\\\\\\u003ca href=\\\"\\\"\\u003e\\\\u003c\\u0026\\u2028\\u2029\"," ++
          "\"\\u0001\\n\x7b\x7d\"],\"metrics\":null,\"metricsCount\":0,\"ok\":true," ++
          "\"parseErrorsByIdx\":[\"\",\"\\\\\"],\"queriesReceived\":2\x7d\n" ∧
      (∀ c ∈ pageMarks, c ∉ marked.body.toList) ∧
      Document.read marked.body.toList = .ok marked.toDocument := by
  have hreceived : countDigits marked.received ≤ digitLimit := by decide
  have hcount : countDigits marked.metricsCount ≤ digitLimit := by decide
  obtain ⟨line, hline, -, -, hsafe, hread⟩ := body_lossless marked
  refine ⟨hreceived, hcount, ?_, fun c hc hmem => ?_, hread hreceived hcount⟩
  · rw [body_eq_write]
    decide +kernel
  rw [hline, String.toList_append, List.mem_append] at hmem
  rcases hmem with hmem | hmem
  · exact (hsafe c hmem).1 hc
  · obtain rfl := List.mem_singleton.1 hmem
    revert hc
    decide

end Query.Reply

end PanelExport
