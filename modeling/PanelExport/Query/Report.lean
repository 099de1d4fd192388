import PanelExport.Document.Reader
import PanelExport.Document.Writer
import PanelExport.Query.Metrics
import PanelExport.Text.Utf8

/-!
# Reports on queries

What a caller who sends a list of expressions is told about them, how the report is written, and how
the list is read. The caller's list is the first document of the body; what follows it is ignored.

* `textsOf_ofTexts`: a list of texts is read as those texts.
-/

namespace PanelExport.Query

/-! ## Replies -/

/-- What is sent back to a caller. -/
structure Reply where
  ok : Bool
  received : Int
  /-- The expressions as they were sent; none if nothing was sent. -/
  texts? : Option (List String)
  metrics? : Option (List String)
  metricsCount : Int
  errors : List String
  deriving DecidableEq

namespace Reply

/-- A list of texts as a document, if there is one. -/
def listed (texts? : Option (List String)) : Document :=
  texts?.elim .null Document.ofTexts

/-- The reply as a document, with its names in order. -/
def toDocument (r : Reply) : Document :=
  .object
    [("exprs", listed r.texts?),
      ("metrics", listed r.metrics?),
      ("metricsCount", .int r.metricsCount),
      ("ok", .bool r.ok),
      ("parseErrorsByIdx", Document.ofTexts r.errors),
      ("queriesReceived", .int r.received)]

/-- The written reply. -/
def body (r : Reply) : String :=
  Document.escapeMarks (r.toDocument.write .compact) ++ "\n"

end Reply

/-! ## Reports -/

/-- The metrics of some expressions, and what is wrong with each of them. -/
structure Report where
  /-- The expressions as they were sent; none if nothing was sent. -/
  texts? : Option (List String)
  found : Found

namespace Report

/-- The report on the expressions that were sent. -/
def ofTexts (texts? : Option (List String)) (limit : Nat := callLimit) :
    Logged NumberFault Report := do
  return ⟨texts?, ← findMetrics (texts?.getD []) limit⟩

/-- The reply that a report makes. No metrics at all are sent as none. -/
def reply (r : Report) : Reply where
  ok := true
  received := (r.texts?.getD []).length
  texts? := r.texts?
  metrics? := if r.found.metrics.isEmpty then none else some r.found.metrics
  metricsCount := r.found.metrics.length
  errors := r.found.errors

/-- The written report. -/
def body (r : Report) : String := r.reply.body

end Report

/-! ## The list that is sent -/

/-- Why a body holds no list of expressions. -/
inductive BodyFault where
  | utf8 (fault : Utf8Fault)
  | document (fault : ReadFault)
  | notTexts
  deriving DecidableEq

/-- The wording for a document that is no list of texts. -/
def notTextsMessage : String := "expected a JSON array of strings"

/-- The texts that the items of a list are; nothing is an empty text. -/
def textsOf : List Document → Except BodyFault (List String)
  | [] => .ok []
  | .null :: ds => return "" :: (← textsOf ds)
  | .text s :: ds => return s :: (← textsOf ds)
  | _ :: _ => .error .notTexts

theorem textsOf_ofTexts (texts : List String) : textsOf (texts.map .text) = .ok texts := by
  induction texts with
  | nil => rfl
  | cons s texts ih => simp only [List.map_cons, textsOf, ih]; rfl

/-- The expressions that a document is. -/
def sentTexts : Document → Except BodyFault (Option (List String))
  | .null => .ok none
  | .list items => return some (← textsOf items)
  | _ => .error .notTexts

/-- The expressions in the bytes of a body. -/
def readBody (bytes : List UInt8) : Except BodyFault (Option (List String)) := do
  let text ← (Utf8.read bytes).mapError .utf8
  sentTexts (← (Document.readFirst (Document.skipBlanks text)).mapError .document)

end PanelExport.Query
