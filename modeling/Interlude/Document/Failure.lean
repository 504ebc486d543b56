import Interlude.Failure
import Interlude.Json.Writer
/-!
# Failures as documents

A failure is a text, or an object with its category, code, message, template, details and cause.
-/

namespace Interlude.Document

/-- The fault of an object, apart from its cause. -/
def readFault (j : Json) : Fault :=
  let details := (j.member "context").members.map fun (k, v) => (k, match v with
    | .str s => s
    | v => v.compact .plain)
  ⟨Category.ofName (j.textAt "type"), .other (j.textAt "code"), j.textAt "message",
    j.textAt "template", details⟩

/-- The failure of a document, with causes down to a depth. -/
def readFailureTo : Nat → Json → Failure
  | 0, j => .plain j.text
  | depth + 1, j =>
    match j with
    | .str s => .plain s
    | j =>
      match j.member "cause" with
      | .null => .fault (readFault j)
      | cause => .because (readFault j) (readFailureTo depth cause)

/-- The failure of a document. -/
def readFailure (j : Json) : Failure := readFailureTo 1000 j

end Interlude.Document
