import Hypertext.Content
import Hypertext.Markup

/-!
# Content as markup

`writeFragment` is `serialize_fragment`, and `writeDocument` is `serialize_document`: they build
content and write it. The length of what was written goes into the trace.

* `outcome_writeFragment`: content is written as the nodes that it comes to.
-/

namespace Hypertext

namespace Markup

/-- Content as markup (`serialize_fragment`). -/
def writeFragment (content : List Value) : Traced String := do
  let root ← Content.fragment content
  let s ← Traced.silent root.markup
  Traced.emit (.wroteFragment s.length)
  return s

/-- Content is written as the nodes that it comes to. -/
theorem outcome_writeFragment (content : List Value) :
    (writeFragment content).outcome = (Content.nodes content).outcome >>= writeAll none := by
  unfold writeFragment Content.fragment
  rw [Traced.outcome_bind, Traced.outcome_bind]
  cases (Content.nodes content).outcome with
  | error f => rfl
  | ok ns =>
    show (Traced.silent (writeAll none ns) >>= _).outcome = writeAll none ns
    rw [Traced.outcome_bind, Traced.outcome_silent]
    cases writeAll none ns <;> rfl

/-- Content as a document: the document type comes first (`serialize_document`). -/
def writeDocument (content : List Value) : Traced String := do
  let root ← Content.fragment (.node (.doctype (.str "html")) :: content)
  let s ← Traced.silent root.markup
  Traced.emit (.wroteDocument s.length)
  return s

end Markup

end Hypertext
