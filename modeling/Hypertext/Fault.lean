import Hypertext.Value.Literal
import Hypertext.Markup

/-!
# Wording of faults

* `Fault.kind` is the name of the class under which a fault is raised: `ConstructionError`,
  `UnsupportedNodeError`, `CommentTerminatorError`, `TextPreservingViolationError`, or one that is
  built in.
* `Fault.message` is its wording. An error of building is worded with its trail, a line for each
  frame, as `ConstructionError.__str__` and `Frame.__str__` do it.
* `Value.display` is what `str` makes of a value.

Left out: the wording of the errors that are built in. `Misuse.message` says in words of its own
what they are about, but for the ones that are seen in a report.
-/

namespace Hypertext

/-- What a violation is called in messages: the value of a `ViolationKind`. -/
def Violation.message : Violation → String
  | commentOpener => "<!-- in text preserving element"
  | openingTag => "opening tag in text preserving element"
  | closingTag => "closing tag in text preserving element"

/-- The code of a violation: the name of a `ViolationKind`. -/
def Violation.code : Violation → String
  | commentOpener => "COMMENT_OPENER"
  | openingTag => "OPENING_TAG"
  | closingTag => "CLOSING_TAG"

namespace Misuse

/-- A value of the wrong type is told apart from one of the right type that is out of bounds. -/
def kind : Misuse → String
  | templateFormat | undefinedNumber | malformedNumber _ | unknownLevel _ => "ValueError"
  | infiniteNumber => "OverflowError"
  | notARecord _ => "AttributeError"
  | _ => "TypeError"

/-- The wording of a misuse. -/
def message : Misuse → String
  | notIterable t => "'" ++ t ++ "' object is not iterable"
  | notText t => "a text was expected, not a value of type '" ++ t ++ "'"
  | notCallable t => "'" ++ t ++ "' object is not callable"
  | notAContainer t => "'" ++ t ++ "' object has no members"
  | notARecord t => "'" ++ t ++ "' object has no entries"
  | notHashable t => "unhashable type: '" ++ t ++ "'"
  | repeatedArgument n => "the argument '" ++ n ++ "' is given twice"
  | templateArguments => "the arguments do not fit the places of the template"
  | templateFormat => "the template has a place of an unknown kind"
  | infiniteNumber => "an infinity is no whole number"
  | undefinedNumber => "no number is no whole number"
  | malformedNumber s => "not a whole number: " ++ Text.literal s
  | unknownLevel n => "Unknown level: " ++ Text.literal n

end Misuse

mutual

/-- A value as plain text: a text is itself, a node is its markup if it can be written, an error is
its message, and all else is spelled as a literal. -/
def Value.display : Value → String
  | .str s => s
  | .error _ e => e.message
  | .node n =>
    match n.markup with
    | .ok s => s
    | .error _ => n.literal
  | v => v.literal

/-- The cause, then a line for each frame. -/
def BuildError.message : BuildError → String
  | ⟨cause, trail⟩ => cause.message ++ trailLines trail

/-- The lines of frames. -/
def trailLines : List Frame → String
  | [] => ""
  | f :: rest => "\n  in " ++ f.text ++ trailLines rest

/-- A frame as messages show it: the element as an opening tag without brackets, then the index. -/
def Frame.text : Frame → String
  | ⟨element, attributes, index⟩ => element ++ displayAttributes attributes ++ ":" ++ toString index

/-- Attributes as messages show them, without any escaping. -/
def displayAttributes : List (Value × Value) → String
  | [] => ""
  | (k, v) :: rest => " " ++ k.display ++ "=\"" ++ v.display ++ "\"" ++ displayAttributes rest

end

namespace Fault

/-- The name under which a fault is reported. -/
def kind : Fault → String
  | build _ => "ConstructionError"
  | unsupported _ => "UnsupportedNodeError"
  | commentTerminator => "CommentTerminatorError"
  | preservedText _ _ => "TextPreservingViolationError"
  | misuse m => m.kind

/-- The wording of a fault. -/
def message : Fault → String
  | build e => e.message
  | unsupported v => "unsupported node " ++ v.literal
  | commentTerminator => "Comment containing -->"
  | preservedText kind element => kind.message ++ " <" ++ element ++ ">"
  | misuse m => m.message

end Fault

end Hypertext
