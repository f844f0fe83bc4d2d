import Hypertext.Record
import Hypertext.Text.Escape
import Hypertext.Text.Occurs

/-!
# Writing markup

A tree is written in document order. Void elements have no content and no closing tag. Inside some
elements text is kept as it is, so a text there must not look like markup that matters to them. A
fragment is not written itself: its children stand where it stands.

* `Node.write` is `_serialize`: it writes a node below a parent element, if there is one.
* `Node.markup` is `serialize_node`, which `Node.html` and `str` call.
* `textAttributes?` is `_valid_attributes`, `writeAttributes` is `_attributes`, and `violation?`
  says what `_preserved_text` refuses.

Left out: the pieces that `_serialize` gives before it fails, which its caller drops.
-/

namespace Hypertext

namespace Markup

/-- The elements that have no content (`VOID_ELEMENTS`). The last four are not void, but are written
as if. -/
def voidElements : List String :=
  ["area", "base", "br", "col", "embed", "hr", "img", "input", "link", "meta", "param", "source",
   "track", "wbr", "basefont", "bgsound", "frame", "keygen"]

/-- The elements whose text is kept as it is (`TEXT_PRESERVING_ELEMENTS`). -/
def textPreservingElements : List String :=
  ["style", "script", "xmp", "iframe", "noembed", "noframes", "plaintext"]

/-- The element has no content. -/
def isVoid (name : String) : Bool := voidElements.contains name

/-- The element keeps its text as it is. -/
def isTextPreserving (name : String) : Bool := textPreservingElements.contains name

/-- What is wrong with a text as it stands inside `name` (`_preserved_text`). -/
def violation? (name data : String) : Option Violation :=
  if Text.contains data "<!--" then some .commentOpener
  else if Text.contains data ("<" ++ name) then some .openingTag
  else if Text.contains data ("</" ++ name) then some .closingTag
  else none

/-- A text below `parent`. -/
def writeText (parent : Option String) (data : String) : Except Fault String :=
  match parent with
  | some name =>
    if isTextPreserving name then
      match violation? name data with
      | some kind => .error (.preservedText kind name)
      | none => .ok data
    else .ok (Text.escapeText data)
  | none => .ok (Text.escapeText data)

/-- A comment. -/
def writeComment (data : String) : Except Fault String :=
  if Text.contains data "-->" then .error .commentTerminator else .ok ("<!--" ++ data ++ "-->")

/-- Attributes whose keys and values are texts. -/
abbrev Attributes := List (String × String)

/-- The attributes, if they are text to text (`_valid_attributes`). -/
def textAttributes? : Record → Option Attributes
  | [] => some []
  | (.str key, .str value) :: rest => (textAttributes? rest).map ((key, value) :: ·)
  | _ :: _ => none

/-- Attributes as an opening tag holds them (`_attributes`). -/
def writeAttributes (a : Attributes) : String :=
  String.join (a.map fun e => " " ++ e.1 ++ "=\"" ++ Text.escapeAttribute e.2 ++ "\"")

/-- An opening tag. -/
def openingTag (name : String) (a : Attributes) : String :=
  "<" ++ name ++ writeAttributes a ++ ">"

/-- A closing tag. -/
def closingTag (name : String) : String := "</" ++ name ++ ">"

end Markup

open Markup

mutual

/-- A value as markup below `parent`: only nodes can be written. -/
def Value.write (parent : Option String) : Value → Except Fault String
  | .node n => n.write parent
  | v => .error (.unsupported v)

/-- A node as markup below `parent` (`_serialize`). -/
def Node.write (parent : Option String) : Node → Except Fault String
  | .text (.str data) => writeText parent data
  | .comment (.str data) => writeComment data
  | .raw (.str data) => .ok data
  | .doctype (.str name) => .ok ("<!DOCTYPE " ++ name ++ ">")
  | .element (.str name) attributes children =>
    match textAttributes? attributes with
    | some a =>
      if isVoid name then .ok (openingTag name a)
      else do
        let inner ← writeAll (some name) children
        return openingTag name a ++ inner ++ closingTag name
    | none => .error (.unsupported (.node (.element (.str name) attributes children)))
  | .fragment children => writeAll parent children
  | n => .error (.unsupported (.node n))

/-- Values as markup, one after another. -/
def writeAll (parent : Option String) : List Value → Except Fault String
  | [] => .ok ""
  | v :: rest => do
    let first ← v.write parent
    let others ← writeAll parent rest
    return first ++ others

end

/-- A node as markup on its own (`serialize_node`). -/
def Node.markup (n : Node) : Except Fault String := n.write none

end Hypertext
