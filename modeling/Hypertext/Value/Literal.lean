import Hypertext.Value
import Hypertext.Text.Quoted

/-!
# Literals of values

The spelling of a value in messages, which is its `repr`. Nodes are spelled as calls of their
constructors with named fields; the attributes of an element are spelled as a read-only view of a
record.
-/

namespace Hypertext

/-- Items in round brackets; a single item is followed by a comma. -/
def tupleLiteral : List String → String
  | [] => "()"
  | [item] => "(" ++ item ++ ",)"
  | items => "(" ++ ", ".intercalate items ++ ")"

/-- Entries in braces. -/
def recordLiteral (entries : List (String × String)) : String :=
  "\x7b" ++ ", ".intercalate (entries.map fun e => e.1 ++ ": " ++ e.2) ++ "\x7d"

mutual

/-- A value as a literal. -/
def Value.literal : Value → String
  | .null => "None"
  | .bool true => "True"
  | .bool false => "False"
  | .int i => toString i
  | .float text => text
  | .nan _ => "nan"
  | .str s => Text.literal s
  | .bytes octets => Text.bytesLiteral octets
  | .byteArray octets => "bytearray(" ++ Text.mutableBytesLiteral octets ++ ")"
  | .list items => "[" ++ ", ".intercalate (literals items) ++ "]"
  | .tuple items => tupleLiteral (literals items)
  | .record entries => recordLiteral (entryLiterals entries)
  | .range start stop => "range(" ++ toString start ++ ", " ++ toString stop ++ ")"
  | .opaqueObject _ => "<opaque>"
  | .component _ => "<function>"
  | .stream _ _ => "<generator>"
  | .error _ e => "ConstructionError(" ++ Text.literal e.cause.message ++ ")"
  | .node n => n.literal

/-- A node as a literal. -/
def Node.literal : Node → String
  | .text data => "Text(data=" ++ data.literal ++ ")"
  | .comment data => "Comment(data=" ++ data.literal ++ ")"
  | .raw data => "RawHtml(data=" ++ data.literal ++ ")"
  | .doctype name => "DocumentType(name=" ++ name.literal ++ ")"
  | .element name attributes children =>
    "Element(name=" ++ name.literal ++ ", attributes=mappingproxy("
      ++ recordLiteral (entryLiterals attributes) ++ "), children="
      ++ tupleLiteral (literals children) ++ ")"
  | .fragment children => "Fragment(children=" ++ tupleLiteral (literals children) ++ ")"

/-- The literals of several values. -/
def literals : List Value → List String
  | [] => []
  | v :: rest => v.literal :: literals rest

/-- The literals of the keys and values of a record. -/
def entryLiterals : List (Value × Value) → List (String × String)
  | [] => []
  | (k, v) :: rest => (k.literal, v.literal) :: entryLiterals rest

end

end Hypertext
