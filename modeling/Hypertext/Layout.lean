import Hypertext.Content
import Hypertext.Text.Indent

/-!
# Layout

A layout puts every node on a line of its own, moved in to its level. An element without children
or with a text directly in it is inline and stays as it is, since white space inside it would show.
Any other element is a block: its children are laid out one level further in. They are taken as
content, so that fragments among them dissolve.

Before anything else of a block, its children are built as content, and the trace gets their number
and level.

* `lines` is `_prettify`: it lays out nodes. `contentLines` lays out the nodes that content stands
  for, which is what `_prettify` does to the children of a block when it calls `prettify` again: see
  `contentLines_eq` in `Hypertext.Layout.Lemmas`.
* `isInline` is `_is_inline`, and `reindent` is `_indent_text` for a payload of any kind.
* `layout` is `prettify`: it lays out a value of any kind.

Left out: nesting so deep that the stack runs out.
-/

namespace Hypertext

namespace Layout

/-- The value is a text node. -/
def isText : Value → Bool
  | .node (.text _) => true
  | _ => false

/-- An element with these children stays on one line (`_is_inline`). -/
def isInline (children : List Value) : Bool := children.isEmpty || children.any isText

/-- The end of a line. -/
def lineEnd : Value := .ofText "\n"

/-- The white space in front of a line. -/
def marginNode (indent : String) (level : Int) : Value := .ofText (Text.margin indent level)

/-- A value on a line of its own. -/
def line (indent : String) (level : Int) (v : Value) : List Value :=
  [marginNode indent level, v, lineEnd]

/-- A payload moved in to a level (`_indent_text`). -/
def reindent (indent : String) (level : Int) : Value → Except Fault Value
  | .str s => .ok (.str (Text.reindent s indent level))
  | v => .error (.misuse (.notText v.typeName))

mutual

/-- A node as it stands on its line: a block laid out, a text or comment moved in. -/
def shape (indent : String) (level : Int) : Node → Traced Node
  | .element name attributes children =>
    if isInline children then pure (.element name attributes children)
    else do
      let inner ← Content.nodes children
      Traced.emit (.layingOut inner.length (level + 1))
      let body ← contentLines indent (level + 1) children
      return .element name attributes (lineEnd :: body ++ [marginNode indent level])
  | .text data => do return .text (← Traced.silent (reindent indent level data))
  | .comment data => do return .comment (← Traced.silent (reindent indent level data))
  | n => pure n

/-- The line of a value. One that is no node has a line too, unchanged. -/
def nodeLine (indent : String) (level : Int) : Value → Traced (List Value)
  | .node n => do return line indent level (.node (← shape indent level n))
  | v => pure (line indent level v)

/-- The lines of values, one after another (`_prettify`). -/
def lines (indent : String) (level : Int) : List Value → Traced (List Value)
  | [] => pure []
  | v :: rest => do
    let first ← nodeLine indent level v
    let others ← lines indent level rest
    return first ++ others

/-- The lines of the nodes that one value of content stands for. Values that are refused as content
do not get here. -/
def itemLines (indent : String) (level : Int) : Value → Traced (List Value)
  | .str s => pure (line indent level (.ofText (Text.reindent s indent level)))
  | .node (.fragment children) => lines indent level children
  | .node n => do return line indent level (.node (← shape indent level n))
  | .list items => contentLines indent level items
  | .tuple items => contentLines indent level items
  | .stream _ steps => streamLines indent level steps
  | _ => pure []

/-- The lines of the nodes that content stands for. -/
def contentLines (indent : String) (level : Int) : List Value → Traced (List Value)
  | [] => pure []
  | v :: rest => do
    let first ← itemLines indent level v
    let others ← contentLines indent level rest
    return first ++ others

/-- The lines of the nodes that the items of a stream stand for. Its events are in the trace
already. -/
def streamLines (indent : String) (level : Int) : List Step → Traced (List Value)
  | [] => pure []
  | .item v :: rest => do
    let first ← itemLines indent level v
    let others ← streamLines indent level rest
    return first ++ others
  | _ :: rest => streamLines indent level rest

end

/-- The layout of nodes, with its entry in the trace. -/
def ofNodes (indent : String) (level : Int) (nodes : List Value) : Traced (List Value) := do
  Traced.emit (.layingOut nodes.length level)
  lines indent level nodes

end Layout

/-- Lay out a fragment's children, a node, a text, or the items of anything else as content
(`prettify`). -/
def layout (input : Value) (indent : String) (level : Int) : Traced (List Value) :=
  match input with
  | .node (.fragment children) => Layout.ofNodes indent level children
  | .node n => Layout.ofNodes indent level [.node n]
  | .str s => Layout.ofNodes indent level [.ofText s]
  | v => do
    let items ← v.items
    let nodes ← Content.nodes items
    Layout.ofNodes indent level nodes

end Hypertext
