import Hypertext.Traced
import Hypertext.Record
import Hypertext.Value.Literal

/-!
# Building from loose content

Content is a sequence of values. A text becomes a text node, a node stands for itself, a fragment
for its children, null for nothing; a record writes attributes; any other sequence stands for its
items. What is built collects in a `Draft`. When an item is refused, the draft stays as it was left
and the error gets a frame from every sequence around the item but the outermost.

* `append` is `append_children`: it adds content to a draft. `appendItem` is one turn of its loop,
  and `appendRecord` is `_set_attributes`.
* `element` and `fragment` build a node from an empty draft. The functions `text`, `comment`,
  `raw_html` and `doctype` check nothing and are the constructors of `Node`.
* `append_children` writes into the list and the record that it is given; a `Draft` holds both, and
  `Progress` keeps the draft of a call that fails.

Left out: one list or record under two names, one stream gone through twice, and nesting so deep
that the stack runs out.
-/

namespace Hypertext

/-- The place under construction: an element by its name, or the root. -/
structure Site where
  name : Option String
  deriving DecidableEq, Repr

namespace Site

/-- The root: a place without attributes. -/
def root : Site := ⟨none⟩

/-- An element under construction. -/
def element (name : String) : Site := ⟨some name⟩

/-- How messages name the place: `label` in `append_children`. -/
def label (s : Site) : String :=
  match s.name with
  | none => "root"
  | some n => "<" ++ n ++ ">"

/-- How frames name the place. An element whose name is empty is not told from the root. -/
def frameName (s : Site) : String :=
  match s.name with
  | none | some "" => "root"
  | some n => n

end Site

/-- What has been built so far: the nodes, the attributes if the place has any, and the trace. -/
structure Draft where
  nodes : List Value
  attributes : Option Record
  events : List Event

namespace Draft

/-- A draft of the root's children. -/
def ofNodes (nodes : List Value) : Draft := ⟨nodes, none, []⟩

/-- A draft with nothing in it but room for attributes. -/
def empty : Draft := ⟨[], some [], []⟩

/-- Nodes added at the end. -/
def add (d : Draft) (nodes : List Value) : Draft := { d with nodes := d.nodes ++ nodes }

/-- An event added to the trace. -/
def note (d : Draft) (e : Event) : Draft := { d with events := d.events ++ [e] }

end Draft

/-- How far adding content got: to the end, or to a fault. Either way the draft is what has been
built by then. -/
inductive Progress where
  | done (draft : Draft)
  | stopped (draft : Draft) (fault : Fault)

namespace Progress

/-- What has been built. -/
def draft : Progress → Draft
  | done d => d
  | stopped d _ => d

/-- Go on with more content if all went well. -/
def andThen (p : Progress) (next : Draft → Progress) : Progress :=
  match p with
  | done d => next d
  | stopped d f => stopped d f

/-- The same progress seen from the sequence around: an error of building gets a frame
(`add_frame`), and any other fault passes. -/
def within (site : Site) (index : Nat) : Progress → Progress
  | stopped d (.build e) =>
    stopped d (.build (e.within ⟨site.frameName, d.attributes.getD [], index⟩))
  | p => p

/-- Progress as a traced result. -/
def traced : Progress → Traced Draft
  | done d => ⟨d.events, .ok d⟩
  | stopped d f => ⟨d.events, .error f⟩

end Progress

namespace Content

/-- A refused item. -/
def refuse (d : Draft) (cause : BuildCause) : Progress := .stopped d (.build (.of cause))

/-- Write the entries of a record into attributes, as far as they are text to text or null. A null
takes the key away (`_set_attributes`). -/
def assign (label : String) : Record → Record → Record × Option BuildCause
  | [], a => (a, none)
  | (.str key, .null) :: rest, a => assign label rest (Record.drop key a)
  | (.str key, .str value) :: rest, a => assign label rest (Record.put key (.str value) a)
  | (.str key, value) :: _, a => (a, some (.attributeValue key label value.typeName))
  | (key, _) :: _, a => (a, some (.attributeName label key.literal))

/-- Write a record, if the place has attributes. -/
def appendRecord (site : Site) (entries : Record) (d : Draft) : Progress :=
  match d.attributes with
  | none => refuse d (.noAttributesAt site.label)
  | some a =>
    match assign site.label entries a with
    | (a', none) => .done { d with attributes := some a' }
    | (a', some cause) => refuse { d with attributes := some a' } cause

/-- Numbers are no content, so a range must be empty. -/
def appendRange (site : Site) (start stop : Int) (d : Draft) : Progress :=
  if start < stop then refuse d (.childType site.label (Value.int start).typeName) else .done d

mutual

/-- Add the item at position `index` of a sequence. -/
def appendItem (site : Site) (index : Nat) : Value → Draft → Progress
  | .null, d => .done d
  | .str s, d => .done (d.add [.ofText s])
  | .node (.fragment children), d => .done (d.add children)
  | .node n, d => .done (d.add [.node n])
  | .record entries, d => appendRecord site entries d
  | .list items, d => (appendItems site 0 items d).within site index
  | .tuple items, d => (appendItems site 0 items d).within site index
  | .stream _ steps, d => (appendSteps site 0 steps d).within site index
  | .range start stop, d => (appendRange site start stop d).within site index
  | v, d => refuse d (.childType site.label v.typeName)

/-- Add items, the first of which has position `index`. -/
def appendItems (site : Site) (index : Nat) : List Value → Draft → Progress
  | [], d => .done d
  | v :: rest, d => (appendItem site index v d).andThen (appendItems site (index + 1) rest)

/-- Add the items of a stream as they come, the first of which has position `index`. -/
def appendSteps (site : Site) (index : Nat) : List Step → Draft → Progress
  | [], d => .done d
  | .item v :: rest, d =>
    (appendItem site index v d).andThen (appendSteps site (index + 1) rest)
  | .note e :: rest, d => appendSteps site index rest (d.note e)
  | .fail f :: _, d => .stopped d f

end

/-- Add all items of a value that can be gone through (`append_children`). -/
def append (site : Site) (content : Value) (d : Draft) : Progress :=
  match content with
  | .range start stop => appendRange site start stop d
  | _ =>
    match content.steps? with
    | some steps => appendSteps site 0 steps d
    | none => .stopped d (.misuse (.notIterable content.typeName))

/-- The nodes that content comes to at the root. -/
def nodes (content : List Value) : Traced (List Value) :=
  (appendItems .root 0 content (.ofNodes [])).traced >>= fun d => pure d.nodes

/-- A fragment of content (`fragment`). -/
def fragment (content : List Value) : Traced Node := do
  return .fragment (← nodes content)

/-- A keyword's key without the underscores around it. -/
def keywordName (key : String) : String :=
  let bare := key.toList.dropWhile (· = '_')
  String.ofList (bare.reverse.dropWhile (· = '_')).reverse

/-- Write keywords over attributes. A null is skipped; other values are taken as they are. -/
def putKeywords : List (String × Value) → Record → Record
  | [], a => a
  | (_, .null) :: rest, a => putKeywords rest a
  | (key, value) :: rest, a => putKeywords rest (Record.put (keywordName key) value a)

/-- An element of content, with keywords as further attributes (`element`). -/
def element (name : Value) (content : List Value) (keywords : List (String × Value)) :
    Traced Node :=
  match name with
  | .str n => do
    let d ← (appendItems (.element n) 0 content .empty).traced
    return .element name (putKeywords keywords (d.attributes.getD [])) d.nodes
  | v => .fail (.build (.of (.elementName v.literal)))

end Content

end Hypertext
