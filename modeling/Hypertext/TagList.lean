import Hypertext.Content

/-!
# Tag lists

A tag list is a name followed by contents: texts are class names, a list is an element inside, a
record gives attributes, a node stands for itself, null for nothing. Class names join the `class`
attribute, after what it holds by then; a record that gives `class` replaces it.

* `tag` is the function of that name, and `TagList.element` the same without a trace, which it
  never leaves. `TagList.collectItem` is one turn of its loop. An error from a list inside gets a
  frame with the attributes collected by then.
-/

namespace Hypertext

namespace TagList

/-- What a tag list has given so far. -/
structure Collected where
  attributes : Record
  children : List Value

/-- One more class name. -/
def addClass (name : String) (a : Record) : Record :=
  match Record.find "class" a with
  | some (.str classes) => Record.put "class" (.str (classes ++ " " ++ name)) a
  | _ => Record.put "class" (.str name) a

/-- Attributes from a record, which must be text to text. -/
def addRecord (name : String) : Record → Record → Except BuildCause Record
  | [], a => .ok a
  | (.str key, .str value) :: rest, a => addRecord name rest (Record.put key (.str value) a)
  | (key, value) :: _, _ => .error (.tagAttribute key.literal value.literal name)

/-- One more child. -/
def Collected.add (c : Collected) (n : Node) : Collected :=
  { c with children := c.children ++ [.node n] }

/-- An outcome seen from the list around. -/
def within (f : Frame) : Except BuildError Node → Except BuildError Node
  | .ok n => .ok n
  | .error e => .error (e.within f)

mutual

/-- The element of the items of a tag list. -/
def build : List Value → Except BuildError Node
  | [] => .error (.of (.tagName Value.null.literal))
  | .str name :: rest => do
    let c ← collect name 1 rest ⟨[], []⟩
    return .element (.str name) c.attributes c.children
  | first :: _ => .error (.of (.tagName first.literal))

/-- Go through contents, the first of which has position `index`. -/
def collect (name : String) (index : Nat) : List Value → Collected → Except BuildError Collected
  | [], c => .ok c
  | item :: rest, c => do
    let c' ← collectItem name index item c
    collect name (index + 1) rest c'

/-- Take in the item at position `index`. -/
def collectItem (name : String) (index : Nat) : Value → Collected → Except BuildError Collected
  | .null, c => .ok c
  | .str s, c => .ok { c with attributes := addClass s c.attributes }
  | .list items, c => do
    let n ← within ⟨name, c.attributes, index⟩ (build items)
    return c.add n
  | .tuple items, c => do
    let n ← within ⟨name, c.attributes, index⟩ (build items)
    return c.add n
  | .node n, c => .ok (c.add n)
  | .record entries, c =>
    match addRecord name entries c.attributes with
    | .ok a => .ok { c with attributes := a }
    | .error cause => .error (.of cause)
  | v, _ => .error (.of (.tagContent v.typeName))

end

/-- The element of a tag list. -/
def element (spec : Value) : Except BuildError Node :=
  match spec with
  | .list items | .tuple items => build items
  | _ => .error (.of .notATagList)

end TagList

/-- The element of a tag list, as a call of the library (`tag`). -/
def tag (spec : Value) : Traced Node :=
  match TagList.element spec with
  | .ok n => pure n
  | .error e => .fail (.build e)

end Hypertext
