import Hypertext.BuildCause
import Hypertext.Event

/-!
# Values and nodes

Content is described by values of any kind, and which of them mean something is decided only when
an element is built or a tree is written. So `Value` holds them all: scalars, sequences, records,
streams that are worked out item by item, and nodes. A `Node` can hold any value in any place, and
`Fault` is what building, writing and laying out can end in. A `BuildError` says why content could
not become nodes, and where: its `trail` holds one `Frame` for each sequence around the offending
item, innermost first.

* `Value` is what `Shorthand` and the unchecked fields of nodes may hold. A generator is a `stream`:
  the steps of going through it, once.
* `Node` is the class of that name with its six kinds, which are frozen and check nothing.
* `BuildError` is `ConstructionError`, `Frame` is `Frame`, `Violation` is `ViolationKind`, and the
  other library errors are constructors of `Fault`. `BuildError.within` is `add_frame`.

Left out: subclasses of the built-in types, other sequences and mappings, nodes whose children are
not in a tuple, changes to a value while it is gone through, lone surrogates in texts, and objects
whose spelling holds an address.
-/

namespace Hypertext

/-- What about a text makes it unfit to stand, unescaped, inside an element whose text is kept as
it is. -/
inductive Violation where
  | commentOpener
  | openingTag
  | closingTag
  deriving DecidableEq, Repr

/-- A value of the wrong shape, where the shape is no matter of markup. Types are given by name. -/
inductive Misuse where
  /-- Something to go through item by item was expected. -/
  | notIterable (typeName : String)
  /-- The payload of a node to be laid out is no text. -/
  | notText (typeName : String)
  /-- Something to call was expected. -/
  | notCallable (typeName : String)
  /-- Something to look a member up in was expected. -/
  | notAContainer (typeName : String)
  /-- Something with named entries was expected. -/
  | notARecord (typeName : String)
  /-- A value without a digest, where one is needed. -/
  | notHashable (typeName : String)
  /-- An argument that is given twice. -/
  | repeatedArgument (name : String)
  /-- The arguments of a message template do not fit its places. -/
  | templateArguments
  /-- A message template with a place of an unknown kind. -/
  | templateFormat
  /-- An infinity where a whole number is asked for. -/
  | infiniteNumber
  /-- A float that is no number where a whole number is asked for. -/
  | undefinedNumber
  /-- A text that is no whole number. -/
  | malformedNumber (text : String)
  /-- A name that is no level of the log. -/
  | unknownLevel (name : String)
  deriving DecidableEq, Repr

mutual

/-- A value of any kind. A float is held as its shortest decimal text. What has an identity, so that
two of a kind can differ without showing it, is told apart by `id`. -/
inductive Value where
  | null
  | bool (b : Bool)
  | int (i : Int)
  | float (text : String)
  | nan (id : Nat)
  | str (s : String)
  | bytes (octets : List UInt8)
  | byteArray (octets : List UInt8)
  | list (items : List Value)
  | tuple (items : List Value)
  | record (entries : List (Value × Value))
  | range (start stop : Int)
  | opaqueObject (id : Nat)
  | component (id : Nat)
  | stream (id : Nat) (steps : List Step)
  | error (id : Nat) (e : BuildError)
  | node (n : Node)

/-- A node of a document tree, unchecked: payloads, names, attributes and children may be any
values. -/
inductive Node where
  | text (data : Value)
  | comment (data : Value)
  | raw (data : Value)
  | doctype (name : Value)
  | element (name : Value) (attributes : List (Value × Value)) (children : List Value)
  | fragment (children : List Value)

/-- One step of going through a stream: it gives an item, leaves an event in the trace, or fails,
after which nothing more comes. -/
inductive Step where
  | item (v : Value)
  | note (e : Event)
  | fail (f : Fault)

/-- What can go wrong. -/
inductive Fault where
  /-- Content that cannot become nodes. -/
  | build (e : BuildError)
  /-- A value that cannot be written as markup. -/
  | unsupported (v : Value)
  /-- A comment that holds the end of a comment. -/
  | commentTerminator
  /-- A text that cannot stand as it is inside `element`. -/
  | preservedText (kind : Violation) (element : String)
  /-- A value of the wrong shape. -/
  | misuse (m : Misuse)

/-- A refused piece of content: the cause and the way to it, innermost frame first. -/
structure BuildError where
  cause : BuildCause
  trail : List Frame

/-- A step of a trail: the element that was being built, its attributes at the moment of the
failure, and the position of the item in question. -/
structure Frame where
  element : String
  attributes : List (Value × Value)
  index : Int

end

instance : Inhabited Value := ⟨.null⟩

instance : Inhabited Node := ⟨.fragment []⟩

instance : Inhabited Fault := ⟨.commentTerminator⟩

namespace BuildError

/-- An error whose item stands at the top. -/
def of (cause : BuildCause) : BuildError := ⟨cause, []⟩

/-- The same error seen from one sequence further out (`add_frame`). -/
def within (f : Frame) (e : BuildError) : BuildError := { e with trail := e.trail ++ [f] }

end BuildError

namespace Value

/-- A text as a node. -/
def ofText (s : String) : Value := .node (.text (.str s))

/-- The name of a value's type, as messages give it. -/
def typeName : Value → String
  | .null => "NoneType"
  | .bool _ => "bool"
  | .int _ => "int"
  | .float _ => "float"
  | .nan _ => "float"
  | .str _ => "str"
  | .bytes _ => "bytes"
  | .byteArray _ => "bytearray"
  | .list _ => "list"
  | .tuple _ => "tuple"
  | .record _ => "dict"
  | .range _ _ => "range"
  | .opaqueObject _ => "Opaque"
  | .component _ => "function"
  | .stream _ _ => "generator"
  | .error _ _ => "ConstructionError"
  | .node (.text _) => "Text"
  | .node (.comment _) => "Comment"
  | .node (.raw _) => "RawHtml"
  | .node (.doctype _) => "DocumentType"
  | .node (.element _ _ _) => "Element"
  | .node (.fragment _) => "Fragment"

/-- The whole numbers from `start` on, as many as `count`. -/
def intsFrom (start : Int) : Nat → List Value
  | 0 => []
  | n + 1 => .int start :: intsFrom (start + 1) n

/-- The steps of going through a value, for one that can be gone through: a text gives its
characters, bytes give numbers, a record gives its keys. -/
def steps? : Value → Option (List Step)
  | .str s => some (s.toList.map fun c => .item (.str (String.singleton c)))
  | .bytes octets | .byteArray octets => some (octets.map fun o => .item (.int o.toNat))
  | .list items | .tuple items => some (items.map .item)
  | .record entries => some (entries.map fun e => .item e.1)
  | .range start stop => some ((intsFrom start (stop - start).toNat).map .item)
  | .stream _ steps => some steps
  | _ => none

end Value

end Hypertext
