import Hypertext.Log.Datum
import Hypertext.Log.Template

/-!
# Log entries

An entry has a message template with arguments, and further fields. Some names belong to the entry
itself: under `msg` and `args` another template and other arguments are given, `exc_text` is the
text of an exception that is not at hand, `stack_info` a stack. The others of these names, and names
that begin with an underscore, are not written.

* `Entry.message` is what `logging` makes of a template and its arguments.
* `Entry.fields` is what is written of an entry, in order. It stands for the `format` of the base of
  `JsonFormatter`, which belongs to another library, as that is documented: no theorem rests on it.

Left out: what an entry knows of where and when it was made, which is not written.
-/

namespace Hypertext.Log

namespace Datum

mutual

/-- The value that a piece of data stands for. -/
def toValue : Datum → Value
  | .null => .null
  | .bool b => .bool b
  | .int i => .int i
  | .text s => .str s
  | .array items => .list (toValues items)
  | .object entries => .record (toEntries entries)

/-- The values of several pieces of data. -/
def toValues : List Datum → List Value
  | [] => []
  | d :: rest => d.toValue :: toValues rest

/-- The entries of a record. -/
def toEntries : List (String × Datum) → List (Value × Value)
  | [] => []
  | (key, d) :: rest => (.str key, d.toValue) :: toEntries rest

end

/-- The piece of data holds nothing: it is null, no, zero or empty. -/
def isVoid : Datum → Bool
  | .null | .bool false | .int 0 | .text "" | .array [] | .object [] => true
  | _ => false

/-- The piece of data is made of others. -/
def isCollection : Datum → Bool
  | .array _ | .object _ => true
  | _ => false

end Datum

/-- Fields by name, in order. -/
abbrev Fields := List (String × Datum)

namespace Fields

/-- Give a field a value, in its place if it has one and at the end otherwise. -/
def put (name : String) (value : Datum) : Fields → Fields
  | [] => [(name, value)]
  | (n, v) :: rest => if n = name then (name, value) :: rest else (n, v) :: put name value rest

/-- Fields given one after another. -/
def ofList (given : List (String × Datum)) : Fields :=
  given.foldl (fun fs f => put f.1 f.2 fs) []

/-- The field under a name, if it is there and holds something. -/
def filled (name : String) (fs : Fields) : Option Datum :=
  (fs.lookup name).bind fun d => if d.isVoid then none else some d

end Fields

/-- The names that an entry has of its own. -/
def reservedFields : List String :=
  ["args", "asctime", "created", "exc_info", "exc_text", "filename", "funcName", "levelname",
   "levelno", "lineno", "module", "msecs", "message", "msg", "name", "pathname", "process",
   "processName", "relativeCreated", "stack_info", "taskName", "thread", "threadName"]

/-- The further field is written. -/
def isWritten (name : String) : Bool :=
  !reservedFields.contains name && !name.toList.head?.any (· = '_')

/-- An entry of the log. -/
structure Entry where
  template : String
  args : List Value
  further : Fields
  /-- The entry has an exception, which is reported apart. -/
  hasException : Bool

namespace Entry

/-- The template: the one among the further fields goes before the entry's own. -/
def givenTemplate (e : Entry) : String :=
  ((e.further.lookup "msg").map fun d => d.toValue.display).getD e.template

/-- The arguments. A value among the further fields is one argument, and it need not be used if it
is an array or an object; nor need a record that is the only argument, unless it is empty. -/
def givenArguments (e : Entry) : Template.Arguments :=
  match e.further.lookup "args", e.args with
  | some d, _ => if d.isVoid then ⟨[], false⟩ else ⟨[d.toValue], d.isCollection⟩
  | none, [.record (entry :: rest)] => ⟨[.record (entry :: rest)], true⟩
  | none, args => ⟨args, false⟩

/-- The message: the template filled with its arguments. -/
def message (e : Entry) : Except Misuse String := Template.message e.givenTemplate e.givenArguments

/-- A field under another name, if it holds something. -/
def renamed (source target : String) (fs : Fields) : Fields :=
  match fs.filled source with
  | some d => [(target, d)]
  | none => []

/-- What is written of an entry: the message, the text of an exception and the stack if they are
given, and the further fields in order. -/
def fields (e : Entry) : Except Misuse Fields := do
  let message ← e.message
  let exception := if e.hasException then [] else renamed "exc_text" "exc_info" e.further
  let stack := renamed "stack_info" "stack_info" e.further
  let others := e.further.filter fun f => isWritten f.1
  return ("message", .text message) :: exception ++ stack ++ others

end Entry

end Hypertext.Log
