import Hypertext.Fault

/-!
# Reports of exceptions

An exception is reported by its type, its message and the report of its cause. An error of building
is reported with its bare message, and with the frames of its trail as its location.

* `report` is `JsonFormatter.formatException`, for a chain of exceptions.

Left out: the `traceback`, which holds places in the program text.
-/

namespace Hypertext.Log

/-- An exception: a fault of the library, or one that is given by its type and message. -/
inductive Exception where
  | fault (f : Fault)
  | stated (kind message : String)

namespace Exception

/-- The name of the exception's type. -/
def kind : Exception → String
  | fault f => f.kind
  | stated kind _ => kind

/-- The message. The message of a failed look-up is the missing key, as a literal. -/
def message : Exception → String
  | fault (.build e) => e.cause.message
  | fault f => f.message
  | stated "KeyError" message => Text.literal message
  | stated _ message => message

/-- Where the error lies, if it is one of building. -/
def location : Exception → Option (List Frame)
  | fault (.build e) => some e.trail
  | _ => none

end Exception

/-- What is reported of an exception. -/
inductive Report where
  | mk (kind message : String) (location : Option (List Frame)) (cause : Option Report)

/-- How the exceptions of a chain hang together: each was raised because of the next one, or only
while the next one was dealt with, which makes it no cause. -/
inductive Link where
  | cause
  | context
  deriving DecidableEq, Repr

/-- The report of the first exception of a chain (`formatException`). -/
def report (link : Link) : List Exception → Option Report
  | [] => none
  | e :: rest =>
    some (.mk e.kind e.message e.location (if link = .cause then report link rest else none))

end Hypertext.Log
