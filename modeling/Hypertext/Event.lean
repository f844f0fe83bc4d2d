/-!
# What the library reports while it works

Laying out, writing and answering leave a trace for debugging. An `Event` is one entry of it, a call
of `_logger.debug`, kept as data so that the trace of a call can be reasoned about; `Hypertext.Log`
turns events into lines.
-/

namespace Hypertext

/-- One entry of the debug trace. -/
inductive Event where
  /-- A layout of `count` nodes at `level` begins (`prettify`). -/
  | layingOut (count : Nat) (level : Int)
  /-- A fragment came to `length` characters (`serialize_fragment`). -/
  | wroteFragment (length : Nat)
  /-- A document came to `length` characters (`serialize_document`). -/
  | wroteDocument (length : Nat)
  /-- A response to a request for `path` is ready, and `bytes` bytes are sent (`html_response`). -/
  | prepared (path : String) (status : Int) (bytes : Nat)
  deriving DecidableEq, Repr

end Hypertext
