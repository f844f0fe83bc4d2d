import Hypertext.Settings
import Hypertext.Event
import Hypertext.Log.Datum

/-!
# The logger

A logger has a level and handlers. One of them at most writes JSON lines; it is the library's own
and is configured from settings. Handlers of others are left alone.

* `Logger.configure` is `configure_logging` with settings at hand, `Logger.configureFrom` without:
  it brings the JSON handler in line with settings, adding it if need be, and returns it.
* `Handler` is as much of `logging.Handler` as the calls touch. Handlers are told apart by their
  `HandlerId`; a logger counts the handlers that the library has made for it, so that none of them
  is taken for another.
* `Logger.lines` is what the logger writes for a trace. The base of `JsonFormatter` belongs to
  another library and is a parameter, a `Formatter`; `Datum.line` is what it is documented to write.

Left out: what handlers of others write, filters, and loggers below and above this one but for the
level that it takes over.
-/

namespace Hypertext.Log

/-- The level of the library's events. -/
def debug : Int := 10

/-- The level that a logger without a level of its own takes over. -/
def inherited : Int := 30

/-- The levels by name. -/
def levels : List (String × Int) :=
  [("CRITICAL", 50), ("FATAL", 50), ("ERROR", 40), ("WARNING", 30), ("WARN", 30), ("INFO", 20),
   ("DEBUG", 10), ("NOTSET", 0)]

/-- The level of a name. -/
def level? (name : String) : Option Int := (levels.find? fun l => l.1 == name).map (·.2)

/-- How a handler writes: as JSON with an indent, or in a way of its own. -/
inductive Format where
  | plain
  | json (indent : Option Int)
  deriving DecidableEq, Repr

/-- Which handler it is: one that the library has made, or one of others. -/
inductive HandlerId where
  | own (n : Nat)
  | foreign (n : Nat)
  deriving DecidableEq, Repr

/-- A handler of a logger. -/
structure Handler where
  id : HandlerId
  format : Format
  level : Int
  deriving DecidableEq, Repr

namespace Handler

/-- A handler of others, which has no format of ours. -/
def foreign (n : Nat) (level : Int) : Handler := ⟨.foreign n, .plain, level⟩

/-- A handler that the library has just made. -/
def made (n : Nat) : Handler := ⟨.own n, .plain, 0⟩

/-- The handler writes JSON lines. -/
def isJson (h : Handler) : Bool :=
  match h.format with
  | .plain => false
  | .json _ => true

/-- The handler behind others, unless it is among them already (`addHandler`). -/
def addTo (h : Handler) (hs : List Handler) : List Handler :=
  if hs.any fun x => x.id = h.id then hs else hs ++ [h]

end Handler

/-- A logger: its handlers in the order in which they came, its level, and how many handlers the
library has made for it. -/
structure Logger where
  handlers : List Handler
  level : Int
  made : Nat
  deriving DecidableEq, Repr

namespace Logger

/-- A logger nobody has touched. -/
def fresh : Logger := ⟨[], 0, 0⟩

/-- Somebody adds a handler. -/
def add (h : Handler) (l : Logger) : Logger := { l with handlers := h.addTo l.handlers }

/-- The first JSON handler. -/
def json? (l : Logger) : Option Handler := l.handlers.find? Handler.isJson

/-- The handler that is configured: the first JSON handler, or else a new one. -/
def own (l : Logger) : Handler := l.json?.getD (.made l.made)

/-- The handlers in front of the first JSON handler. -/
def front (l : Logger) : List Handler := l.handlers.takeWhile fun h => !h.isJson

/-- The handlers behind the first JSON handler. -/
def behind (l : Logger) : List Handler := (l.handlers.dropWhile fun h => !h.isJson).tail

/-- The logger with `h` in the place of its first JSON handler, or as one more if it has none. -/
def withJson (h : Handler) (l : Logger) : Logger :=
  { l with
    handlers := l.front ++ h :: l.behind
    made := if l.json?.isSome then l.made else l.made + 1 }

/-- Configure from settings (`configure_logging`). The JSON handler is there and has its indent
before the name of the level is looked at; with a name that is no level the levels stay as they
were. -/
def configure (s : Settings) (l : Logger) : Except Fault Handler × Logger :=
  let formatted : Handler := { l.own with format := .json s.logIndent }
  match level? s.logLevel with
  | none => (.error (.misuse (.unknownLevel s.logLevel)), l.withJson formatted)
  | some n =>
    let levelled : Handler := { formatted with level := n }
    (.ok levelled, { l.withJson levelled with level := n })

/-- Configure from the settings that are read now. -/
def configureFrom (src : Settings.Source) (l : Logger) :
    (Except Fault Handler × Logger) × Settings.Source :=
  match Settings.read src with
  | (.ok s, src') => (l.configure s, src')
  | (.error f, src') => ((.error f, l), src')

/-- The level from which the logger passes entries on. -/
def threshold (l : Logger) : Int := if l.level = 0 then inherited else l.level

end Logger

/-- The message and the further fields of an event. -/
def eventFields : Event → List (String × Datum)
  | .layingOut count level =>
    [("message", .text ("Prettifying " ++ toString count ++ " nodes at level " ++ toString level))]
  | .wroteFragment length => [("message", .text "Serialized fragment"), ("length", .int length)]
  | .wroteDocument length => [("message", .text "Serialized document"), ("length", .int length)]
  | .prepared path status bytes =>
    [("message", .text "Prepared HTML response"), ("path", .text path), ("status", .int status),
     ("bytes", .int bytes)]

/-- What the formatter of JSON lines makes of fields, for an indent. -/
abbrev Formatter := Option Int → List (String × Datum) → String

/-- What a handler writes for an event, as a line of the formatter. -/
def Handler.lines (line : Formatter) (h : Handler) (e : Event) : String :=
  match h.format with
  | .plain => ""
  | .json indent => if h.level ≤ debug then line indent (eventFields e) ++ "\n" else ""

/-- What the JSON handlers write for a trace, one line for each event. -/
def Logger.lines (line : Formatter) (l : Logger) (events : List Event) : String :=
  if l.threshold ≤ debug then
    String.join (events.map fun e => String.join (l.handlers.map fun h => h.lines line e))
  else ""

end Hypertext.Log
