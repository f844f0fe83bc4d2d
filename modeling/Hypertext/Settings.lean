import Hypertext.Value
import Hypertext.Text.Capital
import Hypertext.Text.WholeNumber

/-!
# Settings

Settings come from the environment, into which a file of variables is loaded first. They are read
when first needed and then stay as they are: a `Cache` holds them once a reading has succeeded.

* `Settings.ofEnvironment` is `Settings.from_env` behind its call of `load_dotenv`: it reads an
  environment as it is.
* `Settings.Source` is what a reading depends on. `load_dotenv` belongs to another library and is a
  parameter, `Source.load`: it may do to the environment whatever it likes, and is taken to return.
  `Environment.filledFrom` is what it is documented to do.
* `Settings.read` is `get_settings`. A reading that fails has loaded the file all the same.
  `read_fixed`: what is fixed is answered, and nothing is loaded; `read_ok`: a first reading fixes
  what it has read; `read_error`, `source_of_read_error`: a failed reading fixes nothing.

Left out: how a file of variables is found and parsed.
-/

namespace Hypertext

/-- Variables and their values; of two with one name the later counts. -/
abbrev Environment := List (String × String)

namespace Environment

/-- The value of a variable. -/
def find (name : String) (env : Environment) : Option String :=
  (env.reverse.find? fun e => e.1 == name).map (·.2)

/-- The environment with what the variables of a file add to it: those that it has already stay as
they are. -/
def filledFrom (file env : Environment) : Environment :=
  (file.filter fun e => (env.find e.1).isNone) ++ env

/-- A variable of the environment goes before one of the file. -/
theorem find_filledFrom (name : String) (file env : Environment) :
    (filledFrom file env).find name = (env.find name).or (file.find name) := by
  rw [find, filledFrom, List.reverse_append, List.find?_append, Option.map_or, ← find,
    ← List.filter_reverse, List.find?_filter]
  cases he : env.find name with
  | some value => rfl
  | none =>
    -- No variable of the file by this name is left out.
    have kept (e : String × String) :
        ((env.find e.1).isNone = true ∧ (e.1 == name) = true) ↔ (e.1 == name) = true := by
      constructor
      · exact And.right
      · intro hn
        rw [beq_iff_eq.mp hn, he]
        exact ⟨rfl, beq_self_eq_true name⟩
    simp only [kept, Bool.decide_eq_true, Option.none_or]
    rfl

end Environment

/-- How the library behaves where its caller does not say (`Settings`). `logIndent` is
`json_indent`. -/
structure Settings where
  /-- The name of the level from which the log is kept. -/
  logLevel : String := "WARNING"
  /-- How far nested values of log lines are moved in; without it a line is one line. -/
  logIndent : Option Int := none
  /-- Responses may be compressed. -/
  compress : Bool := true
  deriving DecidableEq, Repr

namespace Settings

/-- The texts that mean yes. -/
def affirmative : List String := ["1", "true", "yes", "on"]

/-- Whether a text means yes, in letters of any case. Small letters are those of ASCII: no letter
beyond it has a small form with a letter of these texts in it. -/
def isAffirmative (s : String) : Bool :=
  affirmative.contains (String.ofList (s.toList.map Char.toLower))

/-- The indent that a variable gives: an empty one gives none. -/
def indentOf (value : Option String) : Except Fault (Option Int) :=
  match value with
  | none | some "" => .ok none
  | some s =>
    match Text.wholeNumber? s with
    | some i => .ok (some i)
    | none => .error (.misuse (.malformedNumber s))

/-- The settings of an environment (`from_env`). -/
def ofEnvironment (env : Environment) : Except Fault Settings := do
  let indent ← indentOf (env.find "TINYDOM_LOG_INDENT")
  return {
    logLevel := Text.capitals ((env.find "TINYDOM_LOG_LEVEL").getD "WARNING")
    logIndent := indent
    compress := ((env.find "TINYDOM_COMPRESS").map isAffirmative).getD true }

/-- The settings once they are fixed. -/
abbrev Cache := Option Settings

/-- What a reading of the settings depends on. -/
structure Source where
  /-- What loading the file of variables does to an environment. -/
  load : Environment → Environment
  /-- The environment as it is now. -/
  environment : Environment
  /-- The settings once they are fixed. -/
  cache : Cache

namespace Source

/-- Load the file of variables. -/
def loaded (src : Source) : Source := { src with environment := src.load src.environment }

/-- The settings become `s`. -/
def fix (s : Settings) (src : Source) : Source := { src with cache := some s }

/-- The settings as they would be read now, from what the environment is with the file loaded. -/
def fromEnvironment (src : Source) : Except Fault Settings := ofEnvironment src.loaded.environment

end Source

/-- Read the settings: the fixed ones if there are any. Else the file of variables is loaded, and
the environment gives the settings, which are fixed from then on (`get_settings`). -/
def read (src : Source) : Except Fault Settings × Source :=
  match src.cache with
  | some s => (.ok s, src)
  | none =>
    match src.fromEnvironment with
    | .ok s => (.ok s, src.loaded.fix s)
    | .error f => (.error f, src.loaded)

section Readings

variable {src : Source} {s : Settings} {f : Fault}

theorem read_fixed (hc : src.cache = some s) : read src = (.ok s, src) := by
  simp only [read, hc]

theorem read_ok (hc : src.cache = none) (h : src.fromEnvironment = .ok s) :
    read src = (.ok s, src.loaded.fix s) := by
  simp only [read, hc, h]

theorem read_error (hc : src.cache = none) (h : src.fromEnvironment = .error f) :
    read src = (.error f, src.loaded) := by
  simp only [read, hc, h]

/-- A reading that fails leaves the environment with the file loaded, and nothing else. -/
theorem source_of_read_error {src' : Source} (h : read src = (.error f, src')) :
    src' = src.loaded ∧ src.cache = none ∧ src.fromEnvironment = .error f := by
  cases hc : src.cache with
  | some s =>
    rw [read_fixed hc] at h
    cases h
  | none =>
    cases ho : src.fromEnvironment with
    | ok s =>
      rw [read_ok hc ho] at h
      cases h
    | error g =>
      rw [read_error hc ho] at h
      cases h
      exact ⟨rfl, rfl, rfl⟩

end Readings

end Settings

end Hypertext
