import Hypertext.Log.Logger
import Hypertext.Proofs.Markup.Offence
import Hypertext.Response

/-!
# A process and what is done in it

Settings and the logger outlive a call: a `Process` holds them from one act to the next, together
with what the settings are read from, which anybody may change in between. A run is a list of acts.
Each `Moment` of a run is an act together with the process that it finds.

* `Act.run`: one act, by the library's own functions: `get_settings`, `configure_logging` and
  `html_response`.
* `Process.after`, `Process.moments`: a run, and everything that happens in it.
* `mem_moments`: a moment of a run is an act behind some first part of the run.
-/

namespace Hypertext

/-- What a process holds: what settings are read from, the logger, and how bytes are compressed
(`brotli.compress`), which no act changes. -/
structure Process where
  source : Settings.Source
  logger : Log.Logger
  brotli : ByteArray → ByteArray

/-- One thing that is done in a process. -/
inductive Act where
  /-- The environment becomes another one. -/
  | setEnvironment (env : Environment)
  /-- The file of variables becomes another one, which does `load` to an environment. -/
  | setFile (load : Environment → Environment)
  /-- The settings are asked for. -/
  | readSettings
  /-- Somebody else adds a handler to the logger: the one with the number `n`, at some level. -/
  | addForeign (n : Nat) (level : Int)
  /-- The logger is configured, from given settings or else from those of the process. -/
  | configure (given : Option Settings)
  /-- A request is answered with content. -/
  | respond (request : Request) (content : List Value) (options : ResponseOptions)

/-- What comes of an act. -/
inductive Answer where
  | nothing
  | settings (outcome : Except Fault Settings)
  | handler (outcome : Except Fault Log.Handler)
  | response (outcome : Traced Response)

namespace Answer

/-- What went wrong, if anything did. -/
def fault? : Answer → Option Fault
  | nothing => none
  | settings r => Hypertext.fault? r
  | handler r => Hypertext.fault? r
  | response x => Hypertext.fault? x.outcome

end Answer

/-- One act: its answer, and the process that it leaves. -/
def Act.run (p : Process) : Act → Answer × Process
  | setEnvironment env => (.nothing, { p with source := { p.source with environment := env } })
  | setFile load => (.nothing, { p with source := { p.source with load := load } })
  | readSettings =>
    let (r, source) := Settings.read p.source
    (.settings r, { p with source := source })
  | addForeign n level => (.nothing, { p with logger := p.logger.add (.foreign n level) })
  | configure (some s) =>
    let (r, logger) := p.logger.configure s
    (.handler r, { p with logger := logger })
  | configure none =>
    let ((r, logger), source) := Log.Logger.configureFrom p.source p.logger
    (.handler r, { p with source := source, logger := logger })
  | respond request content options =>
    let (x, source) := Hypertext.respond p.brotli request content options p.source
    (.response x, { p with source := source })

/-- Configuration from the settings of the process. -/
theorem Act.run_configure (p : Process) : (Act.configure none).run p =
    match Settings.read p.source with
    | (.ok s, source) =>
      (.handler (p.logger.configure s).1,
        { p with source := source, logger := (p.logger.configure s).2 })
    | (.error f, source) => (.handler (.error f), { p with source := source }) := by
  simp only [Act.run, Log.Logger.configureFrom]
  obtain ⟨_ | _, _⟩ := Settings.read p.source <;> rfl

/-- An act and the process that it finds. -/
structure Moment where
  before : Process
  act : Act

namespace Moment

/-- What comes of the act. -/
def answer (m : Moment) : Answer := (m.act.run m.before).1

/-- The process that the act leaves. -/
def after (m : Moment) : Process := (m.act.run m.before).2

end Moment

namespace Process

/-- The process after a run. -/
def after (p : Process) (acts : List Act) : Process := acts.foldl (fun p a => (a.run p).2) p

/-- The moments of a run, in order. -/
def moments (p : Process) : List Act → List Moment
  | [] => []
  | a :: rest => ⟨p, a⟩ :: (a.run p).2.moments rest

theorem after_append (p : Process) (xs ys : List Act) :
    p.after (xs ++ ys) = (p.after xs).after ys :=
  List.foldl_append

theorem moments_append (ys : List Act) : ∀ (xs : List Act) (p : Process),
    p.moments (xs ++ ys) = p.moments xs ++ (p.after xs).moments ys
  | [], _ => rfl
  | a :: xs, p => by
    rw [List.cons_append, moments, moments_append ys xs, moments, List.cons_append]
    rfl

/-- One more act at the end of a run. -/
theorem moments_concat (p : Process) (acts : List Act) (a : Act) :
    p.moments (acts ++ [a]) = p.moments acts ++ [⟨p.after acts, a⟩] :=
  moments_append [a] acts p

theorem after_concat (p : Process) (acts : List Act) (a : Act) :
    p.after (acts ++ [a]) = (Moment.mk (p.after acts) a).after :=
  after_append p acts [a]

/-- **A moment of a run** is an act of it behind the acts in front. -/
theorem mem_moments {m : Moment} {p : Process} {acts : List Act} :
    m ∈ p.moments acts ↔ ∃ xs ys, acts = xs ++ m.act :: ys ∧ m.before = p.after xs := by
  constructor
  · intro h
    induction acts generalizing p with
    | nil => cases h
    | cons a rest ih =>
      rcases List.mem_cons.mp h with rfl | h
      · exact ⟨[], rest, rfl, rfl⟩
      · obtain ⟨xs, ys, rfl, hb⟩ := ih h
        exact ⟨a :: xs, ys, rfl, hb⟩
  · rintro ⟨xs, ys, rfl, hb⟩
    rw [moments_append, moments, ← hb]
    exact List.mem_append_right _ List.mem_cons_self

/-- **What every act keeps, every run keeps.** -/
theorem after_induction {P : Process → Prop} (step : ∀ m : Moment, P m.before → P m.after)
    {p : Process} (h : P p) (acts : List Act) : P (p.after acts) := by
  induction acts generalizing p with
  | nil => exact h
  | cons a rest ih => exact ih (step ⟨p, a⟩ h)

end Process

end Hypertext
