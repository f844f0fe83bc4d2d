import Hypertext.Value

/-!
# Computations that leave a trace

A `Traced α` is how a call went: the events that it logged, in order, and what it returned or
raised. A failed call keeps the events up to the failure.

* `exists_of_bind_ok`: a sequence of two calls that succeeds is one of calls that do.
* `outcome_bind`, `events_bind`: the outcome of a sequence of two calls is the sequence of their
  outcomes, and the trace is the one trace after the other, as far as the calls got.
-/

namespace Hypertext

theorem exists_of_bind_ok {ε α β : Type} {x : Except ε α} {f : α → Except ε β} {b : β}
    (h : x >>= f = .ok b) : ∃ a, x = .ok a ∧ f a = .ok b := by
  cases x with
  | error e => cases h
  | ok a => exact ⟨a, rfl, h⟩

/-- The trace of a call and what came out of it. -/
structure Traced (α : Type) where
  events : List Event
  outcome : Except Fault α

namespace Traced

variable {α β : Type}

/-- A call that only fails. -/
def fail (f : Fault) : Traced α := ⟨[], .error f⟩

/-- A call that only leaves an event. -/
def emit (e : Event) : Traced Unit := ⟨[e], .ok ()⟩

/-- A call that leaves no event. -/
def silent (r : Except Fault α) : Traced α := ⟨[], r⟩

/-- One call, then another that depends on its result. -/
def andThen (x : Traced α) (f : α → Traced β) : Traced β :=
  match x.outcome with
  | .ok a => ⟨x.events ++ (f a).events, (f a).outcome⟩
  | .error e => ⟨x.events, .error e⟩

instance : Inhabited (Traced α) := ⟨fail default⟩

instance : Monad Traced where
  pure a := ⟨[], .ok a⟩
  bind := andThen

@[simp] theorem outcome_pure (a : α) : (pure a : Traced α).outcome = .ok a := rfl

@[simp] theorem events_pure (a : α) : (pure a : Traced α).events = [] := rfl

@[simp] theorem outcome_fail (f : Fault) : (fail f : Traced α).outcome = .error f := rfl

@[simp] theorem events_fail (f : Fault) : (fail f : Traced α).events = [] := rfl

@[simp] theorem outcome_silent (r : Except Fault α) : (silent r).outcome = r := rfl

@[simp] theorem events_silent (r : Except Fault α) : (silent r).events = [] := rfl

theorem outcome_bind (x : Traced α) (f : α → Traced β) :
    (x >>= f).outcome = x.outcome >>= fun a => (f a).outcome := by
  show (andThen x f).outcome = _
  unfold andThen
  cases x.outcome <;> rfl

theorem events_bind (x : Traced α) (f : α → Traced β) :
    (x >>= f).events = x.events ++ match x.outcome with
      | .ok a => (f a).events
      | .error _ => [] := by
  show (andThen x f).events = _
  unfold andThen
  cases x.outcome <;> simp

/-- A change of the result leaves no event. -/
theorem events_bind_pure (x : Traced α) (f : α → β) :
    (x >>= fun a => pure (f a)).events = x.events := by
  rw [events_bind]
  cases x.outcome <;> simp

theorem id_map (x : Traced α) : id <$> x = x := by
  obtain ⟨es, r⟩ := x
  cases r <;> simp [Functor.map, andThen]

theorem bind_assoc {γ : Type} (x : Traced α) (f : α → Traced β) (g : β → Traced γ) :
    x >>= f >>= g = x >>= fun a => f a >>= g := by
  obtain ⟨es, r⟩ := x
  cases r with
  | error e => rfl
  | ok a =>
    show andThen (andThen _ f) g = andThen _ (fun a => andThen (f a) g)
    simp only [andThen]
    cases (f a).outcome <;> simp

instance : LawfulMonad Traced := LawfulMonad.mk' Traced id_map (fun _ _ => rfl) bind_assoc

end Traced

namespace Step

/-- Go through the steps of a stream to its end. -/
def drain : List Step → Traced (List Value)
  | [] => pure []
  | .item v :: rest => do return v :: (← drain rest)
  | .note e :: rest => do
    Traced.emit e
    drain rest
  | .fail f :: _ => .fail f

end Step

/-- All items of a value that can be gone through. -/
def Value.items (v : Value) : Traced (List Value) :=
  match v.steps? with
  | some steps => Step.drain steps
  | none => .fail (.misuse (.notIterable v.typeName))

end Hypertext
