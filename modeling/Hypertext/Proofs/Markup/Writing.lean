import Hypertext.Markup

/-!
# Markup piece by piece

The outcome of writing is put together from the outcomes of the pieces: one text behind another,
up to the first fault. With `++` for that, writing is a homomorphism from lists of values.

* `writeAll_append`: values are written one after another.
* `write_element_eq`: an element between its tags.
* `writeText_of_escapesText`: where text is escaped, no text is refused.
-/

namespace Hypertext.Markup

/-! ## Outcomes in a row -/

/-- One outcome, then another, up to the first fault. -/
instance : Append (Except Fault String) where
  append x y := do return (← x) ++ (← y)

variable {parent : Option String}

theorem ok_append_ok (s t : String) : (.ok s : Except Fault String) ++ .ok t = .ok (s ++ t) := rfl

theorem ok_empty_append (x : Except Fault String) : .ok "" ++ x = x := by
  cases x with
  | error f => rfl
  | ok s => rw [ok_append_ok, String.empty_append]

theorem append_ok_empty (x : Except Fault String) : x ++ .ok "" = x := by
  cases x with
  | error f => rfl
  | ok s => rw [ok_append_ok, String.append_empty]

theorem append_assoc (x y z : Except Fault String) : x ++ y ++ z = x ++ (y ++ z) := by
  cases x with
  | error f => rfl
  | ok s =>
    cases y with
    | error f => rfl
    | ok t =>
      cases z with
      | error f => rfl
      | ok u => simp only [ok_append_ok, String.append_assoc]

theorem exists_of_append_ok {x y : Except Fault String} {s : String} (h : x ++ y = .ok s) :
    ∃ s₁ s₂, x = .ok s₁ ∧ y = .ok s₂ ∧ s = s₁ ++ s₂ := by
  cases x with
  | error f => cases h
  | ok s₁ =>
    cases y with
    | error f => cases h
    | ok s₂ => exact ⟨s₁, s₂, rfl, rfl, (Except.ok.inj h).symm⟩

theorem append_ok_iff {x y : Except Fault String} {s : String} :
    x ++ y = .ok s ↔ ∃ s₁ s₂, x = .ok s₁ ∧ y = .ok s₂ ∧ s = s₁ ++ s₂ := by
  refine ⟨exists_of_append_ok, ?_⟩
  rintro ⟨s₁, s₂, rfl, rfl, rfl⟩
  rfl

/-! ## Values in a row -/

/-- The node is a text. -/
def isText : Node → Bool
  | .text _ => true
  | _ => false

/-- The first value is a text. -/
def beginsWithText : List Value → Bool
  | .node n :: _ => isText n
  | _ => false

theorem writeAll_cons (v : Value) (vs : List Value) :
    writeAll parent (v :: vs) = v.write parent ++ writeAll parent vs := rfl

theorem writeAll_singleton (v : Value) : writeAll parent [v] = v.write parent :=
  append_ok_empty _

/-- **Values are written one after another.** -/
theorem writeAll_append (xs ys : List Value) :
    writeAll parent (xs ++ ys) = writeAll parent xs ++ writeAll parent ys := by
  induction xs with
  | nil => exact (ok_empty_append _).symm
  | cons x xs ih => rw [List.cons_append, writeAll_cons, writeAll_cons, ih, append_assoc]

/-- Of values that can be written in a row, each can be written. -/
theorem write_of_writeAll {vs : List Value} {s : String}
    (h : writeAll parent vs = .ok s) {v : Value} (hv : v ∈ vs) : ∃ t, v.write parent = .ok t := by
  induction vs generalizing s with
  | nil => cases hv
  | cons u vs ih =>
    obtain ⟨first, others, hu, hr, -⟩ := exists_of_append_ok h
    rcases List.mem_cons.mp hv with rfl | hv
    · exact ⟨first, hu⟩
    · exact ih hr hv

/-- Values that are replaced by others are written as before if each of them is. -/
theorem writeAll_flatMap {f : Value → List Value} {vs : List Value}
    (h : ∀ v ∈ vs, writeAll parent (f v) = v.write parent) :
    writeAll parent (vs.flatMap f) = writeAll parent vs := by
  induction vs with
  | nil => rfl
  | cons v vs ih =>
    rw [List.forall_mem_cons] at h
    rw [List.flatMap_cons, writeAll_append, h.1, ih h.2, writeAll_cons]

/-- **An element is written between its tags**, a void one without content. -/
theorem write_element_eq {a : Record} {texts : Attributes} (h : textAttributes? a = some texts)
    (name : String) (children : List Value) :
    (Node.element (.str name) a children).write parent =
      if isVoid name then .ok (openingTag name texts)
      else .ok (openingTag name texts) ++ writeAll (some name) children ++
        .ok (closingTag name) := by
  rw [Node.write, h]
  show (if isVoid name then _ else _) = _
  split
  · rfl
  · cases writeAll (some name) children <;> rfl

/-! ## Text that is escaped -/

/-- Text below the parent is not kept as it is. -/
def EscapesText (parent : Option String) : Prop :=
  ∀ name, parent = some name → isTextPreserving name = false

theorem escapesText_none : EscapesText none := by rintro _ ⟨⟩

theorem escapesText_some {name : String} (h : isTextPreserving name = false) :
    EscapesText (some name) := by
  rintro _ ⟨⟩
  exact h

theorem writeText_of_escapesText {parent : Option String} (hp : EscapesText parent)
    (data : String) : writeText parent data = .ok (Text.escapeText data) := by
  cases parent with
  | none => rfl
  | some name =>
    unfold writeText
    simp [hp name rfl]

end Hypertext.Markup
