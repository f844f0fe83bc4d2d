import Hypertext.Component
import Hypertext.Proofs.Content.Nodes

/-!
# Rendering and building

Content can be made with element types and properties (`jsx`), or with the builders `element` and
`fragment` themselves. The two do not go the same way: a fragment that is rendered hands its
content on as it is, for whatever is built around it to go through, while the builder of fragments
goes through it at once. They come to the same tree all the same, or to the same fault.

* `ComesTo`: content that is accepted wherever it stands, and adds the same nodes everywhere.
* `Together` lifts a relation of results to calls; `Together.bind` is the step.
* `element_children`, `element_plain`: what an element type makes of its properties.
* `together_evaluated`: an expression rendered and built, by induction on the expression.
* **`rendered_as_built`**: the fragments of the two.
-/

namespace Hypertext.Component

open Content

/-! ## Expressions -/

/-- Properties without children. -/
abbrev OwnProperties := { entries : Record // Record.hasKey "children" entries = false }

/-- Content with calls of element types in it. A call can have content of its own, which is the
property `children`; among the properties of an element it stands between `before` and `after`. The
key of a call says nothing of the content. -/
inductive Expression where
  | null
  | text (s : String)
  | node (n : Node)
  | list (items : List Expression)
  | tuple (items : List Expression)
  | element (name : String) (before after : OwnProperties) (child : Option Expression) (key : Value)
  | fragment (child : Option Expression) (key : Value)

mutual

/-- An expression with its calls rendered. -/
def rendered : Expression → Traced Value
  | .null => pure .null
  | .text s => pure (.str s)
  | .node n => pure (.node n)
  | .list items => do return .list (← renderedAll items)
  | .tuple items => do return .tuple (← renderedAll items)
  | .element name before after child _ => do
    let children ← renderedChild child
    render (.tag name) (.record (before.1 ++ children ++ after.1))
  | .fragment child _ => do
    let children ← renderedChild child
    render (.component Component.fragment) (.record children)

/-- Expressions in a row with their calls rendered. -/
def renderedAll : List Expression → Traced (List Value)
  | [] => pure []
  | e :: rest => do
    let first ← rendered e
    let others ← renderedAll rest
    return first :: others

/-- The property that holds the content of a call, if there is any. -/
def renderedChild : Option Expression → Traced Record
  | none => pure []
  | some e => do return [(.str "children", ← rendered e)]

end

mutual

/-- An expression with the builders called instead. -/
def built : Expression → Traced Value
  | .null => pure .null
  | .text s => pure (.str s)
  | .node n => pure (.node n)
  | .list items => do return .list (← builtAll items)
  | .tuple items => do return .tuple (← builtAll items)
  | .element name before after child _ => do
    let content ← builtChild child
    return .node (← Content.element (.str name) (.record (before.1 ++ after.1) :: content) [])
  | .fragment child _ => do
    let content ← builtChild child
    return .node (← Content.fragment content)

/-- Expressions in a row with the builders called instead. -/
def builtAll : List Expression → Traced (List Value)
  | [] => pure []
  | e :: rest => do
    let first ← built e
    let others ← builtAll rest
    return first :: others

/-- The content of a call, if there is any. -/
def builtChild : Option Expression → Traced (List Value)
  | none => pure []
  | some e => do return [← built e]

end

/-! ## Content that is accepted everywhere -/

/-- Wherever the value stands in content, it is accepted and adds the nodes. -/
def ComesTo (v : Value) (ns : List Value) : Prop :=
  ∀ (site : Site) (i : Nat) (d : Draft), appendItem site i v d = .done (d.add ns)

/-- The same of values in a row. -/
def AllComeTo (vs ns : List Value) : Prop :=
  ∀ (site : Site) (i : Nat) (d : Draft), appendItems site i vs d = .done (d.add ns)

/-- The two values come to the same nodes. -/
def Agree (v w : Value) : Prop := ∃ ns, ComesTo v ns ∧ ComesTo w ns

/-- The same of values in a row. -/
def AllAgree (vs ws : List Value) : Prop := ∃ ns, AllComeTo vs ns ∧ AllComeTo ws ns

theorem allComeTo_nil : AllComeTo [] [] := by
  intro site i d
  simp [appendItems, Draft.add]

theorem AllComeTo.cons {v : Value} {vs ns ms : List Value} (hv : ComesTo v ns)
    (hvs : AllComeTo vs ms) : AllComeTo (v :: vs) (ns ++ ms) := by
  intro site i d
  rw [appendItems, hv, ← add_add]
  exact hvs site (i + 1) (d.add ns)

theorem allComeTo_singleton {v : Value} {ns : List Value} (h : ComesTo v ns) :
    AllComeTo [v] ns := by
  have := AllComeTo.cons h allComeTo_nil
  rwa [List.append_nil] at this

theorem comesTo_null : ComesTo .null [] := by
  intro site i d
  simp [appendItem, Draft.add]

theorem comesTo_str (s : String) : ComesTo (.str s) [.ofText s] := fun _ _ _ => rfl

theorem comesTo_node (n : Node) : ComesTo (.node n) (leafNodes (.node n)) := appendItem_node n

theorem comesTo_list {vs ns : List Value} (h : AllComeTo vs ns) : ComesTo (.list vs) ns := by
  intro site i d
  rw [appendItem, h]
  rfl

theorem comesTo_tuple {vs ns : List Value} (h : AllComeTo vs ns) : ComesTo (.tuple vs) ns := by
  intro site i d
  rw [appendItem, h]
  rfl

/-- A fragment of accepted content. -/
theorem fragment_of_allComeTo {vs ns : List Value} (h : AllComeTo vs ns) :
    Content.fragment vs = pure (.fragment ns) := by
  unfold Content.fragment nodes
  rw [h]
  rfl

/-- An element takes no notice of how its content comes to its nodes. -/
theorem element_of_agree (name : String) (own : Value) {v w : Value} (h : Agree v w) :
    Content.element (.str name) [own, v] [] = Content.element (.str name) [own, w] [] := by
  obtain ⟨ns, hv, hw⟩ := h
  have same : appendItems (.element name) 1 [v] = appendItems (.element name) 1 [w] := by
    funext d
    rw [allComeTo_singleton hv, allComeTo_singleton hw]
  have whole : appendItems (.element name) 0 [own, v] .empty =
      appendItems (.element name) 0 [own, w] .empty := by
    rw [appendItems, appendItems, same]
  rw [Content.element, Content.element, whole]

/-! ## What element types make of properties -/

section Properties

variable (name : String) (before after : OwnProperties)

theorem hasKey_own : Record.hasKey "children" (before.1 ++ after.1) = false := by
  rw [Record.hasKey, List.any_append, Bool.or_eq_false_iff]
  exact ⟨before.2, after.2⟩

theorem drop_own {entries : Record} (h : Record.hasKey "children" entries = false) :
    Record.drop "children" entries = entries := by
  refine List.filter_eq_self.mpr fun e he => ?_
  have := List.any_eq_false.mp h e he
  simpa using this

theorem find_children {entries : Record} (h : Record.hasKey "children" entries = false) (v : Value)
    (rest : Record) :
    Record.find "children" (entries ++ (.str "children", v) :: rest) = some v := by
  induction entries with
  | nil => rfl
  | cons e entries ih =>
    rw [Record.hasKey, List.any_cons, Bool.or_eq_false_iff] at h
    rw [List.cons_append, Record.find, if_neg (by simp [h.1])]
    exact ih h.2

/-- **Properties with children** are attributes and content, wherever the children stand. -/
theorem element_children (v : Value) :
    Component.element name (.record (before.1 ++ [(.str "children", v)] ++ after.1)) =
      Content.element (.str name) [.record (before.1 ++ after.1), v] [] := by
  have has : Record.hasKey "children" (before.1 ++ [(.str "children", v)] ++ after.1) = true := by
    simp [Record.hasKey, Value.isKey]
  have dropped : Record.drop "children" (before.1 ++ [(.str "children", v)] ++ after.1) =
      before.1 ++ after.1 := by
    have first := drop_own before.2
    have last := drop_own after.2
    have taken : Record.drop "children" [(.str "children", v)] = [] := rfl
    unfold Record.drop at first last taken ⊢
    rw [List.filter_append, List.filter_append, first, last, taken, List.append_nil]
  have found : property "children" (before.1 ++ [(.str "children", v)] ++ after.1) = v := by
    rw [property, List.append_assoc, List.singleton_append, find_children before.2]
    rfl
  rw [Component.element, if_pos has, dropped, found]

/-- **Properties without children** are attributes. -/
theorem element_own :
    Component.element name (.record (before.1 ++ [] ++ after.1)) =
      Content.element (.str name) [.record (before.1 ++ after.1)] [] := by
  rw [List.append_nil, Component.element, if_neg (by simp [hasKey_own])]

end Properties

/-! ## Calls side by side -/

/-- Two calls that leave one trace, and fail with one fault or give related results. -/
inductive Together {α β : Type} (R : α → β → Prop) : Traced α → Traced β → Prop
  | fail (events : List Event) (f : Fault) : Together R ⟨events, .error f⟩ ⟨events, .error f⟩
  | give (events : List Event) {a : α} {b : β} (h : R a b) :
      Together R ⟨events, .ok a⟩ ⟨events, .ok b⟩

namespace Together

variable {α β γ δ : Type} {R : α → β → Prop} {S : γ → δ → Prop}

theorem pure {a : α} {b : β} (h : R a b) : Together R (Pure.pure a) (Pure.pure b) := .give [] h

theorem of_eq {x y : Traced α} (h : x = y) : Together Eq x y := by
  subst h
  obtain ⟨events, outcome⟩ := x
  cases outcome with
  | ok a => exact .give events rfl
  | error f => exact .fail events f

theorem eq {x y : Traced α} (h : Together Eq x y) : x = y := by
  cases h with
  | fail events f => rfl
  | give events h => rw [h]

/-- **Calls in a row** stay together. -/
theorem bind {x : Traced α} {y : Traced β} {f : α → Traced γ} {g : β → Traced δ}
    (h : Together R x y) (hf : ∀ a b, R a b → Together S (f a) (g b)) :
    Together S (x >>= f) (y >>= g) := by
  cases h with
  | fail events fault => exact .fail events fault
  | @give events a b h =>
    show Together S ⟨events ++ (f a).events, (f a).outcome⟩ ⟨events ++ (g b).events, (g b).outcome⟩
    have step := hf a b h
    generalize f a = u at step
    generalize g b = w at step
    cases step with
    | fail others fault => exact .fail (events ++ others) fault
    | give others h => exact .give (events ++ others) h

end Together

/-! ## The two ways to evaluate -/

/-- A property `children` and content that agree, or neither. -/
inductive ChildAgree : Record → List Value → Prop
  | none : ChildAgree [] []
  | some {v w : Value} (h : Agree v w) : ChildAgree [(.str "children", v)] [w]

theorem agree_node (n : Node) : Agree (.node n) (.node n) := ⟨_, comesTo_node n, comesTo_node n⟩

theorem together_element (name : String) (before after : OwnProperties) {children : Record}
    {content : List Value} (h : ChildAgree children content) :
    Together Agree (render (.tag name) (.record (before.1 ++ children ++ after.1)))
      (do
        let own := .record (before.1 ++ after.1)
        return .node (← Content.element (.str name) (own :: content) [])) := by
  have same : Component.element name (.record (before.1 ++ children ++ after.1)) =
      Content.element (.str name) (.record (before.1 ++ after.1) :: content) [] := by
    cases h with
    | none => exact element_own name before after
    | some h => rw [element_children, element_of_agree name _ h]
  refine (Together.of_eq same).bind ?_
  rintro n _ rfl
  exact .pure (agree_node n)

theorem together_fragment {children : Record} {content : List Value}
    (h : ChildAgree children content) :
    Together Agree (render (.component Component.fragment) (.record children))
      (do return .node (← Content.fragment content)) := by
  cases h with
  | none =>
    rw [fragment_of_allComeTo allComeTo_nil, pure_bind]
    exact .pure ⟨[], comesTo_null, comesTo_node _⟩
  | some h =>
    obtain ⟨ns, hv, hw⟩ := h
    rw [fragment_of_allComeTo (allComeTo_singleton hw), pure_bind]
    exact .pure ⟨ns, hv, comesTo_node _⟩

mutual

/-- **An expression rendered and built** comes to the same nodes. -/
theorem together_evaluated : ∀ e : Expression, Together Agree (rendered e) (built e)
  | .null => by
    rw [rendered, built]
    exact .pure ⟨[], comesTo_null, comesTo_null⟩
  | .text s => by
    rw [rendered, built]
    exact .pure ⟨_, comesTo_str s, comesTo_str s⟩
  | .node n => by
    rw [rendered, built]
    exact .pure (agree_node n)
  | .list items => by
    rw [rendered, built]
    refine (together_evaluatedAll items).bind ?_
    rintro vs ws ⟨ns, hv, hw⟩
    exact .pure ⟨ns, comesTo_list hv, comesTo_list hw⟩
  | .tuple items => by
    rw [rendered, built]
    refine (together_evaluatedAll items).bind ?_
    rintro vs ws ⟨ns, hv, hw⟩
    exact .pure ⟨ns, comesTo_tuple hv, comesTo_tuple hw⟩
  | .element name before after child key => by
    rw [rendered, built]
    exact (together_evaluatedChild child).bind fun _ _ h => together_element name before after h
  | .fragment child key => by
    rw [rendered, built]
    exact (together_evaluatedChild child).bind fun _ _ h => together_fragment h

theorem together_evaluatedAll : ∀ es : List Expression,
    Together AllAgree (renderedAll es) (builtAll es)
  | [] => by
    rw [renderedAll, builtAll]
    exact .pure ⟨[], allComeTo_nil, allComeTo_nil⟩
  | e :: rest => by
    rw [renderedAll, builtAll]
    refine (together_evaluated e).bind ?_
    rintro v w ⟨ns, hv, hw⟩
    refine (together_evaluatedAll rest).bind ?_
    rintro vs ws ⟨ms, hvs, hws⟩
    exact .pure ⟨ns ++ ms, .cons hv hvs, .cons hw hws⟩

theorem together_evaluatedChild : ∀ child : Option Expression,
    Together ChildAgree (renderedChild child) (builtChild child)
  | none => by
    rw [renderedChild, builtChild]
    exact .pure .none
  | some e => by
    rw [renderedChild, builtChild]
    exact (together_evaluated e).bind fun _ _ h => .pure (.some h)

end

/-- **Rendering comes to what building comes to.** The fragment of a rendered expression is the
fragment of the built one: both come to one tree, with one order of attributes, or fail with one
fault. There is a fragment of the rendered expression iff the expression can be built and there is a
fragment of what is built, and then the two are one. -/
theorem rendered_as_built (e : Expression) :
    (do Content.fragment [← rendered e]) = (do Content.fragment [← built e]) ∧
    ∀ t : Node, (do Content.fragment [← rendered e]).outcome = .ok t ↔
      ∃ v, (built e).outcome = .ok v ∧ (Content.fragment [v]).outcome = .ok t := by
  have same : (do Content.fragment [← rendered e]) = (do Content.fragment [← built e]) := by
    refine Together.eq ((together_evaluated e).bind ?_)
    rintro v w ⟨ns, hv, hw⟩
    rw [fragment_of_allComeTo (allComeTo_singleton hv),
      fragment_of_allComeTo (allComeTo_singleton hw)]
    exact .pure rfl
  refine ⟨same, fun t => ?_⟩
  rw [same, Traced.outcome_bind]
  cases (built e).outcome with
  | ok v => exact ⟨fun h => ⟨v, rfl, h⟩, fun ⟨_, hv, h⟩ => by cases hv; exact h⟩
  | error f => exact ⟨fun h => (nomatch h), fun ⟨_, hv, _⟩ => (nomatch hv)⟩

/-- A list in a fragment, with an element in it whose content stands between its attributes. -/
def exampleExpression : Expression :=
  .fragment (some (.list [.null, .element "a" ⟨[(.str "id", .str "x")], rfl⟩
    ⟨[(.str "lang", .null)], rfl⟩ (some (.text "b")) .null])) .null

example : (rendered exampleExpression).outcome = .ok (.list [.null, .node (.element (.str "a")
      [(.str "id", .str "x")] [.ofText "b"])]) ∧
    (built exampleExpression).outcome = .ok (.node (.fragment [.node (.element (.str "a")
      [(.str "id", .str "x")] [.ofText "b"])])) := ⟨rfl, rfl⟩

end Hypertext.Component
