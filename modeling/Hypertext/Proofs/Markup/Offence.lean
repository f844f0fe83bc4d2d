import Hypertext.Markup

/-!
# When a tree cannot be written

`visits` walks a tree in document order, as `_serialize` does. It goes into fragments and into the
elements that have content and can be written themselves, and remembers the nearest element around.
`Offence` says of a single visited value what is wrong with it, if anything is; it looks at nothing
else.

* `offence?_eq_some_iff`: the check that is evaluated agrees with `Offence`.
* `fault_write`: writing fails with the first fault that the check finds on the walk. The induction
  follows the walk.
* `write_offence`: a value can be written iff nothing that is visited offends, and else the fault is
  that of the first offence in document order.
-/

namespace Hypertext

/-! ## The walk -/

/-- A value of a tree and the name of the nearest element around it. Fragments do not count. -/
structure Visit where
  parent : Option String
  value : Value

namespace Record

/-- A text for a key and a text for a value. -/
def isTextEntry : Value × Value → Bool
  | (.str _, .str _) => true
  | _ => false

/-- All keys and values are texts. -/
def textual (a : Record) : Bool := a.all isTextEntry

theorem isTextEntry_iff {e : Value × Value} :
    isTextEntry e = true ↔ ∃ key value, e = (.str key, .str value) := by
  constructor
  · intro h
    obtain ⟨k, v⟩ := e
    cases k with
    | str key =>
      cases v with
      | str value => exact ⟨key, value, rfl⟩
      | _ => cases h
    | _ => cases h
  · rintro ⟨key, value, rfl⟩
    rfl

theorem textual_iff {a : Record} :
    a.textual = true ↔ ∀ e ∈ a, ∃ key value, e = (.str key, .str value) := by
  simp only [textual, List.all_eq_true, isTextEntry_iff]

theorem textAttributes?_isSome : ∀ a : Record, (Markup.textAttributes? a).isSome = a.textual
  | [] => rfl
  | (k, v) :: rest => by
    have ih := textAttributes?_isSome rest
    cases k with
    | str key =>
      cases v with
      | str value => rw [Markup.textAttributes?, Option.isSome_map, ih]; rfl
      | _ => rfl
    | _ => rfl

end Record

open Markup

mutual

/-- A value, then what is visited inside it. -/
def Value.visits (parent : Option String) : Value → List Visit
  | .node n => ⟨parent, .node n⟩ :: n.visitsInside parent
  | v => [⟨parent, v⟩]

/-- What is visited inside a node: the children of a fragment, and those of an element with text
for a name, texts for attributes, and content. -/
def Node.visitsInside (parent : Option String) : Node → List Visit
  | .element (.str name) a children =>
    if Record.textual a && !isVoid name then visitsAll (some name) children else []
  | .fragment children => visitsAll parent children
  | _ => []

/-- Values one after another, each with what is visited inside it. -/
def visitsAll (parent : Option String) : List Value → List Visit
  | [] => []
  | v :: rest => v.visits parent ++ visitsAll parent rest

end

/-! ## Offences -/

/-- A node whose payload or name is a text, and whose attributes are texts. Nothing is said of its
children. -/
inductive Sound : Value → Prop
  | text (data : String) : Sound (.node (.text (.str data)))
  | comment (data : String) : Sound (.node (.comment (.str data)))
  | raw (data : String) : Sound (.node (.raw (.str data)))
  | doctype (name : String) : Sound (.node (.doctype (.str name)))
  | element (name : String) {a : Record} (children : List Value)
      (h : ∀ e ∈ a, ∃ key value, e = (.str key, .str value)) :
      Sound (.node (.element (.str name) a children))
  | fragment (children : List Value) : Sound (.node (.fragment children))

/-- `part` stands somewhere in `s`. -/
def Occurs (part s : String) : Prop := part.toList <:+: s.toList

/-- What makes a text unfit for an element that keeps its text: of several things the first. -/
inductive Unfit (name data : String) : Violation → Prop
  | commentOpener (h : Occurs "<!--" data) : Unfit name data .commentOpener
  | openingTag (hc : ¬ Occurs "<!--" data) (h : Occurs ("<" ++ name) data) :
      Unfit name data .openingTag
  | closingTag (hc : ¬ Occurs "<!--" data) (ho : ¬ Occurs ("<" ++ name) data)
      (h : Occurs ("</" ++ name) data) : Unfit name data .closingTag

/-- What is wrong with a visited value itself. -/
inductive Offence : Visit → Fault → Prop
  | unsupported {parent : Option String} {v : Value} (h : ¬ Sound v) :
      Offence ⟨parent, v⟩ (.unsupported v)
  | comment {parent : Option String} {data : String} (h : Occurs "-->" data) :
      Offence ⟨parent, .node (.comment (.str data))⟩ .commentTerminator
  | text {name data : String} {kind : Violation} (hp : isTextPreserving name = true)
      (h : Unfit name data kind) :
      Offence ⟨some name, .node (.text (.str data))⟩ (.preservedText kind name)

/-- What is wrong with a text below `parent`. -/
def textOffence? (parent : Option String) (data : String) : Option Fault :=
  match parent with
  | some name =>
    if isTextPreserving name then (violation? name data).map (.preservedText · name) else none
  | none => none

/-- What is wrong with a visited value, evaluated. -/
def offence? (x : Visit) : Option Fault :=
  match x.value with
  | .node (.text (.str data)) => textOffence? x.parent data
  | .node (.comment (.str data)) =>
    if Text.contains data "-->" then some .commentTerminator else none
  | .node (.raw (.str _)) | .node (.doctype (.str _)) | .node (.fragment _) => none
  | .node (.element (.str name) a children) =>
    if Record.textual a then none else some (.unsupported (.node (.element (.str name) a children)))
  | v => some (.unsupported v)

theorem occurs_iff {s part : String} : Text.contains s part = true ↔ Occurs part s :=
  Text.contains_iff s part

theorem violation?_eq_some_iff {name data : String} {kind : Violation} :
    violation? name data = some kind ↔ Unfit name data kind := by
  constructor
  · intro h
    unfold violation? at h
    split at h
    · rename_i hc
      cases h
      exact .commentOpener (occurs_iff.mp hc)
    · rename_i hc
      split at h
      · rename_i ho
        cases h
        exact .openingTag (mt occurs_iff.mpr hc) (occurs_iff.mp ho)
      · rename_i ho
        split at h
        · rename_i hl
          cases h
          exact .closingTag (mt occurs_iff.mpr hc) (mt occurs_iff.mpr ho) (occurs_iff.mp hl)
        · cases h
  · intro h
    cases h with
    | commentOpener hc => rw [violation?, if_pos (occurs_iff.mpr hc)]
    | openingTag hc ho => rw [violation?, if_neg (mt occurs_iff.mp hc), if_pos (occurs_iff.mpr ho)]
    | closingTag hc ho hl =>
      rw [violation?, if_neg (mt occurs_iff.mp hc), if_neg (mt occurs_iff.mp ho),
        if_pos (occurs_iff.mpr hl)]

/-- A value that is refused as it is offends by that alone. -/
theorem offence_of_not_sound {parent : Option String} {v : Value} (h : ¬ Sound v) (f : Fault) :
    some (.unsupported v) = some f ↔ Offence ⟨parent, v⟩ f := by
  constructor
  · intro e
    cases e
    exact .unsupported h
  · intro o
    cases o with
    | unsupported => rfl
    | comment => exact absurd (.comment _) h
    | text => exact absurd (.text _) h

/-- A sound value that is neither a text nor a comment does not offend. -/
theorem no_offence {parent : Option String} {v : Value} (h : Sound v)
    (ht : ∀ data, v ≠ .node (.text data)) (hc : ∀ data, v ≠ .node (.comment data)) (f : Fault) :
    none = some f ↔ Offence ⟨parent, v⟩ f := by
  refine ⟨fun e => absurd e (by simp), fun o => ?_⟩
  cases o with
  | unsupported hn => exact absurd h hn
  | comment => exact absurd rfl (hc _)
  | text => exact absurd rfl (ht _)

theorem offence_comment (parent : Option String) (data : String) (f : Fault) :
    offence? ⟨parent, .node (.comment (.str data))⟩ = some f ↔
      Offence ⟨parent, .node (.comment (.str data))⟩ f := by
  show (if Text.contains data "-->" then some Fault.commentTerminator else none) = some f ↔ _
  by_cases h : Text.contains data "-->" = true
  · rw [if_pos h]
    refine ⟨fun e => ?_, fun o => ?_⟩
    · cases e
      exact .comment (occurs_iff.mp h)
    · cases o with
      | unsupported hn => exact absurd (.comment data) hn
      | comment => rfl
  · rw [if_neg h]
    refine ⟨fun e => absurd e (by simp), fun o => ?_⟩
    cases o with
    | unsupported hn => exact absurd (.comment data) hn
    | comment hc => exact absurd (occurs_iff.mpr hc) h

theorem offence_text (parent : Option String) (data : String) (f : Fault) :
    offence? ⟨parent, .node (.text (.str data))⟩ = some f ↔
      Offence ⟨parent, .node (.text (.str data))⟩ f := by
  cases parent with
  | none =>
    refine ⟨fun e => (nomatch e), fun o => ?_⟩
    cases o with
    | unsupported hn => exact absurd (.text data) hn
  | some name =>
    show (if isTextPreserving name then (violation? name data).map (.preservedText · name)
      else none) = some f ↔ _
    by_cases hp : isTextPreserving name = true
    · rw [if_pos hp, Option.map_eq_some_iff]
      refine ⟨fun ⟨kind, hk, e⟩ => ?_, fun o => ?_⟩
      · rw [← e]
        exact .text hp (violation?_eq_some_iff.mp hk)
      · cases o with
        | unsupported hn => exact absurd (.text data) hn
        | text _ hu => exact ⟨_, violation?_eq_some_iff.mpr hu, rfl⟩
    · rw [if_neg hp]
      refine ⟨fun e => absurd e (by simp), fun o => ?_⟩
      cases o with
      | unsupported hn => exact absurd (.text data) hn
      | text hp' => exact absurd hp' hp

theorem offence_element (parent : Option String) (name : String) (a : Record)
    (children : List Value) (f : Fault) :
    offence? ⟨parent, .node (.element (.str name) a children)⟩ = some f ↔
      Offence ⟨parent, .node (.element (.str name) a children)⟩ f := by
  show (if Record.textual a then none
    else some (.unsupported (.node (.element (.str name) a children)))) = some f ↔ _
  by_cases h : Record.textual a = true
  · rw [if_pos h]
    exact no_offence (.element name children (Record.textual_iff.mp h)) (by simp) (by simp) f
  · rw [if_neg h]
    refine offence_of_not_sound (fun hs => ?_) f
    cases hs with
    | element _ _ ha => exact h (Record.textual_iff.mpr ha)

/-- **The check agrees with the relation.** -/
theorem offence?_eq_some_iff (x : Visit) (f : Fault) : offence? x = some f ↔ Offence x f := by
  obtain ⟨parent, v⟩ := x
  have refused (hs : ¬ Sound v) (e : offence? ⟨parent, v⟩ = some (.unsupported v)) :
      offence? ⟨parent, v⟩ = some f ↔ Offence ⟨parent, v⟩ f := by
    rw [e]
    exact offence_of_not_sound hs f
  cases v with
  | node n =>
    cases n with
    | text data =>
      cases data with
      | str data => exact offence_text parent data f
      | _ => exact refused nofun rfl
    | comment data =>
      cases data with
      | str data => exact offence_comment parent data f
      | _ => exact refused nofun rfl
    | raw data =>
      cases data with
      | str data => exact no_offence (.raw data) (by simp) (by simp) f
      | _ => exact refused nofun rfl
    | doctype name =>
      cases name with
      | str name => exact no_offence (.doctype name) (by simp) (by simp) f
      | _ => exact refused nofun rfl
    | element name a children =>
      cases name with
      | str name => exact offence_element parent name a children f
      | _ => exact refused nofun rfl
    | fragment children => exact no_offence (.fragment children) (by simp) (by simp) f
  | _ => exact refused nofun rfl

theorem offence?_eq_none_iff (x : Visit) : offence? x = none ↔ ∀ f, ¬ Offence x f := by
  simp only [Option.eq_none_iff_forall_ne_some, ne_eq, offence?_eq_some_iff]

/-! ## Writing along the walk -/

/-- The fault of an outcome. -/
def fault? {α : Type} : Except Fault α → Option Fault
  | .ok _ => none
  | .error f => some f

theorem fault?_map {α β : Type} (k : α → β) (x : Except Fault α) :
    fault? (k <$> x) = fault? x := by
  cases x <;> rfl

theorem fault?_append (x y : Except Fault String) :
    fault? (do return (← x) ++ (← y)) = (fault? x).or (fault? y) := by
  cases x <;> cases y <;> rfl

theorem fault_writeText (parent : Option String) (data : String) :
    fault? (writeText parent data) = textOffence? parent data := by
  cases parent with
  | none => rfl
  | some name =>
    unfold writeText textOffence?
    by_cases h : isTextPreserving name = true
    · simp only [if_pos h]
      cases violation? name data <;> rfl
    · simp only [if_neg h]
      rfl

theorem fault_writeComment (data : String) : fault? (writeComment data) =
    if Text.contains data "-->" then some .commentTerminator else none := by
  unfold writeComment
  split <;> rfl

mutual

/-- Writing a value fails with the first fault of the walk. -/
theorem fault_write (parent : Option String) : ∀ v : Value,
    fault? (v.write parent) = (v.visits parent).findSome? offence?
  | .node n => fault_writeNode parent n
  | .null | .bool _ | .int _ | .float _ | .nan _ | .str _ | .bytes _ | .byteArray _ | .list _
  | .tuple _ | .record _ | .range _ _ | .opaqueObject _ | .component _ | .stream _ _
  | .error _ _ => rfl

theorem fault_writeNode (parent : Option String) : ∀ n : Node,
    fault? (n.write parent) = ((Value.node n).visits parent).findSome? offence?
  | .text v => by
    cases v with
    | str data =>
      show _ = List.findSome? offence? [⟨parent, .node (.text (.str data))⟩]
      rw [Node.write, fault_writeText, List.findSome?_singleton]
      rfl
    | _ => rfl
  | .comment v => by
    cases v with
    | str data =>
      show _ = List.findSome? offence? [⟨parent, .node (.comment (.str data))⟩]
      rw [Node.write, fault_writeComment, List.findSome?_singleton]
      rfl
    | _ => rfl
  | .raw v => by cases v <;> rfl
  | .doctype v => by cases v <;> rfl
  | .element v a children => by
    cases v with
    | str name =>
      have inner := fault_writeAll (some name) children
      have textual := Record.textAttributes?_isSome a
      rw [Node.write, Value.visits, List.findSome?_cons]
      cases ha : textAttributes? a with
      | none =>
        have : Record.textual a = false := by rw [← textual, ha]; rfl
        simp [offence?, this, fault?]
      | some texts =>
        have : Record.textual a = true := by rw [← textual, ha]; rfl
        by_cases hv : isVoid name = true
        · simp [offence?, this, fault?, hv, Node.visitsInside]
        · simp [offence?, this, hv, Node.visitsInside, fault?_map, inner]
    | _ => rfl
  | .fragment children => by
    rw [Node.write, fault_writeAll parent children]
    rfl

theorem fault_writeAll (parent : Option String) : ∀ vs : List Value,
    fault? (writeAll parent vs) = (visitsAll parent vs).findSome? offence?
  | [] => rfl
  | v :: rest => by
    rw [writeAll, fault?_append, fault_write parent v, fault_writeAll parent rest, visitsAll,
      List.findSome?_append]

end

-- What a void element holds is not visited, and only the nearest element keeps a text as it is.
example : fault? ((Node.element (.str "script") [] [.node (.element (.str "br") [] [.null]),
    .node (.element (.str "b") [] [.node (.text (.str "<!--"))]),
    .node (.fragment [.node (.text (.str "<script"))]), .int 1]).write none) =
      some (.preservedText .openingTag "script") := by rfl

/-- **A value can be written iff nothing on the walk offends**, and else the fault is that of the
first offence in document order: the value itself if it is no node or holds what it must not, the
end of a comment inside one, or what makes a text unfit for the element around it. -/
theorem write_offence (v : Value) :
    ((∃ s, v.write none = .ok s) ↔ ∀ x ∈ v.visits none, ∀ f, ¬ Offence x f) ∧
    ∀ f, v.write none = .error f ↔ ∃ before x after, v.visits none = before ++ x :: after ∧
      (∀ y ∈ before, ∀ g, ¬ Offence y g) ∧ Offence x f := by
  have law := fault_write none v
  constructor
  · have : (∃ s, v.write none = .ok s) ↔ fault? (v.write none) = none := by
      cases v.write none <;> simp [fault?]
    rw [this, law, List.findSome?_eq_none_iff]
    simp only [offence?_eq_none_iff]
  · intro f
    have : v.write none = .error f ↔ fault? (v.write none) = some f := by
      cases v.write none <;> simp [fault?]
    rw [this, law, List.findSome?_eq_some_iff]
    simp only [offence?_eq_none_iff, offence?_eq_some_iff]
    constructor
    · rintro ⟨before, x, after, hv, hx, hb⟩
      exact ⟨before, x, after, hv, hb, hx⟩
    · rintro ⟨before, x, after, hv, hb, hx⟩
      exact ⟨before, x, after, hv, hx, hb⟩

end Hypertext
