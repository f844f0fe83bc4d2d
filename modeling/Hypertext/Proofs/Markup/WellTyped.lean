import Mathlib.Data.List.Nodup
import Hypertext.Proofs.Markup.Offence
import Hypertext.Proofs.Markup.Writing

/-!
# Well-typed trees

A tree is well typed if every payload and every name in it is a text, attributes map distinct texts
to texts, and every child is a well-typed node. Nothing is said of what the texts hold, so a
well-typed tree may still be impossible to write; but then a comment or a text that is kept is to
blame, and never a value of the wrong kind.

* `Value.WellTyped` is one inductive predicate on values, so that proofs go by `induction` on it;
  `Value.isWellTyped` evaluates it, see `Value.isWellTyped_iff`.
* `write_wellTyped`: what can come out of writing a well-typed value.
-/

namespace Hypertext

/-! ## The predicate -/

/-- Distinct texts for keys, and texts for values. -/
structure Record.Texts (a : Record) : Prop where
  textual : ∀ e ∈ a, ∃ key value, e = (.str key, .str value)
  distinct : (a.map Prod.fst).Nodup

/-- The value is a well-typed node. -/
inductive Value.WellTyped : Value → Prop
  | text (data : String) : WellTyped (.node (.text (.str data)))
  | comment (data : String) : WellTyped (.node (.comment (.str data)))
  | raw (data : String) : WellTyped (.node (.raw (.str data)))
  | doctype (name : String) : WellTyped (.node (.doctype (.str name)))
  | element (name : String) {a : Record} {children : List Value} (ha : a.Texts)
      (hc : ∀ v ∈ children, v.WellTyped) : WellTyped (.node (.element (.str name) a children))
  | fragment {children : List Value} (hc : ∀ v ∈ children, v.WellTyped) :
      WellTyped (.node (.fragment children))

/-- The node is well typed. -/
abbrev Node.WellTyped (n : Node) : Prop := (Value.node n).WellTyped

theorem Record.texts_nil : Record.Texts [] := ⟨List.forall_mem_nil _, List.nodup_nil⟩

theorem Record.Texts.exists_textAttributes {a : Record} (h : a.Texts) :
    ∃ texts, Markup.textAttributes? a = some texts := by
  have textual : a.textual = true := Record.textual_iff.mpr h.textual
  rw [← Record.textAttributes?_isSome] at textual
  exact Option.isSome_iff_exists.mp textual

theorem Value.WellTyped.ofText (s : String) : (Value.ofText s).WellTyped := .text s

/-! ## The check, evaluated -/

theorem textAttributes?_keys : ∀ {a : Record} {texts : Markup.Attributes},
    Markup.textAttributes? a = some texts → a.map Prod.fst = texts.map fun e => .str e.1
  | [], _, h => by
    cases h
    rfl
  | (.str key, .str value) :: rest, _, h => by
    obtain ⟨others, ho, rfl⟩ := Option.map_eq_some_iff.mp h
    simp only [List.map_cons, textAttributes?_keys ho]

/-- Attributes whose keys and values are texts are well typed if no key comes twice. -/
theorem Record.texts_iff {a : Record} : a.Texts ↔
    ∃ texts, Markup.textAttributes? a = some texts ∧ (texts.map Prod.fst).Nodup := by
  have keys {texts : Markup.Attributes} (ht : Markup.textAttributes? a = some texts) :
      (a.map Prod.fst).Nodup ↔ (texts.map Prod.fst).Nodup := by
    have inj : Function.Injective Value.str := fun _ _ e => Value.str.inj e
    rw [textAttributes?_keys ht, ← List.nodup_map_iff inj, List.map_map]
    rfl
  constructor
  · intro h
    obtain ⟨texts, ht⟩ := h.exists_textAttributes
    exact ⟨texts, ht, (keys ht).mp h.distinct⟩
  · rintro ⟨texts, ht, distinct⟩
    refine ⟨Record.textual_iff.mp ?_, (keys ht).mpr distinct⟩
    rw [← Record.textAttributes?_isSome, ht]
    rfl

mutual

/-- The check on values. -/
def Value.isWellTyped : Value → Bool
  | .node n => n.isWellTyped
  | _ => false

/-- The check on nodes. -/
def Node.isWellTyped : Node → Bool
  | .text (.str _) | .comment (.str _) | .raw (.str _) | .doctype (.str _) => true
  | .element (.str _) a children =>
    (Markup.textAttributes? a).any (fun texts => (texts.map Prod.fst).Nodup) &&
      allWellTyped children
  | .fragment children => allWellTyped children
  | _ => false

/-- The check on each of some values. -/
def allWellTyped : List Value → Bool
  | [] => true
  | v :: rest => v.isWellTyped && allWellTyped rest

end

theorem allWellTyped_iff (vs : List Value) :
    allWellTyped vs = true ↔ ∀ v ∈ vs, v.isWellTyped = true := by
  induction vs with
  | nil => simp [allWellTyped]
  | cons v vs ih => rw [allWellTyped, Bool.and_eq_true, ih, List.forall_mem_cons]

theorem isWellTyped_of_wellTyped {v : Value} (h : v.WellTyped) : v.isWellTyped = true := by
  induction h with
  | text | comment | raw | doctype => rfl
  | element name ha _ ih =>
    obtain ⟨texts, ht, distinct⟩ := Record.texts_iff.mp ha
    rw [Value.isWellTyped, Node.isWellTyped, ht, Bool.and_eq_true, allWellTyped_iff]
    exact ⟨decide_eq_true distinct, ih⟩
  | fragment _ ih => exact (allWellTyped_iff _).mpr ih

mutual

theorem wellTyped_of_isWellTyped : ∀ {v : Value}, v.isWellTyped = true → v.WellTyped
  | .node _, h => wellTyped_of_isWellTypedNode h

theorem wellTyped_of_isWellTypedNode : ∀ {n : Node}, n.isWellTyped = true → n.WellTyped
  | .text (.str data), _ => .text data
  | .comment (.str data), _ => .comment data
  | .raw (.str data), _ => .raw data
  | .doctype (.str name), _ => .doctype name
  | .element (.str name) a children, h => by
    rw [Node.isWellTyped, Bool.and_eq_true, Option.any_eq_true] at h
    obtain ⟨⟨texts, ht, distinct⟩, hc⟩ := h
    exact .element name (Record.texts_iff.mpr ⟨texts, ht, of_decide_eq_true distinct⟩)
      (wellTyped_of_allWellTyped hc)
  | .fragment children, h => .fragment (wellTyped_of_allWellTyped h)

theorem wellTyped_of_allWellTyped : ∀ {vs : List Value}, allWellTyped vs = true →
    ∀ v ∈ vs, v.WellTyped
  | [], _ => List.forall_mem_nil _
  | v :: rest, h => by
    rw [allWellTyped, Bool.and_eq_true] at h
    rw [List.forall_mem_cons]
    exact ⟨wellTyped_of_isWellTyped h.1, wellTyped_of_allWellTyped h.2⟩

end

/-- **The check agrees with the predicate.** -/
theorem Value.isWellTyped_iff {v : Value} : v.isWellTyped = true ↔ v.WellTyped :=
  ⟨wellTyped_of_isWellTyped, isWellTyped_of_wellTyped⟩

instance (v : Value) : Decidable v.WellTyped := decidable_of_iff _ Value.isWellTyped_iff

/-! ## Writing well-typed values -/

namespace Markup

/-- An outcome with no other fault than what a comment or a text that is kept can be blamed for. -/
inductive Written : Except Fault String → Prop
  | ok (s : String) : Written (.ok s)
  | comment : Written (.error .commentTerminator)
  | text (kind : Violation) (element : String) : Written (.error (.preservedText kind element))

variable {parent : Option String}

theorem Written.append {x y : Except Fault String} (hx : Written x) (hy : Written y) :
    Written (x ++ y) := by
  cases hx with
  | ok s =>
    cases hy with
    | ok t => exact .ok (s ++ t)
    | comment => exact .comment
    | text kind element => exact .text kind element
  | comment => exact .comment
  | text kind element => exact .text kind element

theorem written_writeText (data : String) : Written (writeText parent data) := by
  cases parent with
  | none => exact .ok _
  | some name =>
    unfold writeText
    by_cases hk : isTextPreserving name = true
    · simp only [hk, if_true]
      cases violation? name data with
      | none => exact .ok data
      | some kind => exact .text kind name
    · simp only [hk]
      exact .ok _

theorem written_writeComment (data : String) : Written (writeComment data) := by
  unfold writeComment
  split
  · exact .comment
  · exact .ok _

theorem written_writeAll {vs : List Value} (h : ∀ v ∈ vs, Written (v.write parent)) :
    Written (writeAll parent vs) := by
  induction vs with
  | nil => exact .ok ""
  | cons v vs ih =>
    rw [List.forall_mem_cons] at h
    exact h.1.append (ih h.2)

/-- **No well-typed value is refused for what it is.** Only a comment that holds its own end, or a
text that does not fit the element around it, keeps it from being written. -/
theorem write_wellTyped {v : Value} (h : v.WellTyped) (parent : Option String) :
    Written (v.write parent) := by
  induction h generalizing parent with
  | text data => exact written_writeText data
  | comment data => exact written_writeComment data
  | raw data => exact .ok data
  | doctype name => exact .ok _
  | element name ha _ ih =>
    obtain ⟨texts, ht⟩ := ha.exists_textAttributes
    rw [Value.write, write_element_eq ht]
    by_cases hv : isVoid name = true
    · rw [if_pos hv]
      exact .ok _
    · rw [if_neg hv]
      have inner := written_writeAll fun u hu => ih u hu (some name)
      exact ((Written.ok _).append inner).append (.ok _)
  | fragment _ ih =>
    rw [Value.write, Node.write]
    exact written_writeAll fun u hu => ih u hu parent

end Markup

end Hypertext
