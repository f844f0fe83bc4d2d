import Hypertext.Markup.Content
import Hypertext.Proofs.Content.Joined
import Hypertext.Proofs.Markup.Offence
import Hypertext.Proofs.Markup.Writing

/-!
# Markup of content behind other content

Content is built first and written then by `serialize_fragment`, so an error of building goes
before any error of writing, wherever the two stand. Apart from that, markup of content in a row is
markup in a row.

* `outcome_fragment`, `outcome_writeDocument`: fragments and documents as the nodes of their
  content.
* `later_of_write`: what goes wrong in writing has no positions.
* **`writeFragment_joined`**: fragments in a row, documents, and single nodes.
-/

namespace Hypertext.Markup

open Content

/-! ## Building, then writing -/

theorem outcome_fragment (content : List Value) :
    (fragment content).outcome = (nodes content).outcome.map .fragment := by
  unfold fragment
  rw [Traced.outcome_bind]
  cases (nodes content).outcome <;> rfl

theorem exists_nodes_of_fragment {content : List Value} {m : Node}
    (h : (fragment content).outcome = .ok m) :
    ∃ ns, (nodes content).outcome = .ok ns ∧ m.markup = writeAll none ns := by
  rw [outcome_fragment] at h
  cases hn : (nodes content).outcome with
  | error f =>
    rw [hn] at h
    cases h
  | ok ns =>
    rw [hn] at h
    cases h
    exact ⟨ns, rfl, rfl⟩

theorem nodes_of_fragment_error {content : List Value} {f : Fault}
    (h : (fragment content).outcome = .error f) : (nodes content).outcome = .error f := by
  rw [outcome_fragment] at h
  cases hn : (nodes content).outcome with
  | error g =>
    rw [hn] at h
    cases h
    rfl
  | ok ns =>
    rw [hn] at h
    cases h

/-- The document type, which stands in front of every document. -/
def documentType : Value := .node (.doctype (.str "html"))

/-- A document is a fragment with the document type in front. -/
theorem outcome_writeDocument (content : List Value) :
    (writeDocument content).outcome = (writeFragment (documentType :: content)).outcome := by
  unfold writeDocument writeFragment
  simp only [Traced.outcome_bind]
  rfl

/-! ## What goes wrong in writing -/

theorem later_of_offence {x : Visit} {f : Fault} (h : Offence x f) (k : Nat) : f.later k = f := by
  cases h <;> rfl

/-- What goes wrong in writing has no positions. -/
theorem later_of_write {parent : Option String} {vs : List Value} {f : Fault}
    (h : writeAll parent vs = .error f) (k : Nat) : f.later k = f := by
  have first := fault_writeAll parent vs
  rw [h] at first
  obtain ⟨x, -, hx⟩ := List.exists_of_findSome?_eq_some first.symm
  exact later_of_offence ((offence?_eq_some_iff x f).mp hx) k

/-! ## Content in a row -/

theorem writeFragment_append (xs ys : List Value) : (writeFragment (xs ++ ys)).outcome =
    (nodes xs).outcome >>= fun front =>
      (nodes ys).outcome.mapError (Fault.later xs.length) >>= fun behind =>
        writeAll none front ++ writeAll none behind := by
  rw [outcome_writeFragment, nodes_append]
  cases (nodes xs).outcome with
  | error f => rfl
  | ok front =>
    cases (nodes ys).outcome with
    | error f => rfl
    | ok behind => exact writeAll_append front behind

/-- What a document opens with. -/
def documentOpening : String := "<!DOCTYPE html>"

/-- **A document is a fragment behind the document type**, which counts as one item. -/
theorem writeDocument_eq (content : List Value) : (writeDocument content).outcome =
    match (writeFragment content).outcome with
    | .ok s => .ok (documentOpening ++ s)
    | .error f => .error (f.later 1) := by
  have opening : writeAll none [documentType] = .ok documentOpening := by rfl
  have front : (nodes [documentType]).outcome = .ok [documentType] := rfl
  rw [outcome_writeDocument, ← List.singleton_append, writeFragment_append, front,
    outcome_writeFragment]
  cases (nodes content).outcome with
  | error f => rfl
  | ok ns =>
    show writeAll none [documentType] ++ writeAll none ns = match writeAll none ns with
      | .ok s => .ok (documentOpening ++ s)
      | .error f => .error (f.later 1)
    rw [opening]
    cases h : writeAll none ns with
    | ok s => rfl
    | error f => exact congrArg Except.error (later_of_write h 1).symm

/-- A node is written as content as it is written on its own. -/
theorem writeFragment_node (n : Node) : (writeFragment [.node n]).outcome = n.markup := by
  rw [outcome_writeFragment]
  cases n with
  | fragment children => rfl
  | _ => exact writeAll_singleton _

/-- **Fragments in a row are written in a row**, and a document is a fragment behind the document
type. Content in a row is written iff its parts are. If it is not, an error of building goes before
one of writing, and then the part in front goes before the part behind. Errors of building count
the items in front in the outermost frame of their trail, and are else as they are for the part
alone. A single node is written as on its own. -/
theorem writeFragment_joined (xs ys : List Value) :
    (∀ s, (writeFragment (xs ++ ys)).outcome = .ok s ↔
      ∃ s₁ s₂, (writeFragment xs).outcome = .ok s₁ ∧ (writeFragment ys).outcome = .ok s₂ ∧
        s = s₁ ++ s₂) ∧
    (∀ f, (fragment xs).outcome = .error f → (writeFragment (xs ++ ys)).outcome = .error f) ∧
    (∀ m, (fragment xs).outcome = .ok m →
      (∀ f, (fragment ys).outcome = .error f →
        (writeFragment (xs ++ ys)).outcome = .error (f.later xs.length)) ∧
      ∀ n, (fragment ys).outcome = .ok n →
        (∀ f, m.markup = .error f → (writeFragment (xs ++ ys)).outcome = .error f) ∧
        ∀ s f, m.markup = .ok s → n.markup = .error f →
          (writeFragment (xs ++ ys)).outcome = .error f) ∧
    (∀ s, (writeFragment xs).outcome = .ok s →
      (writeDocument xs).outcome = .ok (documentOpening ++ s)) ∧
    (∀ f, (writeFragment xs).outcome = .error f →
      (writeDocument xs).outcome = .error (f.later 1)) ∧
    ∀ n : Node, (writeFragment [.node n]).outcome = n.markup := by
  have document := writeDocument_eq xs
  rw [writeFragment_append]
  refine ⟨fun s => ?_, fun f h => ?_,
    fun m hm => ⟨fun f h => ?_, fun n hn => ⟨fun f h => ?_, fun s f hs h => ?_⟩⟩,
    fun s h => ?_, fun f h => ?_, writeFragment_node⟩
  · rw [outcome_writeFragment, outcome_writeFragment]
    cases (nodes xs).outcome with
    | error f => simp [bind, Except.bind]
    | ok front =>
      cases (nodes ys).outcome with
      | error f =>
        show Except.error (f.later xs.length) = Except.ok s ↔ ∃ s₁ s₂,
          writeAll none front = .ok s₁ ∧ Except.error f = Except.ok s₂ ∧ s = s₁ ++ s₂
        simp only [reduceCtorEq, false_and, and_false, exists_false]
      | ok behind => exact append_ok_iff
  · rw [nodes_of_fragment_error h]
    rfl
  · obtain ⟨front, hx, -⟩ := exists_nodes_of_fragment hm
    rw [hx, nodes_of_fragment_error h]
    rfl
  · obtain ⟨front, hx, hm⟩ := exists_nodes_of_fragment hm
    obtain ⟨behind, hy, hn⟩ := exists_nodes_of_fragment hn
    rw [hx, hy]
    show writeAll none front ++ writeAll none behind = .error f
    rw [← hm, h]
    rfl
  · obtain ⟨front, hx, hm⟩ := exists_nodes_of_fragment hm
    obtain ⟨behind, hy, hn⟩ := exists_nodes_of_fragment hn
    rw [hx, hy]
    show writeAll none front ++ writeAll none behind = .error f
    rw [← hm, ← hn, hs, h]
    rfl
  · rw [document, h]
  · rw [document, h]

/-- Content that is written: null, a text, and a fragment that is spliced in. -/
def plainContent : List Value := [.null, .str "a<", .node (.fragment [.node (.raw (.str "<hr>"))])]

/-- Content that is built but not written. -/
def loudContent : List Value := [.list [.node (.comment (.str "-->"))]]

/-- The error of `refusedContent` behind `k` items. -/
def refusal (k : Nat) : Fault :=
  .build ⟨.childType "root" "int", [⟨"root", [], 1⟩, ⟨"root", [], 1 + k⟩]⟩

/-- Content that is not built, for a number two sequences deep. -/
def refusedContent : List Value := [.str "x", .tuple [.null, .stream 0 [.item (.int 1)]]]

theorem writeFragment_joined_refused :
    (writeFragment plainContent).outcome = .ok "a&lt;<hr>" ∧
    (writeFragment (plainContent ++ plainContent)).outcome = .ok ("a&lt;<hr>" ++ "a&lt;<hr>") ∧
    (fragment refusedContent).outcome = .error (refusal 0) ∧
    (writeFragment (refusedContent ++ loudContent)).outcome = .error (refusal 0) ∧
    (fragment loudContent).outcome = .ok (.fragment [.node (.comment (.str "-->"))]) ∧
    (Node.fragment [.node (.comment (.str "-->"))]).markup = .error .commentTerminator ∧
    (writeFragment (loudContent ++ refusedContent)).outcome = .error (refusal 1) ∧
    (writeFragment (plainContent ++ loudContent)).outcome = .error .commentTerminator ∧
    (writeFragment (loudContent ++ plainContent)).outcome = .error .commentTerminator ∧
    (writeDocument plainContent).outcome = .ok (documentOpening ++ "a&lt;<hr>") ∧
    (writeDocument refusedContent).outcome = .error (refusal 1) := by
  have plain : (writeFragment plainContent).outcome = .ok "a&lt;<hr>" := by rfl
  have built : (fragment plainContent).outcome =
      .ok (.fragment [.ofText "a<", .node (.raw (.str "<hr>"))]) := rfl
  have markup : (Node.fragment [.ofText "a<", .node (.raw (.str "<hr>"))]).markup =
      .ok "a&lt;<hr>" := by rfl
  have loud : (fragment loudContent).outcome = .ok (.fragment [.node (.comment (.str "-->"))]) :=
    rfl
  have unwritten : (Node.fragment [.node (.comment (.str "-->"))]).markup =
      .error .commentTerminator := by rfl
  have refused : (fragment refusedContent).outcome = .error (refusal 0) := rfl
  have unmade : (writeFragment refusedContent).outcome = .error (refusal 0) := rfl
  obtain ⟨both, -, behind, document, -, -⟩ := writeFragment_joined plainContent plainContent
  obtain ⟨-, front, -, -, failed, -⟩ := writeFragment_joined refusedContent loudContent
  obtain ⟨-, -, second, -, -, -⟩ := writeFragment_joined loudContent refusedContent
  obtain ⟨-, -, first, -, -, -⟩ := writeFragment_joined loudContent plainContent
  obtain ⟨-, -, last, -, -, -⟩ := writeFragment_joined plainContent loudContent
  exact ⟨plain, (both _).mpr ⟨_, _, plain, plain, rfl⟩, refused, front _ refused, loud, unwritten,
    (second _ loud).1 _ refused, ((last _ built).2 _ loud).2 _ _ markup unwritten,
    ((first _ loud).2 _ built).1 _ unwritten, document _ plain, failed _ unmade⟩

end Hypertext.Markup
