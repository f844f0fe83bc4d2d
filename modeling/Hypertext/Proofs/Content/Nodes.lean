import Hypertext.Proofs.Content.Leaves
import Hypertext.Proofs.Markup.WellTyped

/-!
# Content that is nodes already

Well-typed nodes are never refused as content: what they come to is the nodes themselves, with
fragments among them dissolved once. That changes nothing of what is written.

* `appendItems_nodes`, `nodes_of_forall_node`: what content that is nodes is built into, well typed
  or not.
* `writeAll_leafNodes`: dissolving fragments among nodes is not seen in the markup.
-/

namespace Hypertext.Content

theorem appendItem_node (n : Node) (site : Site) (i : Nat) (d : Draft) :
    appendItem site i (.node n) d = .done (d.add (leafNodes (.node n))) := by
  cases n <;> rfl

theorem add_add (d : Draft) (xs ys : List Value) : (d.add xs).add ys = d.add (xs ++ ys) := by
  simp [Draft.add]

/-- **Nodes are never refused**, whatever they hold. -/
theorem appendItems_nodes {vs : List Value} (h : ∀ v ∈ vs, ∃ n, v = .node n) (site : Site)
    (i : Nat) (d : Draft) :
    appendItems site i vs d = .done (d.add (vs.flatMap leafNodes)) := by
  induction vs generalizing i d with
  | nil => simp [appendItems, Draft.add]
  | cons v vs ih =>
    rw [List.forall_mem_cons] at h
    obtain ⟨⟨n, rfl⟩, rest⟩ := h
    rw [appendItems, appendItem_node]
    show appendItems site (i + 1) vs (d.add (leafNodes (.node n))) = _
    rw [ih rest, add_add, List.flatMap_cons]

theorem nodes_of_forall_node {vs : List Value} (h : ∀ v ∈ vs, ∃ n, v = .node n) :
    (nodes vs).outcome = .ok (vs.flatMap leafNodes) := by
  unfold nodes
  rw [appendItems_nodes h]
  rfl

theorem exists_node_of_wellTyped {v : Value} (h : v.WellTyped) : ∃ n, v = .node n := by
  cases h <;> exact ⟨_, rfl⟩

theorem appendItems_wellTyped {vs : List Value} (h : ∀ v ∈ vs, v.WellTyped) (site : Site)
    (i : Nat) (d : Draft) :
    appendItems site i vs d = .done (d.add (vs.flatMap leafNodes)) :=
  appendItems_nodes (fun v hv => exists_node_of_wellTyped (h v hv)) site i d

/-- **Well-typed content is built into its nodes**, with the fragments among them dissolved. -/
theorem nodes_wellTyped {vs : List Value} (h : ∀ v ∈ vs, v.WellTyped) :
    (nodes vs).outcome = .ok (vs.flatMap leafNodes) :=
  nodes_of_forall_node fun v hv => exists_node_of_wellTyped (h v hv)

/-- A tuple of well-typed nodes is as good as the nodes. -/
theorem nodes_tuple {vs : List Value} (h : ∀ v ∈ vs, v.WellTyped) :
    (nodes [.tuple vs]).outcome = .ok (vs.flatMap leafNodes) := by
  unfold nodes
  rw [appendItems, appendItem, appendItems_wellTyped h]
  rfl

theorem wellTyped_leafNodes {v : Value} (h : v.WellTyped) : ∀ u ∈ leafNodes v, u.WellTyped := by
  cases h with
  | text data => exact List.forall_mem_singleton.mpr (.text data)
  | comment data => exact List.forall_mem_singleton.mpr (.comment data)
  | raw data => exact List.forall_mem_singleton.mpr (.raw data)
  | doctype name => exact List.forall_mem_singleton.mpr (.doctype name)
  | element name ha hc => exact List.forall_mem_singleton.mpr (.element name ha hc)
  | fragment hc => exact hc

open Markup

variable {parent : Option String}

theorem writeAll_leafNodes {v : Value} (h : v.WellTyped) :
    writeAll parent (leafNodes v) = v.write parent := by
  cases h with
  | text | comment | raw | doctype | element => exact writeAll_singleton _
  | fragment hc => rfl

/-- **Dissolving fragments is not seen in the markup.** -/
theorem writeAll_flatMap_leafNodes {vs : List Value} (h : ∀ v ∈ vs, v.WellTyped) :
    writeAll parent (vs.flatMap leafNodes) = writeAll parent vs :=
  writeAll_flatMap fun v hv => writeAll_leafNodes (h v hv)

end Hypertext.Content
