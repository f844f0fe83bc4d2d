import Hypertext.Proofs.Content.Nodes

/-!
# Trees without fragments inside

A fragment is not written itself, so it may as well be replaced by its children. `Node.dissolved`
is a tree with all fragments inside it replaced in this way; a fragment at the top stays, as the
tree has to be one node.

* `leafNodes_of_mem_dissolvedPieces`: no fragment is left.
* `wellTyped_dissolvedPieces`: well-typed trees stay well typed.
* **`writeAll_dissolvedPieces`**: they are written as before.
-/

namespace Hypertext

open Content

mutual

/-- The node with all fragments inside it replaced by their children. -/
def Node.dissolved : Node → Node
  | .element name a children => .element name a (dissolvedAll children)
  | .fragment children => .fragment (dissolvedAll children)
  | n => n

/-- What a child is replaced by: a fragment by the nodes that it dissolves into. -/
def Value.dissolvedPieces : Value → List Value
  | .node (.fragment children) => dissolvedAll children
  | .node n => [.node n.dissolved]
  | v => [v]

/-- What children are replaced by, one after another. -/
def dissolvedAll : List Value → List Value
  | [] => []
  | v :: rest => v.dissolvedPieces ++ dissolvedAll rest

end

theorem dissolvedAll_eq (vs : List Value) : dissolvedAll vs = vs.flatMap Value.dissolvedPieces := by
  induction vs with
  | nil => rfl
  | cons v vs ih => rw [dissolvedAll, ih, List.flatMap_cons]

theorem mem_dissolvedAll {u : Value} {vs : List Value} :
    u ∈ dissolvedAll vs ↔ ∃ v ∈ vs, u ∈ v.dissolvedPieces := by
  rw [dissolvedAll_eq, List.mem_flatMap]

theorem forall_mem_dissolvedAll {P : Value → Prop} {vs : List Value}
    (h : ∀ v ∈ vs, ∀ u ∈ v.dissolvedPieces, P u) : ∀ u ∈ dissolvedAll vs, P u := by
  rw [dissolvedAll_eq]
  exact List.forall_mem_flatMap.mpr h

theorem dissolvedPieces_element (name : Value) (a : Record) (children : List Value) :
    (Value.node (.element name a children)).dissolvedPieces =
      [.node (.element name a (dissolvedAll children))] := by
  rw [Value.dissolvedPieces, Node.dissolved]
  simp

/-- The pieces that a node dissolves into are the nodes of the dissolved node. -/
theorem leafNodes_dissolved (n : Node) :
    leafNodes (.node n.dissolved) = (Value.node n).dissolvedPieces := by
  cases n with
  | element name a children => rw [dissolvedPieces_element, Node.dissolved, leafNodes]; simp
  | _ => rfl

theorem dissolvedAll_leafNodes (n : Node) :
    dissolvedAll (leafNodes (.node n)) = (Value.node n).dissolvedPieces := by
  cases n with
  | fragment children => rfl
  | _ => exact List.append_nil _

/-- Dissolving may start with the fragments among the children. -/
theorem dissolvedAll_flatMap_leafNodes {vs : List Value} (h : ∀ v ∈ vs, v.WellTyped) :
    dissolvedAll (vs.flatMap leafNodes) = dissolvedAll vs := by
  rw [dissolvedAll_eq, dissolvedAll_eq, List.flatMap_assoc]
  refine List.flatMap_congr fun v hv => ?_
  obtain ⟨n, rfl⟩ := exists_node_of_wellTyped (h v hv)
  rw [← dissolvedAll_eq, dissolvedAll_leafNodes]

/-- **No fragment is left** where a tree is dissolved. -/
theorem leafNodes_of_mem_dissolvedPieces {v : Value} (h : v.WellTyped) :
    ∀ u ∈ v.dissolvedPieces, leafNodes u = [u] := by
  induction h with
  | text | comment | raw | doctype => exact List.forall_mem_singleton.mpr rfl
  | element name ha hc ih =>
    rw [dissolvedPieces_element]
    exact List.forall_mem_singleton.mpr rfl
  | fragment hc ih => exact forall_mem_dissolvedAll ih

theorem flatMap_leafNodes_dissolvedAll {vs : List Value} (h : ∀ v ∈ vs, v.WellTyped) :
    (dissolvedAll vs).flatMap leafNodes = dissolvedAll vs := by
  have whole : ∀ u ∈ dissolvedAll vs, leafNodes u = [u] :=
    forall_mem_dissolvedAll fun v hv => leafNodes_of_mem_dissolvedPieces (h v hv)
  rw [List.flatMap_congr whole, List.flatMap_singleton']

/-- **Dissolved trees are well typed** if they were before. -/
theorem wellTyped_dissolvedPieces {v : Value} (h : v.WellTyped) :
    ∀ u ∈ v.dissolvedPieces, u.WellTyped := by
  induction h with
  | text data => exact List.forall_mem_singleton.mpr (.text data)
  | comment data => exact List.forall_mem_singleton.mpr (.comment data)
  | raw data => exact List.forall_mem_singleton.mpr (.raw data)
  | doctype name => exact List.forall_mem_singleton.mpr (.doctype name)
  | element name ha _ ih =>
    rw [dissolvedPieces_element]
    exact List.forall_mem_singleton.mpr (.element name ha (forall_mem_dissolvedAll ih))
  | fragment _ ih => exact forall_mem_dissolvedAll ih

theorem wellTyped_dissolvedAll {vs : List Value} (h : ∀ v ∈ vs, v.WellTyped) :
    ∀ u ∈ dissolvedAll vs, u.WellTyped :=
  forall_mem_dissolvedAll fun v hv => wellTyped_dissolvedPieces (h v hv)

theorem wellTyped_dissolved {n : Node} (h : n.WellTyped) : n.dissolved.WellTyped := by
  have pieces := wellTyped_dissolvedPieces h
  cases h with
  | fragment hc => exact .fragment pieces
  | element name ha hc =>
    rw [dissolvedPieces_element] at pieces
    exact pieces _ List.mem_cons_self
  | text | comment | raw | doctype => exact pieces _ List.mem_cons_self

namespace Markup

variable {parent : Option String}

/-- **A tree is written as it is dissolved**, below any parent. -/
theorem writeAll_dissolvedPieces {v : Value} (h : v.WellTyped) (parent : Option String) :
    writeAll parent v.dissolvedPieces = v.write parent := by
  induction h generalizing parent with
  | text | comment | raw | doctype => exact writeAll_singleton _
  | element name ha _ ih =>
    obtain ⟨texts, ht⟩ := ha.exists_textAttributes
    rw [dissolvedPieces_element, writeAll_singleton, Value.write, Value.write, write_element_eq ht,
      write_element_eq ht, dissolvedAll_eq, writeAll_flatMap fun u hu => ih u hu (some name)]
  | fragment _ ih =>
    rw [Value.dissolvedPieces, dissolvedAll_eq]
    exact writeAll_flatMap fun u hu => ih u hu parent

theorem writeAll_dissolvedAll {vs : List Value} (h : ∀ v ∈ vs, v.WellTyped) :
    writeAll parent (dissolvedAll vs) = writeAll parent vs := by
  rw [dissolvedAll_eq]
  exact writeAll_flatMap fun v hv => writeAll_dissolvedPieces (h v hv) parent

end Markup

end Hypertext
