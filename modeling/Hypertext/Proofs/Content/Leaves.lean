import Hypertext.Content

/-!
# Content leaf by leaf

Sequences nest in content to any depth, and `append_children` calls itself for each of them, but
nodes and attributes come from the leaves alone: the items that are no sequence, and the failures
of streams. `leaves` lists the leaves depth first and from left to right, each with the path to the
sequence that holds it. A leaf is judged on its own: `refusal?` looks at the place and at whether
there are attributes, never at the draft.

* `assign_eq`: a record is written up to its first bad entry, and refused for it.
* `appendItem_leaf`: what adding a leaf leaves behind, and what it is refused for.
-/

namespace Hypertext

namespace Record

/-- One entry written: a null takes its key away. -/
def write (a : Record) : Value × Value → Record
  | (.str key, .null) => drop key a
  | (.str key, v) => put key v a
  | _ => a

/-- Entries written one after another. -/
def writeAll (a entries : Record) : Record := entries.foldl write a

theorem writeAll_append (a xs ys : Record) : a.writeAll (xs ++ ys) = (a.writeAll xs).writeAll ys :=
  List.foldl_append

end Record

namespace Content

/-! ## Leaves and their places -/

/-- A step of going through content that is not gone into any further. The path holds the positions
that lead from the outermost sequence to the one that the step is in. -/
structure Leaf where
  path : List Nat
  step : Step

/-- The items of steps. Positions count these, null among them, and nothing else. -/
def stepItems (steps : List Step) : List Value :=
  steps.filterMap fun
    | .item v => some v
    | _ => none

/-- A value that is no sequence. Texts, records and bytes count as one piece. -/
def isLeaf : Value → Bool
  | .list _ | .tuple _ | .range _ _ | .stream _ _ => false
  | _ => true

mutual

/-- The leaves of the item at position `index` of the sequence at `path`. -/
def itemLeaves (path : List Nat) (index : Nat) : Value → List Leaf
  | .list items => listLeaves (path ++ [index]) 0 items
  | .tuple items => listLeaves (path ++ [index]) 0 items
  | .stream _ steps => streamLeaves (path ++ [index]) 0 steps
  | .range start stop =>
    (Value.intsFrom start (stop - start).toNat).map fun v => ⟨path ++ [index], .item v⟩
  | v => [⟨path, .item v⟩]

/-- The leaves of items, the first of which has position `index`. -/
def listLeaves (path : List Nat) (index : Nat) : List Value → List Leaf
  | [] => []
  | v :: rest => itemLeaves path index v ++ listLeaves path (index + 1) rest

/-- The leaves of the items of a stream. Its own events and its failure are leaves too. -/
def streamLeaves (path : List Nat) (index : Nat) : List Step → List Leaf
  | [] => []
  | .item v :: rest => itemLeaves path index v ++ streamLeaves path (index + 1) rest
  | .note e :: rest => ⟨path, .note e⟩ :: streamLeaves path index rest
  | .fail f :: _ => [⟨path, .fail f⟩]

end

/-- The leaves of a value that is gone through as content. -/
def leaves (content : Value) : List Leaf := streamLeaves [] 0 (content.steps?.getD [])

theorem itemLeaves_of_isLeaf {v : Value} (h : isLeaf v = true) (path : List Nat) (i : Nat) :
    itemLeaves path i v = [⟨path, .item v⟩] := by
  cases v with
  | list _ | tuple _ | range _ _ | stream _ _ => cases h
  | _ => rfl

theorem listLeaves_eq (path : List Nat) : ∀ (i : Nat) (vs : List Value),
    listLeaves path i vs = streamLeaves path i (vs.map .item)
  | _, [] => rfl
  | i, v :: rest => by
    rw [List.map_cons, listLeaves, streamLeaves, listLeaves_eq path (i + 1) rest]

/-- Content with sequences three deep, and a bad entry in a record at the bottom. -/
def nestedSample : Value :=
  .list [.str "x", .stream 0 [.item .null, .item (.tuple [.record [(.str "id", .str "a")],
    .record [(.str "class", .str "b"), (.str "n", .int 1)]])], .str "y"]

example : (leaves nestedSample).map (·.path) = [[], [1], [1, 1], [1, 1], []] := rfl

/-! ## What one leaf does -/

/-- An entry that a record may have: a text for a key, a text or null for a value. -/
def isEntry : Value × Value → Bool
  | (.str _, .null) | (.str _, .str _) => true
  | _ => false

/-- Why an entry is refused. -/
def entryRefusal? (label : String) : Value × Value → Option BuildCause
  | (.str _, .null) | (.str _, .str _) => none
  | (.str key, v) => some (.attributeValue key label v.typeName)
  | (k, _) => some (.attributeName label k.literal)

/-- Why a leaf is refused at `site`, where there is `room` for attributes or not. -/
def refusal? (site : Site) (room : Bool) : Value → Option BuildCause
  | .null | .str _ | .node _ => none
  | .record entries =>
    if room then entries.findSome? (entryRefusal? site.label)
    else some (.noAttributesAt site.label)
  | v => some (.childType site.label v.typeName)

/-- The nodes that a leaf stands for. -/
def leafNodes : Value → List Value
  | .str s => [.ofText s]
  | .node (.fragment children) => children
  | .node n => [.node n]
  | _ => []

/-- The entries that a leaf writes: those of a record, up to the first that is refused. -/
def leafEntries : Value → Record
  | .record entries => entries.takeWhile isEntry
  | _ => []

theorem assign_eq (label : String) : ∀ entries a : Record, assign label entries a =
    (a.writeAll (entries.takeWhile isEntry), entries.findSome? (entryRefusal? label))
  | [], _ => rfl
  | (k, v) :: rest, a => by
    cases k with
    | str key =>
      cases v with
      | null => rw [assign, assign_eq label rest]; rfl
      | str value => rw [assign, assign_eq label rest]; rfl
      | _ => rfl
    | _ => rfl

theorem leafNodes_of_refusal {site : Site} {room : Bool} {v : Value} {cause : BuildCause}
    (h : refusal? site room v = some cause) : leafNodes v = [] := by
  cases v with
  | null | str _ | node _ => cases h
  | _ => rfl

end Content

namespace Draft

/-- The draft with a leaf's nodes and entries in it. -/
def take (d : Draft) (v : Value) : Draft :=
  { d with
    nodes := d.nodes ++ Content.leafNodes v
    attributes := d.attributes.map (·.writeAll (Content.leafEntries v)) }

/-- The draft after a step. -/
def after (d : Draft) : Step → Draft
  | .item v => d.take v
  | .note e => d.note e
  | .fail _ => d

/-- There is room for attributes. -/
def room (d : Draft) : Bool := d.attributes.isSome

@[simp] theorem room_after (d : Draft) (s : Step) : (d.after s).room = d.room := by
  cases s <;> simp [after, take, note, room]

end Draft

namespace Content

theorem take_eq_self {d : Draft} {v : Value} (hn : leafNodes v = []) (he : leafEntries v = []) :
    d.take v = d := by
  obtain ⟨nodes, attributes, events⟩ := d
  cases attributes <;> simp [Draft.take, hn, he, Record.writeAll]

theorem take_eq_add {d : Draft} {v : Value} (he : leafEntries v = []) :
    d.take v = d.add (leafNodes v) := by
  obtain ⟨nodes, attributes, events⟩ := d
  cases attributes <;> simp [Draft.take, Draft.add, he, Record.writeAll]

theorem appendRecord_eq (site : Site) (entries : Record) (d : Draft) :
    appendRecord site entries d = match refusal? site d.room (.record entries) with
      | none => .done (d.take (.record entries))
      | some cause => refuse (d.take (.record entries)) cause := by
  obtain ⟨nodes, attributes, events⟩ := d
  cases attributes with
  | none => simp [appendRecord, refusal?, Draft.room, Draft.take, leafNodes]
  | some a =>
    simp only [appendRecord, assign_eq, refusal?, Draft.room, Option.isSome_some, if_true]
    cases entries.findSome? (entryRefusal? site.label) <;>
      simp [Draft.take, leafNodes, leafEntries]

/-- **Adding a leaf** puts its nodes and entries into the draft, whether it is refused or not. -/
theorem appendItem_leaf {v : Value} (h : isLeaf v = true) (site : Site) (i : Nat) (d : Draft) :
    appendItem site i v d = match refusal? site d.room v with
      | none => .done (d.take v)
      | some cause => refuse (d.take v) cause := by
  cases v with
  | list _ | tuple _ | range _ _ | stream _ _ => cases h
  | record entries => exact appendRecord_eq site entries d
  | str s => simp only [refusal?, take_eq_add (v := .str s) rfl]; rfl
  | node n => cases n <;> (simp only [refusal?, take_eq_add (v := .node _) rfl]; rfl)
  | _ => rw [take_eq_self rfl rfl]; rfl

end Content

end Hypertext
