import Mathlib.Data.List.Flatten
import Hypertext.Proofs.Layout.Alike
import Hypertext.Proofs.Markup.Dissolved
import Hypertext.Proofs.Shallow
import Hypertext.Proofs.Text.Breaks

/-!
# Layouts and fragments

A fragment is not written itself, but a layout can show it. An element is inline (`_is_inline`) if
it holds a text directly, or nothing at all, and a fragment that holds a text is no text: an
element around it is laid out as a block, with white space around the text, though without the
fragment it would have stayed on its line. Such an element is veiled. The layout of a tree and that
of the tree with the fragments inside it dissolved are written alike if nothing is veiled, and
never alike if something is.

* `Node.veils`: some element that shows is veiled.
* `Beneath`: one text comes from another by leaving characters out. `Apart` is equality, or a text
  beneath another one that is longer.
* `sides_wellTyped`: the two layouts side by side. The induction is on the well-typed tree; a veiled
  element is where they part, and what is beneath the layout from there on is the tree itself.
* **`layout_dissolved`**: the two layouts of a tree that is built.
* `layout_shows_fragment`: so a tag list with a fragment in it can have a layout that shows the
  fragment.
-/

namespace Hypertext

open Content Markup

/-! ## Veiled elements -/

open Layout (isInline) in
mutual

/-- Some element in the node is veiled: it is a block, but inline once the fragments in it are
dissolved. What stands in a void element, or in one that is inline as it is, is no matter of
layouts. -/
def Node.veils : Node → Bool
  | .element (.str name) _ children =>
    !isVoid name && (!isInline children && (isInline (dissolvedAll children) || anyVeils children))
  | .fragment children => anyVeils children
  | _ => false

/-- The value is a node in which an element is veiled. -/
def Value.veils : Value → Bool
  | .node n => n.veils
  | _ => false

/-- One of the values is such a node. -/
def anyVeils : List Value → Bool
  | [] => false
  | v :: rest => v.veils || anyVeils rest

end

theorem anyVeils_append (xs ys : List Value) :
    anyVeils (xs ++ ys) = (anyVeils xs || anyVeils ys) := by
  induction xs with
  | nil => rfl
  | cons v xs ih => rw [List.cons_append, anyVeils, anyVeils, ih, Bool.or_assoc]

theorem anyVeils_singleton (v : Value) : anyVeils [v] = v.veils := Bool.or_false _

theorem anyVeils_leafNodes (n : Node) : anyVeils (leafNodes (.node n)) = n.veils := by
  cases n with
  | fragment children => rw [leafNodes, Node.veils]
  | _ => exact anyVeils_singleton _

/-- Fragments may be dissolved before one looks. -/
theorem anyVeils_flatMap_leafNodes {vs : List Value} (h : ∀ v ∈ vs, v.WellTyped) :
    anyVeils (vs.flatMap leafNodes) = anyVeils vs := by
  induction vs with
  | nil => rfl
  | cons v vs ih =>
    rw [List.forall_mem_cons] at h
    obtain ⟨n, rfl⟩ := exists_node_of_wellTyped h.1
    rw [List.flatMap_cons, anyVeils_append, anyVeils_leafNodes, ih h.2, anyVeils]
    rfl

namespace Layout

/-- What is inline stays so when fragments dissolve. -/
theorem isInline_dissolvedAll {vs : List Value} (h : isInline vs = true) :
    isInline (dissolvedAll vs) = true := by
  unfold isInline at h ⊢
  rw [Bool.or_eq_true] at h ⊢
  rcases h with h | h
  · left
    rw [List.isEmpty_iff.mp h]
    rfl
  · right
    obtain ⟨v, hv, ht⟩ := List.any_eq_true.mp h
    refine List.any_eq_true.mpr ⟨v, mem_dissolvedAll.mpr ⟨v, hv, ?_⟩, ht⟩
    match v, ht with
    | .node (.text data), _ => exact List.mem_singleton_self _

/-! ## Texts beneath others -/

/-- If both come out, the first text is the second one without some of its characters, `k` or
more. -/
def Beneath (k : Nat) (x y : Except Fault String) : Prop :=
  ∀ s t, x = .ok s → y = .ok t →
    s.toList.Sublist t.toList ∧ s.toList.length + k ≤ t.toList.length

variable {k k' : Nat} {b b' : Bool} {x x' y y' : Except Fault String}

theorem Beneath.of_sublist {s t : String} (h : s.toList.Sublist t.toList) :
    Beneath 0 (.ok s) (.ok t) := by
  rintro _ _ ⟨⟩ ⟨⟩
  exact ⟨h, h.length_le⟩

theorem Beneath.refl (x : Except Fault String) : Beneath 0 x x := by
  rintro s _ rfl ⟨⟩
  exact ⟨.refl _, Nat.le_refl _⟩

/-- The empty text is beneath all. -/
theorem Beneath.empty (y : Except Fault String) : Beneath 0 (.ok "") y := by
  rintro _ t ⟨⟩ -
  exact ⟨List.nil_sublist _, Nat.zero_le _⟩

theorem Beneath.append (h : Beneath k x y) (h' : Beneath k' x' y') :
    Beneath (k + k') (x ++ x') (y ++ y') := by
  intro s t hs ht
  obtain ⟨s₁, s₂, hx, hx', rfl⟩ := exists_of_append_ok hs
  obtain ⟨t₁, t₂, hy, hy', rfl⟩ := exists_of_append_ok ht
  obtain ⟨sub, len⟩ := h _ _ hx hy
  obtain ⟨sub', len'⟩ := h' _ _ hx' hy'
  simp only [String.toList_append, List.length_append]
  exact ⟨sub.append sub', by omega⟩

theorem Beneath.mono (h : Beneath k x y) (hk : k' ≤ k) : Beneath k' x y := by
  intro s t hs ht
  obtain ⟨sub, len⟩ := h s t hs ht
  exact ⟨sub, by omega⟩

/-- One outcome, or two of which the first is a text beneath the second and shorter. -/
inductive Apart : Bool → Except Fault String → Except Fault String → Prop
  | same (x : Except Fault String) : Apart false x x
  | shorter {x y : Except Fault String} (h : Beneath 1 x y) : Apart true x y

theorem Apart.append (h : Apart b x y) (h' : Apart b' x' y') :
    Apart (b || b') (x ++ x') (y ++ y') := by
  cases h with
  | same x =>
    cases h' with
    | same x' => exact .same _
    | shorter h' => exact .shorter ((Beneath.refl x).append h')
  | shorter h =>
    cases h' with
    | same x' => exact .shorter (h.append (.refl x'))
    | shorter h' => exact .shorter ((h.append h').mono (by omega))

/-- Between two outcomes that are the same on both sides. -/
theorem Apart.between (h : Apart b x y) (before after : Except Fault String) :
    Apart b (before ++ x ++ after) (before ++ y ++ after) := by
  have := ((Apart.same before).append h).append (.same after)
  rwa [Bool.false_or, Bool.or_false] at this

/-! ## Texts that are moved in are beneath -/

variable {indent : String} {level : Int} {parent : Option String}

theorem beneath_reindent_text (data : String) :
    Beneath 0 (writeText parent data) (writeText parent (Text.reindent data indent level)) := by
  have moved := Text.sublist_reindent data indent level
  have escaped : (Text.escapeText data).toList.Sublist
      (Text.escapeText (Text.reindent data indent level)).toList := by
    rw [Text.toList_escapeText, Text.toList_escapeText]
    exact moved.flatMap _
  cases parent with
  | none => exact .of_sublist escaped
  | some name =>
    unfold writeText
    by_cases hk : isTextPreserving name = true
    · simp only [hk, if_true]
      rintro s t hs ht
      split at hs
      · cases hs
      · split at ht
        · cases ht
        · exact Beneath.of_sublist moved s t hs ht
    · simp only [hk]
      exact .of_sublist escaped

theorem beneath_reindent_comment (data : String) :
    Beneath 0 (writeComment data) (writeComment (Text.reindent data indent level)) := by
  have moved := Text.sublist_reindent data indent level
  intro s t hs ht
  unfold writeComment at hs ht
  split at hs
  · cases hs
  · split at ht
    · cases ht
    · refine Beneath.of_sublist ?_ s t hs ht
      simp only [String.toList_append]
      exact ((List.Sublist.refl _).append moved).append (.refl _)

/-! ## Lines, side by side -/

/-- The line of `u` has `w` on it, and with the fragments in `u` dissolved it has `w'` on it. -/
structure Sides (indent : String) (level : Int) (u w w' : Value) : Prop where
  outcome : (lines indent level [u]).outcome = .ok (line indent level w)
  dissolved : (lines indent level u.dissolvedPieces).outcome = .ok (line indent level w')
  apart : ∀ parent, Apart u.veils (w'.write parent) (w.write parent)
  beneath : ∀ parent, Beneath 0 (u.write parent) (w.write parent)

/-- The lines of `us` are `rows`, and with the fragments in `us` dissolved they are `rows'`. -/
structure SidesAll (indent : String) (level : Int) (us rows rows' : List Value) : Prop where
  outcome : (lines indent level us).outcome = .ok rows
  dissolved : (lines indent level (dissolvedAll us)).outcome = .ok rows'
  apart : ∀ parent, Apart (anyVeils us) (writeAll parent rows') (writeAll parent rows)
  beneath : ∀ parent, Beneath 0 (writeAll parent us) (writeAll parent rows)

theorem sidesAll_of_sides {us : List Value} (h : ∀ u ∈ us, ∃ w w', Sides indent level u w w') :
    ∃ rows rows', SidesAll indent level us rows rows' := by
  induction us with
  | nil => exact ⟨[], [], rfl, rfl, fun _ => .same _, fun _ => .refl _⟩
  | cons u us ih =>
    rw [List.forall_mem_cons] at h
    obtain ⟨w, w', hw⟩ := h.1
    obtain ⟨rows, rows', hr⟩ := ih h.2
    refine ⟨line indent level w ++ rows, line indent level w' ++ rows',
      outcome_lines_append hw.outcome hr.outcome,
      outcome_lines_append hw.dissolved hr.dissolved, fun parent => ?_, fun parent => ?_⟩
    · rw [writeAll_append, writeAll_append, writeAll_line, writeAll_line, anyVeils]
      exact ((hw.apart parent).between _ _).append (hr.apart parent)
    · have around := ((Beneath.empty ((marginNode indent level).write parent)).append
        (hw.beneath parent)).append (.empty (lineEnd.write parent))
      rw [ok_empty_append, append_ok_empty] at around
      rw [writeAll_append, writeAll_line, writeAll_cons]
      exact around.append (hr.beneath parent)

/-! ## Elements, side by side -/

theorem outcome_lines_node {n m : Node} (h : (shape indent level n).outcome = .ok m) :
    (lines indent level [.node n]).outcome = .ok (line indent level (.node m)) := by
  simp only [lines_node, Traced.outcome_bind, h]
  rfl

/-- A node in which there is nothing to dissolve. -/
theorem sides_kept {n m : Node} (h : (shape indent level n).outcome = .ok m)
    (hd : (Value.node n).dissolvedPieces = [.node n]) (hv : n.veils = false)
    (beneath : ∀ parent, Beneath 0 (n.write parent) (m.write parent)) :
    Sides indent level (.node n) (.node m) (.node m) := by
  refine ⟨outcome_lines_node h, ?_, fun parent => ?_, beneath⟩
  · rw [hd]
    exact outcome_lines_node h
  · rw [Value.veils, hv]
    exact .same _

/-- Elements with the same tags are as far apart as their contents, unless they are void. -/
theorem apart_element {name : String} {a : Record} (ha : a.Texts) {vs ws : List Value}
    (h : Apart b (writeAll (some name) vs) (writeAll (some name) ws)) :
    Apart (!isVoid name && b) ((Value.node (.element (.str name) a vs)).write parent)
      ((Value.node (.element (.str name) a ws)).write parent) := by
  obtain ⟨texts, ht⟩ := ha.exists_textAttributes
  rw [Value.write, Value.write, write_element_eq ht, write_element_eq ht]
  by_cases hv : isVoid name = true
  · rw [if_pos hv, if_pos hv, hv]
    exact .same _
  · rw [if_neg hv, if_neg hv, Bool.not_eq_true _ |>.mp hv, Bool.not_false, Bool.true_and]
    exact h.between _ _

theorem beneath_element {name : String} {a : Record} (ha : a.Texts) {vs ws : List Value}
    (h : Beneath 0 (writeAll (some name) vs) (writeAll (some name) ws)) :
    Beneath 0 ((Value.node (.element (.str name) a vs)).write parent)
      ((Value.node (.element (.str name) a ws)).write parent) := by
  obtain ⟨texts, ht⟩ := ha.exists_textAttributes
  rw [Value.write, Value.write, write_element_eq ht, write_element_eq ht]
  by_cases hv : isVoid name = true
  · rw [if_pos hv, if_pos hv]
    exact .refl _
  · rw [if_neg hv, if_neg hv]
    exact ((Beneath.refl _).append h).append (.refl _)

/-- The line end at the start of a block shows. -/
theorem beneath_blockBody {vs rows : List Value}
    (h : Beneath 0 (writeAll parent vs) (writeAll parent rows)) :
    Beneath 1 (writeAll parent vs) (writeAll parent (blockBody indent level rows)) := by
  have lineEnd : Beneath 1 (.ok "") (lineEnd.write parent) := by
    rw [write_lineEnd]
    rintro _ _ ⟨⟩ ⟨⟩
    exact ⟨List.nil_sublist _, Nat.le_refl 1⟩
  have around := (lineEnd.append h).append (.empty ((marginNode indent level).write parent))
  rw [ok_empty_append, append_ok_empty] at around
  rw [writeAll_blockBody]
  exact around

/-- An element that is inline. -/
theorem sides_inline {name : String} {a : Record} {children : List Value} (ha : a.Texts)
    (hc : ∀ v ∈ children, v.WellTyped) (hi : isInline children = true) :
    Sides indent level (.node (.element (.str name) a children))
      (.node (.element (.str name) a children))
      (.node (.element (.str name) a (dissolvedAll children))) := by
  refine ⟨outcome_lines_node ?_, ?_, fun parent => ?_, fun parent => .refl _⟩
  · rw [shape, if_pos hi]
    rfl
  · rw [dissolvedPieces_element]
    refine outcome_lines_node ?_
    rw [shape, if_pos (isInline_dissolvedAll hi)]
    rfl
  · have content : Apart false (writeAll (some name) (dissolvedAll children))
        (writeAll (some name) children) := by
      rw [writeAll_dissolvedAll hc]
      exact .same _
    rw [Value.veils, Node.veils, hi, Bool.not_true, Bool.false_and]
    exact apart_element ha content

/-- A block. It is veiled, or the nodes in it are laid out on both sides. -/
theorem sides_block {name : String} {a : Record} {children rows rows' : List Value}
    (ha : a.Texts) (hc : ∀ v ∈ children, v.WellTyped) (hb : isInline children = false)
    (hr : SidesAll indent (level + 1) (children.flatMap leafNodes) rows rows') :
    ∃ w w', Sides indent level (.node (.element (.str name) a children)) w w' := by
  have beneath (parent : Option String) :
      Beneath 0 (writeAll parent children) (writeAll parent rows) := by
    rw [← writeAll_flatMap_leafNodes hc]
    exact hr.beneath parent
  have outcome := outcome_lines_node (outcome_shape_block (.str name) a hb hc hr.outcome)
  have whole (parent : Option String) :
      Beneath 0 ((Value.node (.element (.str name) a children)).write parent)
        ((Value.node (.element (.str name) a (blockBody indent level rows))).write parent) :=
    beneath_element ha ((beneath_blockBody (beneath (some name))).mono (Nat.zero_le 1))
  by_cases hi : isInline (dissolvedAll children) = true
  · refine ⟨_, .node (.element (.str name) a (dissolvedAll children)), outcome, ?_,
      fun parent => ?_, whole⟩
    · rw [dissolvedPieces_element]
      refine outcome_lines_node ?_
      rw [shape, if_pos hi]
      rfl
    · have content : Apart true (writeAll (some name) (dissolvedAll children))
          (writeAll (some name) (blockBody indent level rows)) := by
        rw [writeAll_dissolvedAll hc]
        exact .shorter (beneath_blockBody (beneath (some name)))
      rw [Value.veils, Node.veils, hb, hi, Bool.not_false, Bool.true_and, Bool.true_or]
      exact apart_element ha content
  · have hb' : isInline (dissolvedAll children) = false := by simpa using hi
    have dissolved := hr.dissolved
    rw [dissolvedAll_flatMap_leafNodes hc, ← flatMap_leafNodes_dissolvedAll hc] at dissolved
    refine ⟨_, .node (.element (.str name) a (blockBody indent level rows')), outcome, ?_,
      fun parent => ?_, whole⟩
    · rw [dissolvedPieces_element]
      exact outcome_lines_node
        (outcome_shape_block (.str name) a hb' (wellTyped_dissolvedAll hc) dissolved)
    · have content := (hr.apart (some name)).between (lineEnd.write (some name))
        ((marginNode indent level).write (some name))
      rw [← writeAll_blockBody, ← writeAll_blockBody, anyVeils_flatMap_leafNodes hc] at content
      rw [Value.veils, Node.veils, hb, hb', Bool.not_false, Bool.true_and, Bool.false_or]
      exact apart_element ha content

/-- **Every node of a shallow tree has its two lines.** -/
theorem sides_wellTyped {v : Value} (h : v.WellTyped) (hs : Shallow v) (indent : String)
    (level : Int) : ∀ u ∈ leafNodes v, ∃ w w', Sides indent level u w w' := by
  induction h generalizing level with
  | text data =>
    exact List.forall_mem_singleton.mpr
      ⟨_, _, sides_kept rfl rfl rfl fun _ => beneath_reindent_text data⟩
  | comment data =>
    exact List.forall_mem_singleton.mpr
      ⟨_, _, sides_kept rfl rfl rfl fun _ => beneath_reindent_comment data⟩
  | raw data =>
    exact List.forall_mem_singleton.mpr ⟨_, _, sides_kept rfl rfl rfl fun _ => .refl _⟩
  | doctype name =>
    exact List.forall_mem_singleton.mpr ⟨_, _, sides_kept rfl rfl rfl fun _ => .refl _⟩
  | @element name a children ha hc ih =>
    refine List.forall_mem_singleton.mpr ?_
    by_cases hi : isInline children = true
    · exact ⟨_, _, sides_inline ha hc hi⟩
    · cases hs with
      | element _ _ shallow =>
        have inner : ∀ u ∈ children.flatMap leafNodes, ∃ w w', Sides indent (level + 1) u w w' := by
          intro u hu
          obtain ⟨v, hv, hm⟩ := List.mem_flatMap.mp hu
          exact ih v hv (shallow v hv) (level + 1) u hm
        obtain ⟨rows, rows', hr⟩ := sidesAll_of_sides inner
        exact sides_block ha hc (by simpa using hi) hr
  | @fragment children hc ih =>
    -- The children are no fragments, so each of them is what it stands for.
    cases hs with
    | fragment shallow solid =>
      intro u hu
      refine ih u hu (shallow u hu) level u ?_
      obtain ⟨n, rfl⟩ := exists_node_of_wellTyped (hc u hu)
      have := solid _ hu
      cases n with
      | fragment => cases this
      | _ => exact List.mem_singleton_self _

/-! ## Layouts, side by side -/

/-- A layout as a fragment is written row by row. -/
theorem outcome_writeFragment_layout {n : Node} (h : n.WellTyped) {rows : List Value}
    (ho : (layout (.node n) indent level).outcome = .ok rows) :
    (writeFragment [.tuple rows]).outcome = writeAll none rows := by
  obtain ⟨_, ho', hr⟩ := exists_layout h indent level
  obtain rfl := Except.ok.inj (ho.symm.trans ho')
  exact outcome_writeFragment_tuple hr.wellTyped

theorem outcome_layout_node (n : Node) : (layout (.node n) indent level).outcome =
    (lines indent level (leafNodes (.node n))).outcome := by
  rw [layout_node]
  rfl

/-- **Layouts show fragments where elements are veiled, and nowhere else.** Take a tree that is
built from texts, elements, fragments and tag lists, and the same tree with all fragments inside it
dissolved. Both have layouts. If no element is veiled, the two layouts are written to the same
text, or fail with the same fault. And if both are written, the texts are equal only then. -/
theorem layout_dissolved {made : List Value} (h : Built made) {t : Node} (ht : .node t ∈ made)
    (indent : String) (level : Int) :
    ∃ rows rows', (layout (.node t) indent level).outcome = .ok rows ∧
      (layout (.node t.dissolved) indent level).outcome = .ok rows' ∧
      (t.veils = false →
        (writeFragment [.tuple rows]).outcome = (writeFragment [.tuple rows']).outcome) ∧
      ∀ s s', (writeFragment [.tuple rows]).outcome = .ok s →
        (writeFragment [.tuple rows']).outcome = .ok s' → (s = s' ↔ t.veils = false) := by
  have typed : t.WellTyped := h.produced.wellTyped _ ht
  obtain ⟨rows, rows', hr⟩ := sidesAll_of_sides
    (sides_wellTyped typed (h.shallow _ ht) indent level)
  have dissolved : (layout (.node t.dissolved) indent level).outcome = .ok rows' := by
    rw [outcome_layout_node, leafNodes_dissolved, ← dissolvedAll_leafNodes]
    exact hr.dissolved
  have outcome : (layout (.node t) indent level).outcome = .ok rows := by
    rw [outcome_layout_node, hr.outcome]
  have apart := hr.apart none
  rw [anyVeils_leafNodes] at apart
  refine ⟨rows, rows', outcome, dissolved, ?_⟩
  rw [outcome_writeFragment_layout typed outcome,
    outcome_writeFragment_layout (wellTyped_dissolved typed) dissolved]
  generalize writeAll none rows = y at apart ⊢
  generalize writeAll none rows' = x at apart ⊢
  generalize t.veils = veils at apart ⊢
  cases apart with
  | same x =>
    refine ⟨fun _ => rfl, fun s s' hs hs' => iff_of_true ?_ rfl⟩
    exact Except.ok.inj (hs.symm.trans hs')
  | shorter h =>
    refine ⟨nofun, fun s s' hs hs' => iff_of_false ?_ nofun⟩
    rintro rfl
    have := (h s s hs' hs).2
    omega

/-- A fragment with a text in it. -/
def textFragment : Node := .fragment [.ofText "a"]

/-- An element that a tag list makes around the fragment. -/
def veiledElement : Node := .element (.str "p") [] [.node textFragment]

theorem built_veiledElement : Built [.node textFragment, .node veiledElement] := by
  have first : Built [.node textFragment] :=
    .call (.fragment [.str "a"]) rfl .start (List.forall_mem_singleton.mpr (.plain rfl)) rfl
  refine .call (.tag (.list [.str "p", .node textFragment])) rfl first (.list ?_) rfl
  simp only [List.forall_mem_cons]
  exact ⟨.plain rfl, .node (List.mem_singleton_self _), List.forall_mem_nil _⟩

theorem layout_dissolved_veiled : Built [.node textFragment, .node veiledElement] ∧
    Value.node veiledElement ∈ [Value.node textFragment, .node veiledElement] ∧
    (∃ rows rows', (layout (.node veiledElement) "\t" 0).outcome = .ok rows ∧
      (layout (.node veiledElement.dissolved) "\t" 0).outcome = .ok rows' ∧
      (veiledElement.veils = false →
        (writeFragment [.tuple rows]).outcome = (writeFragment [.tuple rows']).outcome) ∧
      ∀ s s', (writeFragment [.tuple rows]).outcome = .ok s →
        (writeFragment [.tuple rows']).outcome = .ok s' → (s = s' ↔ veiledElement.veils = false)) ∧
    veiledElement.veils = true ∧
    layoutMarkup veiledElement "\t" 0 = some "<p>\n\ta\n</p>\n" ∧
    layoutMarkup veiledElement.dissolved "\t" 0 = some "<p>a</p>\n" := by
  have member : Value.node veiledElement ∈ [Value.node textFragment, .node veiledElement] :=
    List.mem_cons_of_mem _ (List.mem_singleton_self _)
  exact ⟨built_veiledElement, member, layout_dissolved built_veiledElement member "\t" 0, rfl,
    by decide +kernel, by decide +kernel⟩

/-- It is not so that fragments never show in a layout. -/
theorem layout_shows_fragment : ¬ ∀ made, Built made → ∀ t, Value.node t ∈ made →
    ∀ indent level s s', layoutMarkup t indent level = some s →
      layoutMarkup t.dissolved indent level = some s' → s = s' := by
  intro invisible
  have equal : "<p>\n\ta\n</p>\n" = "<p>a</p>\n" :=
    invisible _ built_veiledElement veiledElement (by simp) "\t" 0 _ _ (by decide +kernel)
      (by decide +kernel)
  exact absurd equal (by decide)

end Layout

end Hypertext
