import Hypertext.Layout.Lemmas
import Hypertext.Proofs.Content.Nodes
import Hypertext.Proofs.Text.Breaks

/-!
# Laying out a layout

A block that has been laid out by `prettify` starts with a line end, which is a text, so the next
layout takes it for an inline element. Laying a layout out again therefore puts every node of it on
a line of its own once more, moves the lines of texts and comments at the top in, and touches no
element. This speaks of layouts that hold nothing but nodes, and no fragments: a fragment would be
dissolved, and anything else goes through content, where it can be refused
(`layout_again_refused`).

* `Settled`: the invariant. A layout has it (`settled_layout`), and one more layout keeps it
  (`settled_rewrapped`).
* `layout_settled`: the step. What laying settled nodes out gives.
* `layouts_settled`: the run, by induction on the layouts that follow.
* **`layout_again`**: any number of layouts after the first.
-/

namespace Hypertext.Layout

open Content

/-! ## What one more layout does -/

/-- A text or a comment with a margin behind its line breaks. Everything else stays as it is. -/
def moved (margin : String) : Value → Value
  | .node (.text (.str s)) =>
    .node (.text (.str (String.ofList (Text.behindBreaks margin.toList s.toList))))
  | .node (.comment (.str s)) =>
    .node (.comment (.str (String.ofList (Text.behindBreaks margin.toList s.toList))))
  | v => v

/-- Every value on a line of its own, behind a margin. -/
def rewrapped (margin : String) (vs : List Value) : List Value :=
  vs.flatMap fun v => [.ofText margin, moved margin v, .ofText "\n"]

/-- Layouts in a row, each of what the one before it gave. -/
def layouts : List (String × Int) → List Value → Traced (List Value)
  | [], vs => pure vs
  | (indent, level) :: passes, vs => do
    let out ← layout (.tuple vs) indent level
    layouts passes out

/-- What layouts in a row come to. -/
def rewrappedBy (passes : List (String × Int)) (vs : List Value) : List Value :=
  passes.foldl (fun vs pass => rewrapped (Text.margin pass.1 pass.2) vs) vs

/-- The value is an element. -/
def isElement : Value → Bool
  | .node (.element _ _ _) => true
  | _ => false

/-- The value is a node, and no fragment. -/
def isSolid : Value → Bool
  | .node (.fragment _) => false
  | .node _ => true
  | _ => false

theorem moved_ofText (margin s : String) : moved margin (.ofText s) =
    .ofText (String.ofList (Text.behindBreaks margin.toList s.toList)) := rfl

theorem moved_of_isElement {v : Value} (h : isElement v = true) (margin : String) :
    moved margin v = v := by
  match v, h with
  | .node (.element _ _ _), _ => rfl

theorem isElement_moved (margin : String) (v : Value) :
    isElement (moved margin v) = isElement v := by
  unfold moved
  split <;> rfl

/-- Without a margin nothing moves. -/
theorem moved_empty (v : Value) : moved "" v = v := by
  have still (s : String) : String.ofList (Text.behindBreaks "".toList s.toList) = s := by
    rw [String.toList_empty, Text.behindBreaks_nil, String.ofList_toList]
  unfold moved
  split
  · rw [still]
  · rw [still]
  · rfl

theorem rewrapped_cons (margin : String) (v : Value) (vs : List Value) :
    rewrapped margin (v :: vs) =
      .ofText margin :: moved margin v :: .ofText "\n" :: rewrapped margin vs := rfl

/-- **One more layout leaves the elements as they are**, with all that is in them. -/
theorem filter_isElement_rewrapped (margin : String) (vs : List Value) :
    (rewrapped margin vs).filter isElement = vs.filter isElement := by
  have text (s : String) : ¬ isElement (.ofText s) = true := Bool.false_ne_true
  induction vs with
  | nil => rfl
  | cons v vs ih =>
    rw [rewrapped_cons, List.filter_cons_of_neg (text margin)]
    by_cases hv : isElement v = true
    · rw [moved_of_isElement hv, List.filter_cons_of_pos hv, List.filter_cons_of_neg (text "\n"),
        List.filter_cons_of_pos hv, ih]
    · have moved : ¬ isElement (moved margin v) = true := by rwa [isElement_moved]
      rw [List.filter_cons_of_neg moved, List.filter_cons_of_neg (text "\n"),
        List.filter_cons_of_neg hv, ih]

/-! ## Settled nodes -/

/-- A node that a layout leaves as it is, but for the lines of a text or a comment. -/
inductive Settled : Value → Prop
  | text (s : String) : Settled (.ofText s)
  | comment (s : String) : Settled (.node (.comment (.str s)))
  | raw (data : Value) : Settled (.node (.raw data))
  | doctype (name : Value) : Settled (.node (.doctype name))
  | element (name : Value) (attributes : Record) {children : List Value}
    (h : isInline children = true) : Settled (.node (.element name attributes children))

theorem exists_of_reindent {indent : String} {level : Int} {v w : Value}
    (h : reindent indent level v = .ok w) : ∃ s, w = .str s := by
  cases v with
  | str s => exact ⟨_, (Except.ok.inj h).symm⟩
  | _ => cases h

/-- A block that has been laid out is inline, for its first child is a text. -/
theorem isInline_block (rows : List Value) (indent : String) (level : Int) :
    isInline (lineEnd :: rows ++ [marginNode indent level]) = true := rfl

/-- **What has got its shape is settled**, unless it is a fragment. -/
theorem settled_shape {indent : String} {level : Int} {n m : Node}
    (h : (shape indent level n).outcome = .ok m) (hm : isSolid (.node m) = true) :
    Settled (.node m) := by
  cases n with
  | text data =>
    rw [shape, Traced.outcome_bind] at h
    obtain ⟨w, hw, h⟩ := exists_of_bind_ok h
    obtain ⟨s, rfl⟩ := exists_of_reindent hw
    cases h
    exact .text s
  | comment data =>
    rw [shape, Traced.outcome_bind] at h
    obtain ⟨w, hw, h⟩ := exists_of_bind_ok h
    obtain ⟨s, rfl⟩ := exists_of_reindent hw
    cases h
    exact .comment s
  | raw data =>
    cases h
    exact .raw data
  | doctype name =>
    cases h
    exact .doctype name
  | fragment children =>
    cases h
    cases hm
  | element name attributes children =>
    rw [shape] at h
    by_cases hi : isInline children = true
    · rw [if_pos hi] at h
      cases h
      exact .element name attributes hi
    · rw [if_neg hi] at h
      simp only [Traced.outcome_bind] at h
      obtain ⟨inner, -, h⟩ := exists_of_bind_ok h
      obtain ⟨_, -, h⟩ := exists_of_bind_ok h
      obtain ⟨body, -, h⟩ := exists_of_bind_ok h
      cases h
      exact .element name attributes (isInline_block body indent level)

theorem settled_line {indent : String} {level : Int} {v : Value}
    (h : isSolid v = true → Settled v) :
    ∀ r ∈ line indent level v, isSolid r = true → Settled r := by
  unfold line
  simp only [List.forall_mem_cons]
  exact ⟨fun _ => .text _, h, fun _ => .text _, List.forall_mem_nil _⟩

theorem settled_nodeLine {indent : String} {level : Int} {v : Value} {rows : List Value}
    (h : (nodeLine indent level v).outcome = .ok rows) :
    ∀ r ∈ rows, isSolid r = true → Settled r := by
  cases v with
  | node n =>
    rw [nodeLine, Traced.outcome_bind] at h
    obtain ⟨m, hm, h⟩ := exists_of_bind_ok h
    cases h
    exact settled_line (settled_shape hm)
  | _ =>
    cases h
    exact settled_line fun solid => by cases solid

theorem settled_lines {indent : String} {level : Int} {vs rows : List Value}
    (h : (lines indent level vs).outcome = .ok rows) :
    ∀ r ∈ rows, isSolid r = true → Settled r := by
  induction vs generalizing rows with
  | nil =>
    cases h
    exact List.forall_mem_nil _
  | cons v vs ih =>
    simp only [lines, Traced.outcome_bind] at h
    obtain ⟨first, hf, h⟩ := exists_of_bind_ok h
    obtain ⟨others, ho, h⟩ := exists_of_bind_ok h
    cases h
    exact List.forall_mem_append.mpr ⟨settled_nodeLine hf, ih ho⟩

/-- Whatever is laid out, the layout is one of nodes. -/
theorem exists_lines_of_layout {input : Value} {indent : String} {level : Int} {out : List Value}
    (h : (layout input indent level).outcome = .ok out) :
    ∃ vs, (lines indent level vs).outcome = .ok out := by
  have ofNodes {vs : List Value} (h : (ofNodes indent level vs).outcome = .ok out) :
      ∃ vs, (lines indent level vs).outcome = .ok out := ⟨vs, h⟩
  unfold layout at h
  split at h
  · exact ofNodes h
  · exact ofNodes h
  · exact ofNodes h
  · simp only [Traced.outcome_bind] at h
    obtain ⟨items, -, h⟩ := exists_of_bind_ok h
    obtain ⟨nodes, -, h⟩ := exists_of_bind_ok h
    exact ofNodes h

/-- **What a layout holds is settled**, if it is a node and no fragment. -/
theorem settled_layout {input : Value} {indent : String} {level : Int} {out : List Value}
    (h : (layout input indent level).outcome = .ok out) (hs : ∀ v ∈ out, isSolid v = true) :
    ∀ v ∈ out, Settled v := by
  obtain ⟨vs, hl⟩ := exists_lines_of_layout h
  exact fun v hv => settled_lines hl v hv (hs v hv)

theorem Settled.moved {v : Value} (h : Settled v) (margin : String) : Settled (moved margin v) := by
  cases h with
  | text s => exact .text _
  | comment s => exact .comment _
  | raw data => exact .raw data
  | doctype name => exact .doctype name
  | element name attributes h => exact .element name attributes h

theorem settled_rewrapped {vs : List Value} (h : ∀ v ∈ vs, Settled v) (margin : String) :
    ∀ v ∈ rewrapped margin vs, Settled v := by
  refine List.forall_mem_flatMap.mpr fun v hv => ?_
  simp only [List.forall_mem_cons]
  exact ⟨.text _, (h v hv).moved margin, .text _, List.forall_mem_nil _⟩

/-! ## Layouts of settled nodes -/

theorem exists_node_of_isSolid {v : Value} (h : isSolid v = true) : ∃ n, v = .node n := by
  match v, h with
  | .node n, _ => exact ⟨n, rfl⟩

theorem leafNodes_of_isSolid {v : Value} (h : isSolid v = true) : leafNodes v = [v] := by
  match v, h with
  | .node (.text _), _ | .node (.comment _), _ | .node (.raw _), _ | .node (.doctype _), _
  | .node (.element _ _ _), _ => rfl

theorem ofList_behindBreaks (s indent : String) (level : Int) :
    String.ofList (Text.behindBreaks (Text.margin indent level).toList s.toList) =
      Text.reindent s indent level := by
  rw [← Text.toList_reindent, String.ofList_toList]

theorem nodeLine_settled {v : Value} (h : Settled v) (indent : String) (level : Int) :
    (nodeLine indent level v).outcome =
      .ok (line indent level (Layout.moved (Text.margin indent level) v)) := by
  cases h with
  | text s =>
    rw [moved_ofText, ofList_behindBreaks]
    rfl
  | comment s =>
    rw [Layout.moved, ofList_behindBreaks]
    rfl
  | raw data => rfl
  | doctype name => rfl
  | element name attributes h =>
    rw [nodeLine, shape, if_pos h]
    rfl

theorem lines_settled {vs : List Value} (h : ∀ v ∈ vs, Settled v) (indent : String)
    (level : Int) :
    (lines indent level vs).outcome = .ok (rewrapped (Text.margin indent level) vs) := by
  induction vs with
  | nil => rfl
  | cons v vs ih =>
    rw [List.forall_mem_cons] at h
    exact outcome_lines_cons (nodeLine_settled h.1 indent level) (ih h.2)

theorem Settled.isSolid {v : Value} (h : Settled v) : isSolid v = true := by
  cases h <;> rfl

theorem flatMap_leafNodes_of_isSolid {vs : List Value} (h : ∀ v ∈ vs, isSolid v = true) :
    vs.flatMap leafNodes = vs := by
  rw [List.flatMap_congr fun v hv => leafNodes_of_isSolid (h v hv), List.flatMap_singleton']

/-- Solid nodes are content that is nodes already. -/
theorem nodes_of_isSolid {vs : List Value} (h : ∀ v ∈ vs, isSolid v = true) :
    nodes vs = pure vs := by
  unfold nodes
  rw [appendItems_nodes fun v hv => exists_node_of_isSolid (h v hv),
    flatMap_leafNodes_of_isSolid h]
  rfl

/-- Items without anything between them are gone through one by one. -/
theorem drain_items (vs : List Value) : Step.drain (vs.map .item) = pure vs := by
  induction vs with
  | nil => rfl
  | cons v vs ih => rw [List.map_cons, Step.drain, ih, pure_bind]

/-- **Content that is solid nodes** is laid out as the nodes. -/
theorem layout_items {vs : List Value} (h : ∀ v ∈ vs, isSolid v = true) (indent : String)
    (level : Int) :
    (Step.drain (vs.map .item) >>= fun items => nodes items >>= ofNodes indent level) =
      ofNodes indent level vs := by
  rw [drain_items, pure_bind, nodes_of_isSolid h, pure_bind]

/-- The event of a layout does not show in its outcome. -/
theorem outcome_ofNodes (indent : String) (level : Int) (vs : List Value) :
    (ofNodes indent level vs).outcome = (lines indent level vs).outcome := rfl

/-- **Laying settled nodes out** puts each of them on one more line. -/
theorem layout_settled {vs : List Value} (h : ∀ v ∈ vs, Settled v) (indent : String)
    (level : Int) :
    (layout (.tuple vs) indent level).outcome =
      .ok (rewrapped (Text.margin indent level) vs) := by
  have solid : ∀ v ∈ vs, isSolid v = true := fun v hv => (h v hv).isSolid
  rw [← lines_settled h indent level, ← outcome_ofNodes, ← layout_items solid]
  rfl

/-- **Layouts in a row** put settled nodes on a line more each. -/
theorem layouts_settled (passes : List (String × Int)) {vs : List Value}
    (h : ∀ v ∈ vs, Settled v) :
    (layouts passes vs).outcome = .ok (rewrappedBy passes vs) := by
  induction passes generalizing vs with
  | nil => rfl
  | cons pass passes ih =>
    obtain ⟨indent, level⟩ := pass
    rw [layouts, Traced.outcome_bind, layout_settled h]
    exact ih (settled_rewrapped h _)

theorem filter_isElement_rewrappedBy (passes : List (String × Int)) (vs : List Value) :
    (rewrappedBy passes vs).filter isElement = vs.filter isElement := by
  induction passes generalizing vs with
  | nil => rfl
  | cons pass passes ih => exact (ih _).trans (filter_isElement_rewrapped _ vs)

/-! ## Layouts of layouts -/

/-- **A layout is laid out again** by one more line around each node, as long as it holds nothing
but nodes and no fragment: the lines of texts and comments at the top move in, which they do not at
a level of zero or below. So it goes for any number of layouts, and whatever their indents and
levels are, all elements stay as the first layout left them. -/
theorem layout_again {input : Value} {indent : String} {level : Int} {out : List Value}
    (h : (layout input indent level).outcome = .ok out) (hs : ∀ v ∈ out, isSolid v = true) :
    (∀ (indent' : String) (level' : Int),
      (layout (.tuple out) indent' level').outcome =
        .ok (rewrapped (Text.margin indent' level') out) ∧
      (level' ≤ 0 → ∀ v, moved (Text.margin indent' level') v = v)) ∧
    ∀ passes : List (String × Int),
      (layouts passes out).outcome = .ok (rewrappedBy passes out) ∧
      (rewrappedBy passes out).filter isElement = out.filter isElement := by
  have settled := settled_layout h hs
  refine ⟨fun indent' level' => ⟨layout_settled settled indent' level', fun hl v => ?_⟩,
    fun passes => ⟨layouts_settled passes settled, filter_isElement_rewrappedBy passes out⟩⟩
  rw [Text.margin_of_nonpos indent' hl]
  exact moved_empty v

/-- A block, and a comment of four lines of which one is blank. -/
def againSample : Value :=
  .list [.node (.element (.str "ul") [] [.node (.element (.str "li") [] [])]),
    .node (.comment (.str "a\nb\n\nc"))]

/-- Its layout, one level in. -/
def againLayout : List Value :=
  [.ofText "\t", .node (.element (.str "ul") [] [.ofText "\n", .ofText "\t\t",
      .node (.element (.str "li") [] []), .ofText "\n", .ofText "\t"]), .ofText "\n",
    .ofText "\t", .node (.comment (.str "a\n\tb\n\n\tc")), .ofText "\n"]

theorem layout_again_sample :
    (layout againSample "\t" 1).outcome = .ok againLayout ∧
    (∀ v ∈ againLayout, isSolid v = true) ∧
    ((∀ (indent' : String) (level' : Int),
      (layout (.tuple againLayout) indent' level').outcome =
        .ok (rewrapped (Text.margin indent' level') againLayout) ∧
      (level' ≤ 0 → ∀ v, moved (Text.margin indent' level') v = v)) ∧
    ∀ passes : List (String × Int),
      (layouts passes againLayout).outcome = .ok (rewrappedBy passes againLayout) ∧
      (rewrappedBy passes againLayout).filter isElement = againLayout.filter isElement) ∧
    (layouts [("", -1), ("  ", 1)] [.node (.comment (.str "a\nb\n\nc"))]).outcome =
      .ok [.ofText "  ", .ofText "", .ofText "\n",
        .ofText "  ", .node (.comment (.str "a\n  b\n\n  c")), .ofText "\n",
        .ofText "  ", .ofText "\n  ", .ofText "\n"] := by
  have first : (layout againSample "\t" 1).outcome = .ok againLayout := by rfl
  have solid : ∀ v ∈ againLayout, isSolid v = true := by decide
  exact ⟨first, solid, layout_again first solid, by rfl⟩

/-- A layout that holds something else than nodes cannot always be laid out again: a fragment is
laid out whatever it holds, and a number in it is refused as content. -/
theorem layout_again_refused :
    (layout (.node (.fragment [.int 1])) "\t" 0).outcome =
      .ok [.ofText "", .int 1, .ofText "\n"] ∧
    (∀ v ∈ [Value.ofText "", .int 1, .ofText "\n"], ∀ children, v ≠ .node (.fragment children)) ∧
    (layout (.tuple [.ofText "", .int 1, .ofText "\n"]) "\t" 0).outcome ≠
      .ok (rewrapped (Text.margin "\t" 0) [.ofText "", .int 1, .ofText "\n"]) := by
  refine ⟨rfl, ?_, ?_⟩
  · simp [Value.ofText]
  · intro h
    cases h

end Hypertext.Layout
