import Hypertext.Layout.Lemmas
import Hypertext.Markup.Content
import Hypertext.Proofs.Content.Nodes
import Hypertext.Proofs.Text.White

/-!
# A layout says what the tree says

Laying a tree out with `prettify` adds line ends and margins, moves the lines of texts and comments
in, and dissolves fragments. None of it is seen but as white space: the layout and the tree are
written to texts that differ in white space only, or fail with one fault.

* `Alike`: outcomes of writing that differ in white space only.
* `alike_reindent_text`, `alike_reindent_comment`: a text or comment moved in passes the checks that
  it passed before, and fails those that it failed.
* `laid_wellTyped`: every well-typed value has a line, which is written like the value. The
  induction is on the well-typed tree; it speaks of the nodes that a fragment dissolves into as
  well, since a block dissolves the fragments among its children.
* **`layout_alike`**: a well-typed tree has a layout, and the two are written alike.
-/

namespace Hypertext.Layout

open Markup Content
open Text (White Inked squeeze)

/-! ## Outcomes that differ in white space only -/

/-- Two texts that are equal without their white space, or one fault. -/
inductive Alike : Except Fault String → Except Fault String → Prop
  | ok {s t : String} (h : squeeze s = squeeze t) : Alike (.ok s) (.ok t)
  | error (f : Fault) : Alike (.error f) (.error f)

theorem Alike.refl (x : Except Fault String) : Alike x x := by
  cases x with
  | ok s => exact .ok rfl
  | error f => exact .error f

theorem Alike.append {x x' y y' : Except Fault String} (hx : Alike x x') (hy : Alike y y') :
    Alike (x ++ y) (x' ++ y') := by
  cases hx with
  | error f => exact .error f
  | @ok s s' hs =>
    cases hy with
    | error f => exact .error f
    | @ok t t' ht =>
      refine .ok ?_
      rw [Text.squeeze_append, Text.squeeze_append, hs, ht]

theorem Alike.white_append {s : String} {x y : Except Fault String} (hs : White s.toList)
    (h : Alike x y) : Alike (.ok s ++ x) y := by
  have white : Alike (.ok s) (.ok "") := .ok (Text.squeeze_of_white hs)
  have := white.append h
  rwa [ok_empty_append] at this

theorem Alike.append_white {s : String} {x y : Except Fault String} (hs : White s.toList)
    (h : Alike x y) : Alike (x ++ .ok s) y := by
  have white : Alike (.ok s) (.ok "") := .ok (Text.squeeze_of_white hs)
  have := h.append white
  rwa [append_ok_empty] at this

/-! ## Texts and comments that are moved in -/

variable {indent : String} {level : Int} {parent : Option String}

theorem inked_of_isTextPreserving {name : String} (h : isTextPreserving name = true) :
    Inked name.toList := by
  have names : ∀ n ∈ textPreservingElements, Inked n.toList := by decide
  exact names name (List.contains_iff_mem.mp h)

theorem inked_append {s t : String} (hs : Inked s.toList) (ht : Inked t.toList) :
    Inked (s ++ t).toList := by
  rw [String.toList_append]
  exact fun c hc => (List.mem_append.mp hc).elim (hs c) (ht c)

theorem violation?_reindent (hi : White indent.toList) {name : String}
    (hk : isTextPreserving name = true) (data : String) :
    violation? name (Text.reindent data indent level) = violation? name data := by
  have opener : Inked "<!--".toList := by decide
  have opening : Inked ("<" ++ name).toList :=
    inked_append (by decide) (inked_of_isTextPreserving hk)
  have closing : Inked ("</" ++ name).toList :=
    inked_append (by decide) (inked_of_isTextPreserving hk)
  unfold violation?
  rw [Text.contains_reindent hi (by simp) opener, Text.contains_reindent hi (by simp) opening,
    Text.contains_reindent hi (by simp) closing]

/-- **A text that is moved in is written like the text**, or refused for the same violation. -/
theorem alike_reindent_text (hi : White indent.toList) (data : String) :
    Alike (writeText parent (Text.reindent data indent level)) (writeText parent data) := by
  have moved := Text.squeeze_reindent hi data level
  cases parent with
  | none => exact .ok (Text.squeeze_escapeText moved)
  | some name =>
    unfold writeText
    by_cases hk : isTextPreserving name = true
    · simp only [hk, if_true, violation?_reindent hi hk]
      cases violation? name data with
      | none => exact .ok moved
      | some kind => exact .error _
    · simp only [hk]
      exact .ok (Text.squeeze_escapeText moved)

/-- **A comment that is moved in is written like the comment**, or refused as it is. -/
theorem alike_reindent_comment (hi : White indent.toList) (data : String) :
    Alike (writeComment (Text.reindent data indent level)) (writeComment data) := by
  have stop : Inked "-->".toList := by decide
  unfold writeComment
  rw [Text.contains_reindent hi (by simp) stop]
  split
  · exact .error _
  · refine .ok ?_
    simp only [Text.squeeze_append, Text.squeeze_reindent hi]

/-- White space is written as it is, also where text is kept. -/
theorem writeText_white {s : String} (h : White s.toList) : writeText parent s = .ok s := by
  have absent {part : String} (hp : '<' ∈ part.toList) : Text.contains s part = false := by
    rw [Bool.eq_false_iff, ne_eq, Text.contains_iff]
    intro hm
    have := h '<' (hm.subset hp)
    cases this
  cases parent with
  | none => exact congrArg Except.ok (Text.escapeText_of_white h)
  | some name =>
    have harmless : violation? name s = none := by
      unfold violation?
      rw [absent (by simp), absent (by simp), absent (by simp)]
      rfl
    unfold writeText
    by_cases hk : isTextPreserving name = true
    · simp only [hk, if_true, harmless]
    · simp only [hk, Text.escapeText_of_white h]
      rfl

theorem write_marginNode (hi : White indent.toList) :
    (marginNode indent level).write parent = .ok (Text.margin indent level) :=
  writeText_white (Text.white_margin hi level)

theorem write_lineEnd : lineEnd.write parent = .ok "\n" :=
  writeText_white Text.white_newline

theorem writeAll_line (w : Value) : writeAll parent (line indent level w) =
    (marginNode indent level).write parent ++ w.write parent ++ lineEnd.write parent := by
  rw [line, writeAll_cons, writeAll_cons, writeAll_singleton, append_assoc]

/-- A line is written like what stands on it. -/
theorem alike_line (hi : White indent.toList) {w : Value} {x : Except Fault String}
    (h : Alike (w.write parent) x) : Alike (writeAll parent (line indent level w)) x := by
  rw [writeAll_line, write_marginNode hi, write_lineEnd]
  exact (h.white_append (Text.white_margin hi level)).append_white Text.white_newline

/-! ## Lines of well-typed values -/

/-- The line of `v` has `w` on it, which is well typed, and written like `v` if the indent is white
space. -/
structure Laid (indent : String) (level : Int) (v w : Value) : Prop where
  outcome : (nodeLine indent level v).outcome = .ok (line indent level w)
  wellTyped : w.WellTyped
  alike : White indent.toList → ∀ parent, Alike (w.write parent) (v.write parent)

/-- The lines of `vs` are `rows`, which are well typed, and written like `vs` if the indent is white
space. -/
structure LaidAll (indent : String) (level : Int) (vs rows : List Value) : Prop where
  outcome : (lines indent level vs).outcome = .ok rows
  wellTyped : ∀ r ∈ rows, r.WellTyped
  alike : White indent.toList → ∀ parent, Alike (writeAll parent rows) (writeAll parent vs)

theorem wellTyped_line {w : Value} (h : w.WellTyped) : ∀ r ∈ line indent level w, r.WellTyped := by
  unfold line
  simp only [List.forall_mem_cons]
  exact ⟨.ofText _, h, .ofText _, List.forall_mem_nil _⟩

theorem laidAll_of_laid {vs : List Value} (h : ∀ v ∈ vs, ∃ w, Laid indent level v w) :
    ∃ rows, LaidAll indent level vs rows := by
  induction vs with
  | nil => exact ⟨[], rfl, List.forall_mem_nil _, fun _ _ => .refl _⟩
  | cons v vs ih =>
    rw [List.forall_mem_cons] at h
    obtain ⟨w, hw⟩ := h.1
    obtain ⟨rows, hr⟩ := ih h.2
    refine ⟨line indent level w ++ rows, outcome_lines_cons hw.outcome hr.outcome, ?_,
      fun hi parent => ?_⟩
    · rw [List.forall_mem_append]
      exact ⟨wellTyped_line hw.wellTyped, hr.wellTyped⟩
    · rw [writeAll_append, writeAll_cons]
      exact (alike_line hi (hw.alike hi parent)).append (hr.alike hi parent)

theorem outcome_lineOf {n m : Node} (h : (shape indent level n).outcome = .ok m) :
    (nodeLine indent level (.node n)).outcome = .ok (line indent level (.node m)) := by
  simp only [nodeLine, Traced.outcome_bind, h]
  rfl

/-- A node that stays as it is on its line. -/
theorem laid_kept {n : Node} (h : (shape indent level n).outcome = .ok n) (hn : n.WellTyped) :
    Laid indent level (.node n) (.node n) :=
  ⟨outcome_lineOf h, hn, fun _ _ => .refl _⟩

/-- The children of a block on lines of their own, between a line end and a margin. -/
def blockBody (indent : String) (level : Int) (rows : List Value) : List Value :=
  lineEnd :: rows ++ [marginNode indent level]

theorem writeAll_blockBody (rows : List Value) : writeAll parent (blockBody indent level rows) =
    lineEnd.write parent ++ writeAll parent rows ++ (marginNode indent level).write parent := by
  rw [blockBody, List.cons_append, writeAll_cons, writeAll_append, writeAll_singleton, append_assoc]

theorem outcome_shape_block (name : Value) (a : Record) {children rows : List Value}
    (hb : isInline children = false) (hc : ∀ v ∈ children, v.WellTyped)
    (hr : (lines indent (level + 1) (children.flatMap leafNodes)).outcome = .ok rows) :
    (shape indent level (.element name a children)).outcome =
      .ok (.element name a (blockBody indent level rows)) := by
  have inner := nodes_wellTyped hc
  have body : (contentLines indent (level + 1) children).outcome = .ok rows := by
    rw [contentLines_eq inner, hr]
  rw [shape, if_neg (by simp [hb])]
  simp only [Traced.outcome_bind, inner, body]
  rfl

theorem alike_blockBody (hi : White indent.toList) {vs rows : List Value}
    (h : Alike (writeAll parent rows) (writeAll parent vs)) :
    Alike (writeAll parent (blockBody indent level rows)) (writeAll parent vs) := by
  rw [writeAll_blockBody, write_lineEnd, write_marginNode hi]
  exact (h.white_append Text.white_newline).append_white (Text.white_margin hi level)

/-- An element is written like another one with the same tags, if their contents are. -/
theorem alike_element {name : String} {a : Record} (ha : a.Texts) {vs ws : List Value}
    (h : Alike (writeAll (some name) vs) (writeAll (some name) ws)) :
    Alike ((Value.node (.element (.str name) a vs)).write parent)
      ((Value.node (.element (.str name) a ws)).write parent) := by
  obtain ⟨texts, ht⟩ := ha.exists_textAttributes
  rw [Value.write, Value.write, write_element_eq ht, write_element_eq ht]
  by_cases hv : isVoid name = true
  · rw [if_pos hv, if_pos hv]
    exact .refl _
  · rw [if_neg hv, if_neg hv]
    exact ((Alike.refl _).append h).append (.refl _)

/-- A block on its line. -/
theorem laid_block {name : String} {a : Record} {children : List Value} (ha : a.Texts)
    (hc : ∀ v ∈ children, v.WellTyped) (hb : isInline children = false)
    (h : ∀ v ∈ children.flatMap leafNodes, ∃ w, Laid indent (level + 1) v w) :
    ∃ w, Laid indent level (.node (.element (.str name) a children)) w := by
  obtain ⟨rows, hr⟩ := laidAll_of_laid h
  refine ⟨.node (.element (.str name) a (blockBody indent level rows)),
    outcome_lineOf (outcome_shape_block _ a hb hc hr.outcome), .element name ha ?_,
    fun hi parent => ?_⟩
  · unfold blockBody
    simp only [List.cons_append, List.forall_mem_cons, List.forall_mem_append]
    exact ⟨.ofText _, hr.wellTyped, .ofText _, List.forall_mem_nil _⟩
  · have rows := hr.alike hi (some name)
    rw [writeAll_flatMap_leafNodes hc] at rows
    exact alike_element ha (alike_blockBody hi rows)

/-- **Every well-typed value has a line.** So do the nodes that it comes to as content. -/
theorem laid_wellTyped {v : Value} (h : v.WellTyped) (indent : String) (level : Int) :
    (∃ w, Laid indent level v w) ∧ ∀ u ∈ leafNodes v, ∃ w, Laid indent level u w := by
  induction h generalizing level with
  | text data =>
    have laid : Laid indent level (.node (.text (.str data)))
        (.ofText (Text.reindent data indent level)) :=
      ⟨outcome_lineOf rfl, .text _, fun hi _ => alike_reindent_text hi data⟩
    exact ⟨⟨_, laid⟩, List.forall_mem_singleton.mpr ⟨_, laid⟩⟩
  | comment data =>
    have laid : Laid indent level (.node (.comment (.str data)))
        (.node (.comment (.str (Text.reindent data indent level)))) :=
      ⟨outcome_lineOf rfl, .comment _, fun hi _ => alike_reindent_comment hi data⟩
    exact ⟨⟨_, laid⟩, List.forall_mem_singleton.mpr ⟨_, laid⟩⟩
  | raw data =>
    have laid : Laid indent level _ _ := laid_kept rfl (.raw data)
    exact ⟨⟨_, laid⟩, List.forall_mem_singleton.mpr ⟨_, laid⟩⟩
  | doctype name =>
    have laid : Laid indent level _ _ := laid_kept rfl (.doctype name)
    exact ⟨⟨_, laid⟩, List.forall_mem_singleton.mpr ⟨_, laid⟩⟩
  | @element name a children ha hc ih =>
    have laid : ∃ w, Laid indent level (.node (.element (.str name) a children)) w := by
      by_cases hb : isInline children = true
      · refine ⟨_, laid_kept ?_ (.element name ha hc)⟩
        rw [shape, if_pos hb]
        rfl
      · refine laid_block ha hc (by simpa using hb) fun u hu => ?_
        obtain ⟨v, hv, hm⟩ := List.mem_flatMap.mp hu
        exact (ih v hv (level + 1)).2 u hm
    exact ⟨laid, List.forall_mem_singleton.mpr laid⟩
  | fragment hc ih =>
    exact ⟨⟨_, laid_kept rfl (.fragment hc)⟩, fun u hu => (ih u hu level).1⟩

/-! ## Layouts of well-typed trees -/

theorem outcome_writeFragment_tuple {rows : List Value} (h : ∀ r ∈ rows, r.WellTyped) :
    (writeFragment [.tuple rows]).outcome = writeAll none rows := by
  rw [outcome_writeFragment, nodes_tuple h]
  exact writeAll_flatMap_leafNodes h

theorem layout_node (n : Node) (indent : String) (level : Int) :
    layout (.node n) indent level = ofNodes indent level (leafNodes (.node n)) := by
  cases n <;> rfl

/-- Well-typed nodes have lines. -/
theorem exists_lines {vs : List Value} (h : ∀ v ∈ vs, v.WellTyped) (indent : String)
    (level : Int) : ∃ rows, LaidAll indent level vs rows :=
  laidAll_of_laid fun v hv => (laid_wellTyped (h v hv) indent level).1

/-- A well-typed node has a layout. -/
theorem exists_layout {n : Node} (h : n.WellTyped) (indent : String) (level : Int) :
    ∃ rows, (layout (.node n) indent level).outcome = .ok rows ∧
      LaidAll indent level (leafNodes (.node n)) rows := by
  obtain ⟨rows, hr⟩ := exists_lines (wellTyped_leafNodes h) indent level
  refine ⟨rows, ?_, hr⟩
  rw [layout_node, ofNodes, Traced.outcome_bind]
  exact hr.outcome

/-- **A layout says what the tree says.** A well-typed tree always has a layout, whatever the indent
and the level. If the indent is made of spaces and tabs, the layout as a fragment and the tree are
written to texts that differ in white space only, or they fail with the same fault. -/
theorem layout_alike {n : Node} (h : n.WellTyped) {indent : String}
    (hi : ∀ c ∈ indent.toList, c = ' ' ∨ c = '\t') (level : Int) :
    ∃ rows, (layout (.node n) indent level).outcome = .ok rows ∧
      Alike (writeFragment [.tuple rows]).outcome n.markup := by
  have white := Text.white_of_blanks hi
  obtain ⟨rows, ho, hr⟩ := exists_layout h indent level
  refine ⟨rows, ho, ?_⟩
  have alike := hr.alike white none
  rw [writeAll_leafNodes h] at alike
  rw [outcome_writeFragment_tuple hr.wellTyped]
  exact alike

/-- A block in a block: text that is kept, a comment of two lines in a fragment, and a void element
with a block in it. -/
def blockSample (code : String) : Node :=
  .element (.str "div") []
    [.node (.element (.str "script") [] [.node (.fragment [.ofText code])]),
     .node (.fragment [.node (.comment (.str "x\ny"))]),
     .node (.element (.str "br") [] [.node (.element (.str "b") [] [.node (.raw (.str "-->"))])])]

/-- What a tree's layout is written to, if it can be. -/
def layoutMarkup (n : Node) (indent : String) (level : Int) : Option String :=
  (layout (.node n) indent level).outcome.toOption.bind fun rows =>
    (writeFragment [.tuple rows]).outcome.toOption

theorem layout_alike_block : (blockSample "a\n\n<b").WellTyped ∧
    (blockSample "a\n<script").WellTyped ∧ (∀ c ∈ "\t ".toList, c = ' ' ∨ c = '\t') ∧
    (∃ rows, (layout (.node (blockSample "a\n\n<b")) "\t " 0).outcome = .ok rows ∧
      Alike (writeFragment [.tuple rows]).outcome (blockSample "a\n\n<b").markup) ∧
    (∃ rows, (layout (.node (blockSample "a\n<script")) "\t " 0).outcome = .ok rows ∧
      Alike (writeFragment [.tuple rows]).outcome (blockSample "a\n<script").markup) ∧
    layoutMarkup (blockSample "a\n\n<b") "\t " 0 = some ("<div>\n\t <script>\n" ++
      "\t \t a\n\n\t \t <b\n\t </script>\n\t <!--x\n\t y-->\n\t <br>\n</div>\n") ∧
    (blockSample "a\n\n<b").markup.toOption =
      some "<div><script>a\n\n<b</script><!--x\ny--><br></div>" ∧
    layoutMarkup (blockSample "a\n<script") "\t " 0 = none ∧
    (blockSample "a\n<script").markup = .error (.preservedText .openingTag "script") := by
  have typed : (blockSample "a\n\n<b").WellTyped := by decide +kernel
  have typed' : (blockSample "a\n<script").WellTyped := by decide +kernel
  have indent : ∀ c ∈ "\t ".toList, c = ' ' ∨ c = '\t' := by simp
  exact ⟨typed, typed', indent, layout_alike typed indent 0, layout_alike typed' indent 0,
    by decide +kernel, by decide +kernel, by decide +kernel, rfl⟩

end Hypertext.Layout
