import Hypertext.Proofs.Layout.Again
import Hypertext.Proofs.Layout.Alike

/-!
# The lines of a layout

A layout by `prettify` is made of separate texts for margins and line ends, at two levels of the
tree, and becomes lines only when it is written. `linesOfForest` says which lines, from the tree
alone: a block has one for each of its tags, with the lines of its children between them one level
further in, and every other node has one line.

* `ruled_wellTyped`: the line of a value is written to its lines. The induction is on the well-typed
  tree; only at the top can there be a text, since no block holds one.
* `ruledAll_of_ruled`: so it goes for values one after another.
* **`layout_textLines`**: the layout of a forest is written to the lines of the forest.
-/

namespace Hypertext.Layout

open Markup Content
open Text (White)

/-! ## The rule -/

/-- The tags of an element stand on lines of their own: it is not void, and it has children, of
which none is a text. -/
def Spread (name : String) (children : List Value) : Prop :=
  isVoid name = false ∧ children ≠ [] ∧ ∀ v ∈ children, isText v = false

instance (name : String) (children : List Value) : Decidable (Spread name children) :=
  inferInstanceAs (Decidable (_ ∧ _ ∧ _))

/-- One line with a value on it, behind the margin. Texts and comments are moved in. -/
def ownLine (indent : String) (depth : Int) (v : Value) : Except Fault (List String) := do
  return [Text.margin indent depth ++ (← (moved (Text.margin indent depth) v).write none)]

mutual

/-- The lines of a value at a depth. -/
def linesOfValue (indent : String) (depth : Int) : Value → Except Fault (List String)
  | .node n => linesOfNode indent depth n
  | v => ownLine indent depth v

/-- The lines of a node at a depth. -/
def linesOfNode (indent : String) (depth : Int) : Node → Except Fault (List String)
  | .element (.str name) a children =>
    if Spread name children then do
      let inner ← linesOfForest indent (depth + 1) children
      return (Text.margin indent depth ++ openingTag name ((textAttributes? a).getD [])) ::
        inner ++ [Text.margin indent depth ++ closingTag name]
    else ownLine indent depth (.node (.element (.str name) a children))
  | n => ownLine indent depth (.node n)

/-- The lines of values at a depth, one after another. -/
def linesOfForest (indent : String) (depth : Int) : List Value → Except Fault (List String)
  | [] => .ok []
  | v :: rest => do
    let first ← linesOfValue indent depth v
    let others ← linesOfForest indent depth rest
    return first ++ others

end

/-- The text with these lines. -/
def textOf (ls : List String) : String := String.join (ls.map (· ++ "\n"))

/-- The value is a node with no fragment in it. -/
inductive FragmentFree : Value → Prop
  | text (data : Value) : FragmentFree (.node (.text data))
  | comment (data : Value) : FragmentFree (.node (.comment data))
  | raw (data : Value) : FragmentFree (.node (.raw data))
  | doctype (name : Value) : FragmentFree (.node (.doctype name))
  | element (name : Value) (a : Record) {children : List Value}
      (hc : ∀ v ∈ children, FragmentFree v) : FragmentFree (.node (.element name a children))

/-- The ways to give a forest to be laid out. -/
inductive Gives : Value → List Value → Prop
  | list (forest : List Value) : Gives (.list forest) forest
  | tuple (forest : List Value) : Gives (.tuple forest) forest
  | stream (id : Nat) (forest : List Value) : Gives (.stream id (forest.map .item)) forest
  | fragment (forest : List Value) : Gives (.node (.fragment forest)) forest
  | single (v : Value) : Gives v [v]

theorem textOf_cons (l : String) (ls : List String) :
    textOf (l :: ls) = l ++ "\n" ++ textOf ls := by
  simp [textOf, String.join_cons]

theorem textOf_append (ls others : List String) :
    textOf (ls ++ others) = textOf ls ++ textOf others := by
  simp [textOf, String.join_append]

theorem FragmentFree.isSolid {v : Value} (h : FragmentFree v) : isSolid v = true := by
  cases h <;> rfl

theorem spread_iff {name : String} {children : List Value} (hv : isVoid name = false) :
    Spread name children ↔ isInline children = false := by
  simp [Spread, isInline, hv]

/-! ## Lines that are written by the rule -/

variable {indent : String} {level : Int} {parent : Option String}

/-- The line of `v` has `w` on it, and is written to `ls`, the lines of `v`. -/
structure Ruled (indent : String) (level : Int) (parent : Option String) (v w : Value)
    (ls : List String) : Prop where
  outcome : (nodeLine indent level v).outcome = .ok (line indent level w)
  rule : linesOfValue indent level v = .ok ls
  written : writeAll parent (line indent level w) = .ok (textOf ls)

/-- The lines of `vs` are `rows`, and are written to `ls`, the lines of `vs`. -/
structure RuledAll (indent : String) (level : Int) (parent : Option String) (vs rows : List Value)
    (ls : List String) : Prop where
  outcome : (lines indent level vs).outcome = .ok rows
  rule : linesOfForest indent level vs = .ok ls
  written : writeAll parent rows = .ok (textOf ls)

theorem ruledAll_of_ruled {vs : List Value}
    (h : ∀ v ∈ vs, ∃ w ls, Ruled indent level parent v w ls) :
    ∃ rows ls, RuledAll indent level parent vs rows ls := by
  induction vs with
  | nil => exact ⟨[], [], rfl, rfl, rfl⟩
  | cons v vs ih =>
    rw [List.forall_mem_cons] at h
    obtain ⟨w, first, hw⟩ := h.1
    obtain ⟨rows, others, hr⟩ := ih h.2
    refine ⟨line indent level w ++ rows, first ++ others,
      outcome_lines_cons hw.outcome hr.outcome, ?_, ?_⟩
    · rw [linesOfForest, hw.rule, hr.rule]
      rfl
    · rw [writeAll_append, hw.written, hr.written, ok_append_ok, textOf_append]

theorem write_line (hi : White indent.toList) {w : Value} {x : String}
    (h : w.write parent = .ok x) : writeAll parent (line indent level w) =
      .ok (Text.margin indent level ++ x ++ "\n") := by
  rw [writeAll_line, write_marginNode hi, write_lineEnd, h]
  rfl

/-- A value that stays on one line. -/
theorem ruled_own (hi : White indent.toList) {v w : Value} {x : String}
    (ho : (nodeLine indent level v).outcome = .ok (line indent level w))
    (hl : linesOfValue indent level v = ownLine indent level v)
    (hm : (moved (Text.margin indent level) v).write none = .ok x) (hw : w.write parent = .ok x) :
    Ruled indent level parent v w [Text.margin indent level ++ x] := by
  refine ⟨ho, ?_, ?_⟩
  · rw [hl, ownLine, hm]
    rfl
  · rw [write_line hi hw, textOf_cons]
    exact congrArg Except.ok String.append_empty.symm

theorem ruled_text (hi : White indent.toList) (data : String) :
    ∃ w ls, Ruled indent level none (.node (.text (.str data))) w ls := by
  refine ⟨.ofText (Text.reindent data indent level), _,
    ruled_own hi (outcome_lineOf rfl) rfl ?_ rfl⟩
  rw [moved, ofList_behindBreaks]
  rfl

theorem ruled_comment (hi : White indent.toList) {data s : String}
    (hs : writeComment data = .ok s) :
    ∃ w ls, Ruled indent level parent (.node (.comment (.str data))) w ls := by
  have alike : Alike (writeComment (Text.reindent data indent level)) (writeComment data) :=
    alike_reindent_comment hi data
  rw [hs] at alike
  obtain ⟨x, hx⟩ : ∃ x, writeComment (Text.reindent data indent level) = .ok x := by
    cases h : writeComment (Text.reindent data indent level) with
    | ok x => exact ⟨x, rfl⟩
    | error f =>
      rw [h] at alike
      cases alike
  refine ⟨.node (.comment (.str (Text.reindent data indent level))), _,
    ruled_own hi (outcome_lineOf rfl) rfl ?_ hx⟩
  rw [moved, ofList_behindBreaks]
  exact hx

/-- An element that is inline or void stays on one line. -/
theorem ruled_element (hi : White indent.toList) {name : String} {a : Record}
    {children : List Value} {s : String} (ha : a.Texts) (hc : ∀ v ∈ children, v.WellTyped)
    (hs : (Node.element (.str name) a children).write parent = .ok s)
    (hn : ¬ Spread name children) :
    ∃ w ls, Ruled indent level parent (.node (.element (.str name) a children)) w ls := by
  have rule : linesOfValue indent level (.node (.element (.str name) a children)) =
      ownLine indent level (.node (.element (.str name) a children)) := by
    rw [linesOfValue, linesOfNode, if_neg hn]
  obtain ⟨texts, ht⟩ := ha.exists_textAttributes
  have own : (moved (Text.margin indent level)
      (.node (.element (.str name) a children))).write none = .ok s := by
    rw [← hs, moved_of_isElement rfl, Value.write, write_element_eq ht, write_element_eq ht]
  by_cases hb : isInline children = true
  · refine ⟨.node (.element (.str name) a children), _,
      ruled_own hi (outcome_lineOf ?_) rule own hs⟩
    rw [shape, if_pos hb]
    rfl
  · -- The children of a void element are laid out, but not written.
    rw [Bool.not_eq_true] at hb
    have hv : isVoid name = true := by
      by_contra hv
      exact hn ((spread_iff (by simpa using hv)).mpr hb)
    have leaves : ∀ u ∈ children.flatMap leafNodes, u.WellTyped :=
      List.forall_mem_flatMap.mpr fun v hv => wellTyped_leafNodes (hc v hv)
    obtain ⟨rows, hr⟩ := exists_lines leaves indent (level + 1)
    refine ⟨.node (.element (.str name) a (blockBody indent level rows)), _,
      ruled_own hi (outcome_lineOf (outcome_shape_block _ a hb hc hr.outcome)) rule own ?_⟩
    rw [← hs, Value.write, write_element_eq ht, write_element_eq ht, if_pos hv, if_pos hv]

/-- A block has its tags on lines of their own. -/
theorem ruled_block (hi : White indent.toList) {name : String} {a : Record}
    {children rows : List Value} {ls : List String} (ha : a.Texts)
    (hc : ∀ v ∈ children, v.WellTyped) (hf : ∀ v ∈ children, FragmentFree v)
    (hb : Spread name children)
    (hr : RuledAll indent (level + 1) (some name) children rows ls) :
    ∃ w ls, Ruled indent level parent (.node (.element (.str name) a children)) w ls := by
  obtain ⟨texts, ht⟩ := ha.exists_textAttributes
  have laid := hr.outcome
  rw [← flatMap_leafNodes_of_isSolid fun v hv => (hf v hv).isSolid] at laid
  refine ⟨.node (.element (.str name) a (blockBody indent level rows)),
    (Text.margin indent level ++ openingTag name texts) :: ls ++
      [Text.margin indent level ++ closingTag name],
    outcome_lineOf (outcome_shape_block _ a ((spread_iff hb.1).mp hb) hc laid), ?_, ?_⟩
  · rw [linesOfValue, linesOfNode, if_pos hb, hr.rule, ht]
    rfl
  · have body : (Value.node (.element (.str name) a (blockBody indent level rows))).write parent =
        .ok (openingTag name texts ++ ("\n" ++ textOf ls ++ Text.margin indent level) ++
          closingTag name) := by
      rw [Value.write, write_element_eq ht, if_neg (by simp [hb.1]), writeAll_blockBody,
        write_lineEnd, hr.written, write_marginNode hi]
      rfl
    rw [write_line hi body, textOf_append, textOf_cons, textOf_cons]
    simp only [String.append_assoc, textOf, List.map_nil, String.join_nil, String.append_empty]

/-- **The line of a value is written to its lines.** -/
theorem ruled_wellTyped (hi : White indent.toList) {v : Value} (h : v.WellTyped)
    (hf : FragmentFree v) {s : String} (hp : isText v = true → parent = none)
    (hs : v.write parent = .ok s) : ∃ w ls, Ruled indent level parent v w ls := by
  induction h generalizing level parent s with
  | text data =>
    obtain rfl := hp rfl
    exact ruled_text hi data
  | comment data => exact ruled_comment hi hs
  | raw data => exact ⟨_, _, ruled_own hi (outcome_lineOf rfl) rfl rfl rfl⟩
  | doctype name => exact ⟨_, _, ruled_own hi (outcome_lineOf rfl) rfl rfl rfl⟩
  | fragment => cases hf
  | @element name a children ha hc ih =>
    by_cases hb : Spread name children
    · cases hf with
      | element _ _ hf =>
        obtain ⟨texts, ht⟩ := ha.exists_textAttributes
        rw [Value.write, write_element_eq ht, if_neg (by simp [hb.1])] at hs
        obtain ⟨_, _, hs, -, -⟩ := exists_of_append_ok hs
        obtain ⟨_, _, -, hs, -⟩ := exists_of_append_ok hs
        have inner : ∀ u ∈ children, ∃ w ls, Ruled indent (level + 1) (some name) u w ls := by
          intro u hu
          obtain ⟨t, hw⟩ := write_of_writeAll hs hu
          have noText : isText u = true → some name = none := by simp [hb.2.2 u hu]
          exact ih u hu (hf u hu) noText hw
        obtain ⟨rows, ls, hr⟩ := ruledAll_of_ruled inner
        exact ruled_block hi ha hc hf hb hr
    · exact ruled_element hi ha hc hs hb

/-! ## Layouts of forests -/

theorem layout_of_gives {input : Value} {forest : List Value} (hg : Gives input forest)
    (hf : ∀ v ∈ forest, FragmentFree v) (indent : String) (level : Int) :
    layout input indent level = ofNodes indent level forest := by
  have solid : ∀ v ∈ forest, isSolid v = true := fun v hv => (hf v hv).isSolid
  cases hg with
  | list => exact layout_items solid indent level
  | tuple => exact layout_items solid indent level
  | stream id => exact layout_items solid indent level
  | fragment => rfl
  | single =>
    cases hf input (List.mem_singleton_self input) <;> rfl

/-- **A layout is written to the lines of the forest.** If a forest of well-typed nodes without
fragments can be written, then it has a layout for every level and every indent made of spaces and
tabs, the layout can be written too, and the text that it is written to has the lines that the rule
gives, each with a line end behind it: one for each tag of a block, around those of its children one
level further in, and one for every other node. -/
theorem layout_textLines {forest : List Value} (h : ∀ v ∈ forest, v.WellTyped)
    (hf : ∀ v ∈ forest, FragmentFree v) {s : String} (hs : (Node.fragment forest).markup = .ok s)
    {input : Value} (hg : Gives input forest) {indent : String}
    (hi : ∀ c ∈ indent.toList, c = ' ' ∨ c = '\t') (level : Int) :
    ∃ rows ls, (layout input indent level).outcome = .ok rows ∧
      linesOfForest indent level forest = .ok ls ∧
      (writeFragment [.tuple rows]).outcome = .ok (String.join (ls.map (· ++ "\n"))) := by
  have white := Text.white_of_blanks hi
  have ruled : ∀ v ∈ forest, ∃ w ls, Ruled indent level none v w ls := by
    intro v hv
    obtain ⟨t, hw⟩ := write_of_writeAll hs hv
    exact ruled_wellTyped white (h v hv) (hf v hv) (fun _ => rfl) hw
  obtain ⟨rows, ls, hr⟩ := ruledAll_of_ruled ruled
  obtain ⟨laid, hl⟩ := exists_lines h indent level
  obtain rfl : rows = laid := Except.ok.inj (hr.outcome.symm.trans hl.outcome)
  refine ⟨rows, ls, ?_, hr.rule, ?_⟩
  · rw [layout_of_gives hg hf, outcome_ofNodes, hr.outcome]
  · rw [outcome_writeFragment_tuple hl.wellTyped, hr.written, textOf]

/-- Blocks in a block, a void element among them, and a text and a comment of several lines. -/
def linesSample : List Value :=
  [.node (.element (.str "ul") [(.str "id", .str "<")]
    [.node (.element (.str "li") [] [.node (.comment (.str "a\n\nb"))]),
     .node (.element (.str "br") [] [.node (.raw (.str "c"))]),
     .node (.element (.str "li") [] [.ofText "x\ny"])]),
   .ofText "<\nd"]

theorem layout_textLines_sample :
    (∀ v ∈ linesSample, v.WellTyped) ∧ (∀ v ∈ linesSample, FragmentFree v) ∧
    (Node.fragment linesSample).markup =
      .ok "<ul id=\"<\"><li><!--a\n\nb--></li><br><li>x\ny</li></ul>&lt;\nd" ∧
    Gives (.list linesSample) linesSample ∧ (∀ c ∈ "\t".toList, c = ' ' ∨ c = '\t') ∧
    (∃ rows ls, (layout (.list linesSample) "\t" 1).outcome = .ok rows ∧
      linesOfForest "\t" 1 linesSample = .ok ls ∧
      (writeFragment [.tuple rows]).outcome = .ok (String.join (ls.map (· ++ "\n")))) ∧
    linesOfForest "\t" 1 linesSample = .ok
      ["\t<ul id=\"<\">", "\t\t<li>", "\t\t\t<!--a\n\n\t\t\tb-->", "\t\t</li>", "\t\t<br>",
        "\t\t<li>x\ny</li>", "\t</ul>", "\t&lt;\n\td"] := by
  have typed : ∀ v ∈ linesSample, v.WellTyped := by decide +kernel
  have free : ∀ v ∈ linesSample, FragmentFree v := by
    unfold linesSample
    simp only [List.forall_mem_cons]
    refine ⟨.element _ _ ?_, .text _, List.forall_mem_nil _⟩
    simp only [List.forall_mem_cons]
    exact ⟨.element _ _ (List.forall_mem_singleton.mpr (.comment _)),
      .element _ _ (List.forall_mem_singleton.mpr (.raw _)),
      .element _ _ (List.forall_mem_singleton.mpr (.text _)), List.forall_mem_nil _⟩
  have written : (Node.fragment linesSample).markup =
      .ok "<ul id=\"<\"><li><!--a\n\nb--></li><br><li>x\ny</li></ul>&lt;\nd" := by rfl
  have blank : ∀ c ∈ "\t".toList, c = ' ' ∨ c = '\t' := by simp
  exact ⟨typed, free, written, .list _, blank,
    layout_textLines typed free written (.list _) blank 1, by rfl⟩

end Hypertext.Layout
