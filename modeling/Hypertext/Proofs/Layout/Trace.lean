import Hypertext.Proofs.Layout.TextLines
import Hypertext.Proofs.Log.Handlers

/-!
# The trace of a layout

A layout by `prettify` leaves an event for its call and one for every block whose children it lays
out. A block in an inline element is not laid out, so what counts are the blocks that are reached
through blocks only. `blocksFrom` goes through them, and the trace follows it, whatever the indent
is.

A block is known by its path, which holds the place of a node among its siblings for every level.
Paths are ordered as words are: a block comes before the blocks in it and before its later siblings.

* `mem_blocksFrom_iff`, `ordered_blocksFrom`: what the walk goes through, and in which order.
* `events_nodeLine`: the trace of one line. The induction is on the well-typed tree.
* **`layout_trace`**: the trace of a layout.
-/

namespace Hypertext.Layout

open Content

/-! ## The blocks of a forest -/

/-- An element with these children is a block: it has children, and none of them is a text. -/
def Block (children : List Value) : Prop := children ≠ [] ∧ ∀ v ∈ children, isText v = false

/-- At the path, the forest has a block with the given children, and every element on the way is a
block. -/
inductive BlockAt : List Value → List Nat → List Value → Prop
  | here {forest children : List Value} {i : Nat} {name : Value} {a : Record}
      (h : forest[i]? = some (.node (.element name a children))) (hb : Block children) :
      BlockAt forest [i] children
  | inside {forest children inner : List Value} {i : Nat} {path : List Nat} {name : Value}
      {a : Record} (h : forest[i]? = some (.node (.element name a children)))
      (hb : Block children) (hi : BlockAt children path inner) : BlockAt forest (i :: path) inner

theorem block_iff {children : List Value} : Block children ↔ isInline children = false := by
  simp [Block, isInline]

mutual

/-- The blocks in a value, with their paths from it and their children. -/
def blocksOf : Value → List (List Nat × List Value)
  | .node n => blocksOfNode n
  | _ => []

/-- The blocks in a node, which may be one of them. -/
def blocksOfNode : Node → List (List Nat × List Value)
  | .element _ _ children =>
    if isInline children then [] else ([], children) :: blocksFrom 0 children
  | _ => []

/-- The blocks in siblings, the first of which has place `i`. -/
def blocksFrom (i : Nat) : List Value → List (List Nat × List Value)
  | [] => []
  | v :: rest => (blocksOf v).map (fun b => (i :: b.1, b.2)) ++ blocksFrom (i + 1) rest

end

theorem mem_blocksOf {v : Value} {path : List Nat} {inner : List Value} :
    (path, inner) ∈ blocksOf v ↔ ∃ name a children, v = .node (.element name a children) ∧
      Block children ∧
        ((path = [] ∧ inner = children) ∨ (path, inner) ∈ blocksFrom 0 children) := by
  constructor
  · intro h
    cases v with
    | node n =>
      cases n with
      | element name a children =>
        rw [blocksOf, blocksOfNode] at h
        split at h
        · cases h
        · rename_i hb
          refine ⟨name, a, children, rfl, block_iff.mpr (by simpa using hb), ?_⟩
          simpa using h
      | _ => cases h
    | _ => cases h
  · rintro ⟨name, a, children, rfl, hb, h⟩
    rw [blocksOf, blocksOfNode, if_neg (by simp [block_iff.mp hb])]
    simpa using h

theorem mem_blocksFrom {i : Nat} {vs : List Value} {path : List Nat} {inner : List Value} :
    (path, inner) ∈ blocksFrom i vs ↔ ∃ k v rest, vs[k]? = some v ∧ path = (i + k) :: rest ∧
      (rest, inner) ∈ blocksOf v := by
  induction vs generalizing i with
  | nil => simp [blocksFrom]
  | cons v vs ih =>
    have place (k : Nat) : i + 1 + k = i + (k + 1) := by omega
    rw [blocksFrom, List.mem_append, ih, List.mem_map]
    constructor
    · rintro (⟨⟨rest, _⟩, h, e⟩ | ⟨k, w, rest, hw, rfl, h⟩)
      · cases e
        exact ⟨0, v, rest, rfl, rfl, h⟩
      · exact ⟨k + 1, w, rest, hw, by rw [place], h⟩
    · rintro ⟨k, w, rest, hw, rfl, h⟩
      cases k with
      | zero =>
        cases hw
        exact .inl ⟨(rest, inner), h, rfl⟩
      | succ k => exact .inr ⟨k, w, rest, hw, by rw [place], h⟩

/-- **The walk goes through the blocks** that are reached through blocks only. -/
theorem mem_blocksFrom_iff {forest : List Value} {path : List Nat} {inner : List Value} :
    (path, inner) ∈ blocksFrom 0 forest ↔ BlockAt forest path inner := by
  constructor
  · -- Every block on the way takes one step off the path.
    intro h
    induction path generalizing forest with
    | nil =>
      obtain ⟨_, _, _, _, e, _⟩ := mem_blocksFrom.mp h
      cases e
    | cons i path ih =>
      obtain ⟨k, v, rest, hv, e, hm⟩ := mem_blocksFrom.mp h
      rw [Nat.zero_add] at e
      cases e
      obtain ⟨name, a, children, rfl, hb, ⟨rfl, rfl⟩ | hm⟩ := mem_blocksOf.mp hm
      · exact .here hv hb
      · exact .inside hv hb (ih hm)
  · intro h
    induction h with
    | here h hb =>
      exact mem_blocksFrom.mpr ⟨_, _, [], h, by rw [Nat.zero_add],
        mem_blocksOf.mpr ⟨_, _, _, rfl, hb, .inl ⟨rfl, rfl⟩⟩⟩
    | inside h hb _ ih =>
      exact mem_blocksFrom.mpr ⟨_, _, _, h, by rw [Nat.zero_add],
        mem_blocksOf.mpr ⟨_, _, _, rfl, hb, .inr ih⟩⟩

/-- The paths ascend. -/
def Ordered (blocks : List (List Nat × List Value)) : Prop := blocks.Pairwise fun b c => b.1 < c.1

mutual

theorem ordered_blocksOf : ∀ v : Value, Ordered (blocksOf v)
  | .node n => ordered_blocksOfNode n
  | .null | .bool _ | .int _ | .float _ | .nan _ | .str _ | .bytes _ | .byteArray _ | .list _
  | .tuple _ | .record _ | .range _ _ | .opaqueObject _ | .component _ | .stream _ _
  | .error _ _ => .nil

theorem ordered_blocksOfNode : ∀ n : Node, Ordered (blocksOfNode n)
  | .text _ | .comment _ | .raw _ | .doctype _ | .fragment _ => .nil
  | .element _ _ children => by
    rw [blocksOfNode]
    split
    · exact .nil
    · refine .cons ?_ (ordered_blocksFrom 0 children)
      rintro ⟨path, inner⟩ hm
      obtain ⟨_, _, _, _, rfl, _⟩ := mem_blocksFrom.mp hm
      exact List.nil_lt_cons _ _

/-- **The walk is in the order of the paths.** -/
theorem ordered_blocksFrom (i : Nat) : ∀ vs : List Value, Ordered (blocksFrom i vs)
  | [] => .nil
  | v :: rest => by
    refine List.pairwise_append.mpr ⟨List.pairwise_map.mpr ?_, ordered_blocksFrom (i + 1) rest, ?_⟩
    · exact (ordered_blocksOf v).imp fun h => List.cons_lt_cons_iff.mpr (.inr ⟨rfl, h⟩)
    · intro b hb c hc
      obtain ⟨b, -, rfl⟩ := List.mem_map.mp hb
      obtain ⟨k, _, _, _, hp, _⟩ := mem_blocksFrom.mp hc
      rw [hp]
      exact List.cons_lt_cons_iff.mpr (.inl (by omega))

end

/-! ## Events along the walk -/

/-- The event that a block leaves. -/
def mark (level : Int) (b : List Nat × List Value) : Event :=
  .layingOut b.2.length (level + b.1.length)

theorem mark_cons (level : Int) (i : Nat) (b : List Nat × List Value) :
    mark level (i :: b.1, b.2) = mark (level + 1) b := by
  have depth : level + ((i :: b.1).length : Nat) = level + 1 + b.1.length := by
    rw [List.length_cons]
    omega
  rw [mark, mark, depth]

variable {indent : String} {level : Int}

theorem events_lines {vs : List Value} (h : ∀ v ∈ vs, v.WellTyped)
    (he : ∀ v ∈ vs, (nodeLine indent level v).events = (blocksOf v).map (mark (level + 1)))
    (i : Nat) : (lines indent level vs).events = (blocksFrom i vs).map (mark level) := by
  induction vs generalizing i with
  | nil => rfl
  | cons v vs ih =>
    rw [List.forall_mem_cons] at h he
    -- The later siblings leave their events only because the first value has a line.
    obtain ⟨w, hw⟩ := (laid_wellTyped h.1 indent level).1
    rw [lines, Traced.events_bind, hw.outcome, he.1, blocksFrom, List.map_append, List.map_map]
    simp only [Traced.events_bind_pure]
    rw [ih h.2 he.2 (i + 1)]
    congr 2
    exact funext fun b => (mark_cons level i b).symm

theorem events_nodeLine_node (n : Node) :
    (nodeLine indent level (.node n)).events = (shape indent level n).events :=
  Traced.events_bind_pure _ _

theorem events_shape_block (name : Value) (a : Record) {children : List Value}
    (hb : Block children) (hs : ∀ v ∈ children, isSolid v = true) :
    (shape indent level (.element name a children)).events =
      .layingOut children.length (level + 1) :: (lines indent (level + 1) children).events := by
  have inner := nodes_of_isSolid hs
  rw [shape, if_neg (by simp [block_iff.mp hb]), contentLines_eq (congrArg _ inner), inner,
    pure_bind, Traced.events_bind]
  exact congrArg (_ :: ·) (Traced.events_bind_pure _ _)

/-- **The trace of a line** has an event for every block on it. -/
theorem events_nodeLine {v : Value} (h : v.WellTyped) (hf : FragmentFree v) :
    (nodeLine indent level v).events = (blocksOf v).map (mark (level + 1)) := by
  induction h generalizing level with
  | text | comment | raw | doctype => rfl
  | fragment => cases hf
  | @element name a children _ hc ih =>
    cases hf with
    | element _ _ hf =>
      rw [events_nodeLine_node]
      by_cases hb : Block children
      · have inner : (lines indent (level + 1) children).events =
            (blocksFrom 0 children).map (mark (level + 1)) :=
          events_lines hc (fun u hu => ih u hu (hf u hu)) 0
        have own : mark (level + 1) ([], children) = .layingOut children.length (level + 1) := by
          simp [mark]
        rw [events_shape_block _ _ hb fun v hv => (hf v hv).isSolid, inner, blocksOf, blocksOfNode,
          if_neg (by simp [block_iff.mp hb]), List.map_cons, own]
      · rw [block_iff, Bool.not_eq_false] at hb
        rw [shape, blocksOf, blocksOfNode, if_pos hb, if_pos hb]
        rfl

/-! ## The trace of a layout -/

/-- **The trace of a layout is a walk through its blocks.** A well-typed forest without fragments in
it has a layout, and this leaves an event for the call, with the number of nodes and the level; then
one for every block that is reached through blocks only, in the order of their paths, with the
number of its children and the level of these, one further in than the call for each step of the
path. The indent does not count. A logger for debugging writes a line for every event, as the
formatter of lines makes it. -/
theorem layout_trace {forest : List Value} (h : ∀ v ∈ forest, v.WellTyped)
    (hf : ∀ v ∈ forest, FragmentFree v) : ∃ walk : List (List Nat × List Value),
      (∀ path children, (path, children) ∈ walk ↔ BlockAt forest path children) ∧
      (walk.Pairwise fun b c => b.1 < c.1) ∧
      ∀ input, Gives input forest → ∀ indent level,
        (∃ rows, (layout input indent level).outcome = .ok rows) ∧
        (layout input indent level).events = .layingOut forest.length level ::
          walk.map (fun b => .layingOut b.2.length (level + b.1.length)) ∧
        ∀ (line : Log.Formatter) (s : Settings) (l : Log.Logger), s.logLevel = "DEBUG" →
          l.handlers.countP Log.Handler.isJson ≤ 1 →
          (l.configure s).2.lines line (layout input indent level).events =
            String.join ((layout input indent level).events.map fun e =>
              line s.logIndent (Log.eventFields e) ++ "\n") := by
  refine ⟨blocksFrom 0 forest, fun _ _ => mem_blocksFrom_iff, ordered_blocksFrom 0 forest,
    fun input hg indent level =>
      ⟨?_, ?_, fun line s l hs hl => Log.Logger.lines_configure_debug line hs hl _⟩⟩
  · obtain ⟨rows, hr⟩ := exists_lines h indent level
    exact ⟨rows, by rw [layout_of_gives hg hf, outcome_ofNodes, hr.outcome]⟩
  · have walk : (lines indent level forest).events = (blocksFrom 0 forest).map (mark level) :=
      events_lines h (fun v hv => events_nodeLine (h v hv) (hf v hv)) 0
    rw [layout_of_gives hg hf, ofNodes, Traced.events_bind]
    exact congrArg (_ :: ·) walk

/-- Blocks at two depths, and one in an inline element, which does not count. -/
def traceSample : List Value :=
  [.node (.element (.str "ul") []
    [.node (.element (.str "li") [] [.node (.comment (.str "c"))]),
     .node (.element (.str "p") [] [.ofText "a",
       .node (.element (.str "div") [] [.node (.comment (.str "d"))])]),
     .node (.element (.str "ol") [] [.node (.element (.str "br") [] [])])]),
   .ofText "x",
   .node (.element (.str "div") [] [.node (.raw (.str "b"))])]

theorem layout_trace_sample :
    (∀ v ∈ traceSample, v.WellTyped) ∧ (∀ v ∈ traceSample, FragmentFree v) ∧
    ∃ walk : List (List Nat × List Value),
      (∀ path children, (path, children) ∈ walk ↔ BlockAt traceSample path children) ∧
      (walk.Pairwise fun b c => b.1 < c.1) ∧
      (layout (.list traceSample) "\t" 2).events =
        .layingOut 3 2 :: walk.map (fun b => .layingOut b.2.length (2 + b.1.length)) ∧
      (layout (.list traceSample) "\t" 2).events = [.layingOut 3 2, .layingOut 3 3,
        .layingOut 1 4, .layingOut 1 4, .layingOut 1 3] ∧
      (Log.Logger.fresh.configure ⟨"DEBUG", none, true⟩).2.lines Log.Datum.line
          (layout (.list traceSample) "\t" 2).events =
        "\x7b\"message\": \"Prettifying 3 nodes at level 2\"\x7d\n" ++
          "\x7b\"message\": \"Prettifying 3 nodes at level 3\"\x7d\n" ++
          "\x7b\"message\": \"Prettifying 1 nodes at level 4\"\x7d\n" ++
          "\x7b\"message\": \"Prettifying 1 nodes at level 4\"\x7d\n" ++
          "\x7b\"message\": \"Prettifying 1 nodes at level 3\"\x7d\n" := by
  have typed : ∀ v ∈ traceSample, v.WellTyped := by decide +kernel
  have free : ∀ v ∈ traceSample, FragmentFree v := by
    unfold traceSample
    simp only [List.forall_mem_cons]
    refine ⟨.element _ _ ?_, .text _, .element _ _ (List.forall_mem_singleton.mpr (.raw _)),
      List.forall_mem_nil _⟩
    simp only [List.forall_mem_cons]
    refine ⟨.element _ _ (List.forall_mem_singleton.mpr (.comment _)), .element _ _ ?_,
      .element _ _ (List.forall_mem_singleton.mpr (.element _ _ (List.forall_mem_nil _))),
      List.forall_mem_nil _⟩
    simp only [List.forall_mem_cons]
    exact ⟨.text _, .element _ _ (List.forall_mem_singleton.mpr (.comment _)),
      List.forall_mem_nil _⟩
  obtain ⟨walk, blocks, order, trace⟩ := layout_trace typed free
  obtain ⟨-, walked, logged⟩ := trace _ (.list _) "\t" 2
  have events : (layout (.list traceSample) "\t" 2).events = [.layingOut 3 2, .layingOut 3 3,
      .layingOut 1 4, .layingOut 1 4, .layingOut 1 3] := by rfl
  refine ⟨typed, free, walk, blocks, order, walked, events,
    (logged Log.Datum.line ⟨"DEBUG", none, true⟩ .fresh rfl (by decide)).trans ?_⟩
  rw [events]
  decide +kernel

end Hypertext.Layout
