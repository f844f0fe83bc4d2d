import Hypertext.Proofs.Content.Run

/-!
# Content and its flat form

`flat` lists the leaves of content without their places. Adding content and adding its flat form
differ in nothing but the trail of an error: they end in the same way, with the same nodes and the
same attributes, also when an item is refused half way.

* `runLeaves_agrees`: runs over leaves that differ only in their places and events agree. It is a
  simulation, one leaf at a time.
* `append_agrees_flat`: content and its flat form agree; on flat content, adding goes item by item,
  and what is left after a refusal is read off the items.
-/

namespace Hypertext

/-! ## Agreement -/

/-- A fault without the way to it. -/
def Fault.bare : Fault → Fault
  | .build e => .build (.of e.cause)
  | f => f

@[simp] theorem Fault.bare_under (fs : List Frame) (f : Fault) : (f.under fs).bare = f.bare := by
  cases f <;> rfl

/-- The same nodes and the same attributes in the same order. -/
structure Draft.Agrees (d d' : Draft) : Prop where
  nodes : d.nodes = d'.nodes
  attributes : d.attributes = d'.attributes

/-- The same end with drafts that agree. Two faults may differ in their trails. -/
inductive Progress.Agrees : Progress → Progress → Prop
  | done {d d' : Draft} (h : d.Agrees d') : Agrees (.done d) (.done d')
  | stopped {d d' : Draft} {f f' : Fault} (h : d.Agrees d') (hf : f.bare = f'.bare) :
      Agrees (.stopped d f) (.stopped d' f')

theorem Draft.Agrees.refl (d : Draft) : d.Agrees d := ⟨rfl, rfl⟩

theorem Draft.Agrees.room {d d' : Draft} (h : d.Agrees d') : d.room = d'.room := by
  rw [Draft.room, Draft.room, h.attributes]

theorem Draft.Agrees.after {d d' : Draft} (h : d.Agrees d') (s : Step) :
    (d.after s).Agrees (d'.after s) := by
  refine ⟨?_, ?_⟩
  · rw [Content.after_nodes, Content.after_nodes, h.nodes]
  · rw [Content.after_attributes, Content.after_attributes, h.attributes]

namespace Content

/-- The steps that content comes to when no sequence is left in it. -/
def flat (content : Value) : List Step := (leaves content).map (·.step)

/-- The leaves that are values. -/
def flatValues (content : Value) : List Value := stepItems (flat content)

/-! ## The simulation -/

/-- The same leaves but for their places and for events. What comes after a failure is left open,
since no run gets there. -/
inductive Like : List Leaf → List Leaf → Prop
  | nil : Like [] []
  | item {p q : List Nat} {v : Value} {xs ys : List Leaf} (h : Like xs ys) :
      Like (⟨p, .item v⟩ :: xs) (⟨q, .item v⟩ :: ys)
  | noteLeft {p : List Nat} {e : Event} {xs ys : List Leaf} (h : Like xs ys) :
      Like (⟨p, .note e⟩ :: xs) ys
  | noteRight {q : List Nat} {e : Event} {xs ys : List Leaf} (h : Like xs ys) :
      Like xs (⟨q, .note e⟩ :: ys)
  | fail {p q : List Nat} {f : Fault} (xs ys : List Leaf) :
      Like (⟨p, .fail f⟩ :: xs) (⟨q, .fail f⟩ :: ys)

/-- **Runs over like leaves agree.** -/
theorem runLeaves_agrees (site : Site) {xs ys : List Leaf} (h : Like xs ys) :
    ∀ {d d' : Draft}, d.Agrees d' → (runLeaves site xs d).Agrees (runLeaves site ys d') := by
  induction h with
  | nil => exact fun hd => .done hd
  | @item p q v xs ys _ ih =>
    intro d d' hd
    simp only [runLeaves, runLeaf, ← hd.room]
    cases stepFault? site d.room (.item v) with
    | none => exact ih (hd.after _)
    | some f => exact .stopped (hd.after _) (by simp only [Fault.bare_under])
  | noteLeft _ ih => exact fun hd => ih ⟨hd.nodes, hd.attributes⟩
  | noteRight _ ih => exact fun hd => ih ⟨hd.nodes, hd.attributes⟩
  | fail xs ys => exact fun hd => .stopped hd (by simp only [Fault.bare_under])

/-! ## Leaves are leaves -/

/-- No step is a sequence. -/
def Flat (steps : List Step) : Prop := ∀ v, Step.item v ∈ steps → isLeaf v = true

mutual

theorem flat_itemLeaves (path : List Nat) (i : Nat) : ∀ v : Value,
    Flat ((itemLeaves path i v).map (·.step))
  | .list items => flat_listLeaves _ 0 items
  | .tuple items => flat_listLeaves _ 0 items
  | .stream _ steps => flat_streamLeaves _ 0 steps
  | .range start stop => by
    intro v hv
    simp only [itemLeaves, List.map_map, List.mem_map, Function.comp, Step.item.injEq] at hv
    obtain ⟨u, hu, rfl⟩ := hv
    exact isLeaf_of_mem_intsFrom hu
  | .null | .bool _ | .int _ | .float _ | .nan _ | .str _ | .bytes _ | .byteArray _ | .record _
  | .opaqueObject _ | .component _ | .error _ _ | .node _ => by
    intro v hv
    rw [itemLeaves_of_isLeaf rfl, List.map_singleton, List.mem_singleton] at hv
    cases hv
    rfl

theorem flat_listLeaves (path : List Nat) (i : Nat) : ∀ vs : List Value,
    Flat ((listLeaves path i vs).map (·.step))
  | [] => fun _ h => absurd h List.not_mem_nil
  | v :: rest => by
    intro u hu
    rw [listLeaves, List.map_append, List.mem_append] at hu
    rcases hu with hu | hu
    · exact flat_itemLeaves path i v u hu
    · exact flat_listLeaves path (i + 1) rest u hu

theorem flat_streamLeaves (path : List Nat) (i : Nat) : ∀ steps : List Step,
    Flat ((streamLeaves path i steps).map (·.step))
  | [] => fun _ h => absurd h List.not_mem_nil
  | .item v :: rest => by
    intro u hu
    rw [streamLeaves, List.map_append, List.mem_append] at hu
    rcases hu with hu | hu
    · exact flat_itemLeaves path i v u hu
    · exact flat_streamLeaves path (i + 1) rest u hu
  | .note e :: rest => by
    intro u hu
    rw [streamLeaves, List.map_cons, List.mem_cons] at hu
    rcases hu with hu | hu
    · cases hu
    · exact flat_streamLeaves path i rest u hu
  | .fail f :: _ => by
    intro u hu
    cases List.mem_singleton.mp hu

end

theorem isLeaf_of_mem_flatValues {content v : Value} (h : v ∈ flatValues content) :
    isLeaf v = true := by
  obtain ⟨s, hs, hv⟩ := List.mem_filterMap.mp h
  cases s with
  | item u =>
    cases hv
    exact flat_streamLeaves [] 0 _ v hs
  | note e => cases hv
  | fail f => cases hv

/-! ## Content and its flat form are like -/

theorem like_stream {i : Nat} : ∀ {ls : List Leaf}, Flat (ls.map (·.step)) →
    Like ls (streamLeaves [] i (ls.map (·.step)))
  | [], _ => .nil
  | ⟨p, .item v⟩ :: rest, h => by
    have hv := h v List.mem_cons_self
    rw [List.map_cons, streamLeaves, itemLeaves_of_isLeaf hv]
    exact .item (like_stream fun u hu => h u (List.mem_cons_of_mem _ hu))
  | ⟨p, .note e⟩ :: rest, h =>
    .noteLeft (.noteRight (like_stream fun u hu => h u (List.mem_cons_of_mem _ hu)))
  | ⟨p, .fail f⟩ :: rest, _ => .fail rest []

theorem like_values : ∀ {ls : List Leaf}, (∀ f, Step.fail f ∉ ls.map (·.step)) →
    Like ls ((stepItems (ls.map (·.step))).map fun v => ⟨[], .item v⟩)
  | [], _ => .nil
  | ⟨_, .item _⟩ :: _, h => .item (like_values fun f hf => h f (List.mem_cons_of_mem _ hf))
  | ⟨_, .note _⟩ :: _, h => .noteLeft (like_values fun f hf => h f (List.mem_cons_of_mem _ hf))
  | ⟨_, .fail f⟩ :: _, h => absurd List.mem_cons_self (h f)

theorem leaves_list {vs : List Value} (h : ∀ v ∈ vs, isLeaf v = true) :
    leaves (.list vs) = vs.map fun v => ⟨[], .item v⟩ :=
  streamLeaves_of_isLeaf [] 0 vs h

theorem append_list {vs : List Value} (h : ∀ v ∈ vs, isLeaf v = true) (site : Site) (d : Draft) :
    append site (.list vs) d = runLeaves site (vs.map fun v => ⟨[], .item v⟩) d := by
  rw [append_eq_runLeaves rfl, leaves_list h]

theorem append_agrees_stream {content : Value} (h : content.steps?.isSome) (site : Site)
    (d : Draft) : (append site content d).Agrees (append site (.stream 0 (flat content)) d) := by
  rw [append_eq_runLeaves h, append_eq_runLeaves rfl]
  exact runLeaves_agrees site (like_stream (flat_streamLeaves [] 0 _)) (.refl d)

theorem append_agrees_list {content : Value} (h : content.steps?.isSome)
    (hf : ∀ f, Step.fail f ∉ flat content) (site : Site) (d : Draft) :
    (append site content d).Agrees (append site (.list (flatValues content)) d) := by
  rw [append_eq_runLeaves h, append_list fun v hv => isLeaf_of_mem_flatValues hv]
  exact runLeaves_agrees site (like_values hf) (.refl d)

/-! ## What is left of a refused run -/

/-- Without failing streams, only an error of building stops a run. -/
theorem build_of_stopped {content : Value} (h : content.steps?.isSome)
    (hf : ∀ f, Step.fail f ∉ flat content) {site : Site} {d d' : Draft} {f : Fault}
    (hs : append site content d = .stopped d' f) : ∃ e, f = .build e := by
  rw [append_eq_runLeaves h] at hs
  obtain ⟨before, l, f₀, ⟨⟨rest, hsplit⟩, -, hl⟩, -, rfl⟩ := firstFault_of_stopped hs
  obtain ⟨path, step⟩ := l
  cases step with
  | item v =>
    obtain ⟨cause, -, rfl⟩ := Option.map_eq_some_iff.mp hl
    exact ⟨_, rfl⟩
  | note e => cases hl
  | fail g =>
    have : Step.fail g ∈ flat content := List.mem_map.mpr ⟨⟨path, .fail g⟩, by simp [hsplit], rfl⟩
    exact absurd this (hf g)

/-- **A refused run over flat content** has taken in the items before the refused one, and of that
one the entries before the bad one. -/
theorem stopped_list {xs : List Value} (h : ∀ v ∈ xs, isLeaf v = true) {site : Site}
    {d d' : Draft} {f : Fault} (hs : append site (.list xs) d = .stopped d' f) :
    ∃ before v rest cause, xs = before ++ v :: rest ∧
      (∀ u ∈ before, refusal? site d.room u = none) ∧
      refusal? site d.room v = some cause ∧ f = .build (.of cause) ∧
      d'.nodes = d.nodes ++ before.flatMap leafNodes ∧
      d'.attributes =
        d.attributes.map (·.writeAll (before.flatMap leafEntries ++ leafEntries v)) := by
  rw [append_list h] at hs
  obtain ⟨ls, l, f₀, ⟨⟨tail, hsplit⟩, hb, hl⟩, rfl, rfl⟩ := firstFault_of_stopped hs
  obtain ⟨before, more, rfl, rfl, hmore⟩ := List.map_eq_append_iff.mp hsplit
  obtain ⟨v, rest, rfl, rfl, -⟩ := List.map_eq_cons_iff.mp hmore
  obtain ⟨cause, hv, rfl⟩ := Option.map_eq_some_iff.mp hl
  refine ⟨before, v, rest, cause, rfl, fun u hu => ?_, hv, rfl, ?_, ?_⟩
  · have := hb ⟨[], .item u⟩ (List.mem_map_of_mem hu)
    exact Option.map_eq_none_iff.mp this
  · rw [draftAt, after_nodes, afterAll_nodes, List.flatMap_map]
    simp only [stepNodes, leafNodes_of_refusal hv, List.append_nil]
  · rw [draftAt, after_attributes, afterAll_attributes, List.flatMap_map, Option.map_map]
    simp only [stepEntries, Function.comp_def, Record.writeAll_append]

/-- **Content and its flat form agree.** The flat form of any content that can be gone through ends
the same way, failing streams included; without those it is a list of leaves, and only an error of
building can stop either run. A run over flat content goes item by item. When it is refused, the
nodes are the old ones and those of the items before the refused one, and the attributes are the
old ones with the entries written of those items and of the refused one up to its bad entry. -/
theorem append_agrees_flat (site : Site) (d : Draft) :
    (∀ content : Value, content.steps?.isSome →
      (append site content d).Agrees (append site (.stream 0 (flat content)) d) ∧
      (∀ v ∈ flatValues content, isLeaf v = true) ∧
      ((∀ f, Step.fail f ∉ flat content) →
        (append site content d).Agrees (append site (.list (flatValues content)) d) ∧
        ∀ d' f, append site content d = .stopped d' f → ∃ e, f = .build e)) ∧
    (∀ xs ys : List Value, (∀ v ∈ xs ++ ys, isLeaf v = true) →
      append site (.list (xs ++ ys)) d =
        (append site (.list xs) d).andThen (append site (.list ys))) ∧
    ∀ xs : List Value, (∀ v ∈ xs, isLeaf v = true) → ∀ d' f,
      append site (.list xs) d = .stopped d' f →
      ∃ before v rest cause, xs = before ++ v :: rest ∧
        (∀ u ∈ before, refusal? site d.room u = none) ∧
        refusal? site d.room v = some cause ∧ f = .build (.of cause) ∧
        d'.nodes = d.nodes ++ before.flatMap leafNodes ∧
        d'.attributes =
          d.attributes.map (·.writeAll (before.flatMap leafEntries ++ leafEntries v)) := by
  refine ⟨fun content h => ⟨append_agrees_stream h site d, fun v => isLeaf_of_mem_flatValues,
    fun hf => ⟨append_agrees_list h hf site d, fun d' f => build_of_stopped h hf⟩⟩,
    fun xs ys h => ?_, fun xs h d' f => stopped_list h⟩
  have hx : ∀ v ∈ xs, isLeaf v = true := fun v hv => h v (List.mem_append_left ys hv)
  have hy : ∀ v ∈ ys, isLeaf v = true := fun v hv => h v (List.mem_append_right xs hv)
  rw [append_list h, append_list hx, List.map_append, runLeaves_append]
  congr 1
  funext m
  exact (append_list hy site m).symm

theorem append_agrees_flat_nested :
    nestedSample.steps?.isSome ∧ (∀ f, Step.fail f ∉ flat nestedSample) ∧
    (append (.element "p") nestedSample .empty).Agrees
      (append (.element "p") (.list (flatValues nestedSample)) .empty) ∧
    (∀ v ∈ [Value.str "x"] ++ [.int 1], isLeaf v = true) ∧
    append .root (.list ([.str "x"] ++ [.int 1])) (.ofNodes []) =
      (append .root (.list [.str "x"]) (.ofNodes [])).andThen (append .root (.list [.int 1])) ∧
    append .root (.list [.str "x", .int 1]) (.ofNodes []) =
      .stopped (.ofNodes [.ofText "x"]) (.build (.of (.childType "root" "int"))) ∧
    ∃ before v rest cause, [Value.str "x", .int 1] = before ++ v :: rest ∧
      (∀ u ∈ before, refusal? .root false u = none) ∧
      refusal? .root false v = some cause ∧
      Fault.build (.of (.childType "root" "int")) = .build (.of cause) ∧
      [Value.ofText "x"] = [] ++ before.flatMap leafNodes ∧
      none = (none : Option Record).map
        (·.writeAll (before.flatMap leafEntries ++ leafEntries v)) := by
  have noFail : ∀ f, Step.fail f ∉ flat nestedSample := by
    intro f h
    simp [flat, leaves, nestedSample, Value.steps?, streamLeaves, itemLeaves, listLeaves] at h
  have flatPair : ∀ v ∈ [Value.str "x"] ++ [.int 1], isLeaf v = true := by
    simp [isLeaf]
  obtain ⟨law, -, -⟩ := append_agrees_flat (.element "p") .empty
  obtain ⟨-, sequential, refused⟩ := append_agrees_flat .root (.ofNodes [])
  exact ⟨rfl, noFail, ((law nestedSample rfl).2.2 noFail).1, flatPair, sequential _ _ flatPair, rfl,
    refused _ flatPair _ _ rfl⟩

end Content

end Hypertext
