import Hypertext.Proofs.Content.Leaves

/-!
# Runs over leaves

Adding content is adding its leaves one after another. The frames that an error gets on its way out
of the sequences are then a matter of the leaf alone: one for each position of its path, with the
attributes as they stand where the run stops.

* `append_eq_runLeaves`: adding content is a run over its leaves. The induction is on the content,
  and `Progress.under` carries the sequences around it.
* `runLeaves_stopped`: a run stops at the first leaf with a fault.
* `firstFault_of_stopped`: what a stopped run says.
* `afterAll_nodes`, `afterAll_attributes`: what a run has built by then; `nodes_of_done` for all of
  some content.
-/

namespace Hypertext

namespace Content

/-! ## Runs over leaves -/

/-- Why a step cannot be taken, if it cannot. -/
def stepFault? (site : Site) (room : Bool) : Step → Option Fault
  | .item v => (refusal? site room v).map fun cause => .build (.of cause)
  | .note _ => none
  | .fail f => some f

/-- The frame of a sequence at position `index`, as the draft stands. -/
def frame (site : Site) (d : Draft) (index : Nat) : Frame :=
  ⟨site.frameName, d.attributes.getD [], index⟩

/-- The frames of the sequences on a path, the innermost first. -/
def frames (site : Site) (d : Draft) (path : List Nat) : List Frame :=
  path.reverse.map (frame site d)

end Content

/-- A fault seen from further out. Only an error of building gets frames. -/
def Fault.under (fs : List Frame) : Fault → Fault
  | .build e => .build { e with trail := e.trail ++ fs }
  | f => f

@[simp] theorem Fault.under_nil (f : Fault) : f.under [] = f := by
  cases f with
  | build e => cases e; simp only [Fault.under, List.append_nil]
  | _ => rfl

theorem Fault.under_append (xs ys : List Frame) (f : Fault) :
    f.under (xs ++ ys) = (f.under xs).under ys := by
  cases f <;> simp [Fault.under]

namespace Progress

/-- The same progress seen from the outermost of the sequences on a path. -/
def under (site : Site) (path : List Nat) : Progress → Progress
  | done d => done d
  | stopped d f => stopped d (f.under (Content.frames site d path))

@[simp] theorem under_nil (site : Site) (p : Progress) : p.under site [] = p := by
  cases p <;> simp [under, Content.frames]

theorem under_within (site : Site) (path : List Nat) (i : Nat) (p : Progress) :
    (p.within site i).under site path = p.under site (path ++ [i]) := by
  cases p with
  | done d => rfl
  | stopped d f =>
    simp only [under, Content.frames, List.reverse_append, List.map_append, Fault.under_append]
    cases f <;> rfl

theorem under_andThen (site : Site) (path : List Nat) (p : Progress) (next : Draft → Progress) :
    (p.andThen next).under site path =
      (p.under site path).andThen fun d => (next d).under site path := by
  cases p <;> rfl

theorem andThen_assoc (p : Progress) (f g : Draft → Progress) :
    (p.andThen f).andThen g = p.andThen fun d => (f d).andThen g := by
  cases p <;> rfl

@[simp] theorem andThen_done (p : Progress) : p.andThen .done = p := by
  cases p <;> rfl

end Progress

namespace Content

/-- Add one leaf. -/
def runLeaf (site : Site) (l : Leaf) (d : Draft) : Progress :=
  match stepFault? site d.room l.step with
  | none => .done (d.after l.step)
  | some f => .stopped (d.after l.step) (f.under (frames site (d.after l.step) l.path))

/-- Add leaves one after another. -/
def runLeaves (site : Site) : List Leaf → Draft → Progress
  | [], d => .done d
  | l :: rest, d => (runLeaf site l d).andThen (runLeaves site rest)

theorem runLeaves_append (site : Site) : ∀ (xs ys : List Leaf) (d : Draft),
    runLeaves site (xs ++ ys) d = (runLeaves site xs d).andThen (runLeaves site ys)
  | [], _, _ => rfl
  | x :: xs, ys, d => by
    rw [List.cons_append, runLeaves, runLeaves, Progress.andThen_assoc]
    congr 1
    funext m
    exact runLeaves_append site xs ys m

theorem runLeaves_singleton (site : Site) (l : Leaf) (d : Draft) :
    runLeaves site [l] d = runLeaf site l d :=
  Progress.andThen_done _

theorem appendItem_leaf_under {v : Value} (h : isLeaf v = true) (site : Site) (i : Nat)
    (path : List Nat) (d : Draft) :
    (appendItem site i v d).under site path = runLeaf site ⟨path, .item v⟩ d := by
  rw [appendItem_leaf h]
  simp only [runLeaf, stepFault?, Draft.after]
  cases refusal? site d.room v <;> rfl

/-- A range is refused at its first number. -/
theorem appendRange_under (site : Site) (path : List Nat) (start stop : Int) (d : Draft) :
    (appendRange site start stop d).under site path = runLeaves site
      ((Value.intsFrom start (stop - start).toNat).map fun v => ⟨path, .item v⟩) d := by
  unfold appendRange
  cases hn : (stop - start).toNat with
  | zero =>
    rw [if_neg (by omega)]
    rfl
  | succ n =>
    rw [if_pos (by omega)]
    have h := appendItem_leaf_under (v := .int start) rfl site 0 path d
    rw [Value.intsFrom, List.map_cons, runLeaves, ← h]
    rfl

mutual

/-- Adding an item, seen from the outermost sequence, is adding its leaves. -/
theorem appendItem_under (site : Site) (path : List Nat) (i : Nat) : ∀ (v : Value) (d : Draft),
    (appendItem site i v d).under site path = runLeaves site (itemLeaves path i v) d
  | .list items, d => by
    rw [appendItem, Progress.under_within, appendItems_under]
    rfl
  | .tuple items, d => by
    rw [appendItem, Progress.under_within, appendItems_under]
    rfl
  | .stream _ steps, d => by
    rw [appendItem, Progress.under_within, appendSteps_under]
    rfl
  | .range start stop, d => by
    rw [appendItem, Progress.under_within, appendRange_under]
    rfl
  | .null, d | .bool _, d | .int _, d | .float _, d | .nan _, d | .str _, d | .bytes _, d
  | .byteArray _, d | .record _, d | .opaqueObject _, d | .component _, d | .error _ _, d
  | .node _, d => by
    rw [itemLeaves_of_isLeaf rfl, runLeaves_singleton]
    exact appendItem_leaf_under rfl site i path d

theorem appendItems_under (site : Site) (path : List Nat) (i : Nat) :
    ∀ (vs : List Value) (d : Draft),
      (appendItems site i vs d).under site path = runLeaves site (listLeaves path i vs) d
  | [], _ => rfl
  | v :: rest, d => by
    rw [appendItems, Progress.under_andThen, listLeaves, runLeaves_append, appendItem_under]
    congr 1
    funext m
    exact appendItems_under site path (i + 1) rest m

theorem appendSteps_under (site : Site) (path : List Nat) (i : Nat) :
    ∀ (steps : List Step) (d : Draft),
      (appendSteps site i steps d).under site path = runLeaves site (streamLeaves path i steps) d
  | [], _ => rfl
  | .item v :: rest, d => by
    rw [appendSteps, Progress.under_andThen, streamLeaves, runLeaves_append, appendItem_under]
    congr 1
    funext m
    exact appendSteps_under site path (i + 1) rest m
  | .note e :: rest, d => by
    rw [appendSteps, streamLeaves, runLeaves, appendSteps_under site path i rest]
    rfl
  | .fail f :: _, _ => rfl

end

theorem streamLeaves_of_isLeaf (path : List Nat) : ∀ (i : Nat) (vs : List Value),
    (∀ v ∈ vs, isLeaf v = true) →
      streamLeaves path i (vs.map .item) = vs.map fun v => ⟨path, .item v⟩
  | _, [], _ => rfl
  | i, v :: rest, h => by
    have hv := h v List.mem_cons_self
    have ih := streamLeaves_of_isLeaf path (i + 1) rest fun u hu => h u (List.mem_cons_of_mem v hu)
    rw [List.map_cons, streamLeaves, itemLeaves_of_isLeaf hv, ih]
    rfl

theorem exists_int_of_mem_intsFrom {v : Value} : ∀ {n : Nat} {start : Int},
    v ∈ Value.intsFrom start n → ∃ k, v = .int k
  | 0, _, h => absurd h List.not_mem_nil
  | n + 1, start, h => by
    rcases List.mem_cons.mp h with rfl | h
    · exact ⟨start, rfl⟩
    · exact exists_int_of_mem_intsFrom h

theorem isLeaf_of_mem_intsFrom {v : Value} {n : Nat} {start : Int}
    (h : v ∈ Value.intsFrom start n) : isLeaf v = true := by
  obtain ⟨k, rfl⟩ := exists_int_of_mem_intsFrom h
  rfl

/-- **Adding content is adding its leaves** in their order. -/
theorem append_eq_runLeaves {content : Value} (h : content.steps?.isSome) (site : Site)
    (d : Draft) : append site content d = runLeaves site (leaves content) d := by
  have gone (steps : List Step) (e : content.steps? = some steps) :
      appendSteps site 0 steps d = runLeaves site (leaves content) d := by
    rw [leaves, e, Option.getD_some, ← appendSteps_under, Progress.under_nil]
  cases content with
  | range start stop =>
    have ints := streamLeaves_of_isLeaf [] 0 (Value.intsFrom start (stop - start).toNat)
      fun _ h => isLeaf_of_mem_intsFrom h
    rw [leaves, Value.steps?, Option.getD_some, ints, ← appendRange_under, Progress.under_nil]
    rfl
  | str _ | bytes _ | byteArray _ | list _ | tuple _ | record _ | stream _ _ => exact gone _ rfl
  | _ => cases h

/-! ## Where a run stops -/

/-- The nodes that a step brings. -/
def stepNodes : Step → List Value
  | .item v => leafNodes v
  | _ => []

/-- The entries that a step writes. -/
def stepEntries : Step → Record
  | .item v => leafEntries v
  | _ => []

end Content

/-- The draft after all of some leaves. -/
def Draft.afterAll (d : Draft) (ls : List Content.Leaf) : Draft :=
  ls.foldl (fun d l => d.after l.step) d

namespace Content

theorem after_nodes (d : Draft) (s : Step) : (d.after s).nodes = d.nodes ++ stepNodes s := by
  cases s <;> simp [Draft.after, Draft.take, Draft.note, stepNodes]

theorem after_attributes (d : Draft) (s : Step) :
    (d.after s).attributes = d.attributes.map (·.writeAll (stepEntries s)) := by
  cases s <;> cases h : d.attributes <;>
    simp [Draft.after, Draft.take, Draft.note, stepEntries, Record.writeAll, h]

theorem afterAll_nodes : ∀ (ls : List Leaf) (d : Draft),
    (d.afterAll ls).nodes = d.nodes ++ ls.flatMap fun l => stepNodes l.step
  | [], d => (List.append_nil d.nodes).symm
  | l :: rest, d => by
    show ((d.after l.step).afterAll rest).nodes = _
    rw [afterAll_nodes rest, after_nodes, List.flatMap_cons, List.append_assoc]

theorem afterAll_attributes : ∀ (ls : List Leaf) (d : Draft), (d.afterAll ls).attributes =
    d.attributes.map (·.writeAll (ls.flatMap fun l => stepEntries l.step))
  | [], d => by simp [Draft.afterAll, Record.writeAll]
  | l :: rest, d => by
    show ((d.after l.step).afterAll rest).attributes = _
    rw [afterAll_attributes rest, after_attributes, Option.map_map, List.flatMap_cons]
    congr 1
    funext a
    exact (a.writeAll_append _ _).symm

/-- `l` is the first leaf of `ls` with a fault, which is `f`. The leaves in front of it are
`before`. -/
structure FirstFault (site : Site) (room : Bool) (ls before : List Leaf) (l : Leaf) (f : Fault) :
    Prop where
  split : ∃ rest, ls = before ++ l :: rest
  faultless : ∀ b ∈ before, stepFault? site room b.step = none
  fault : stepFault? site room l.step = some f

/-- The draft in which adding stops: all before the leaf is in it, and the leaf's own entries up to
the one that is refused. -/
def draftAt (d : Draft) (before : List Leaf) (l : Leaf) : Draft := (d.afterAll before).after l.step

theorem runLeaves_done {site : Site} : ∀ {ls : List Leaf} {d : Draft},
    (∀ l ∈ ls, stepFault? site d.room l.step = none) → runLeaves site ls d = .done (d.afterAll ls)
  | [], _, _ => rfl
  | l :: rest, d, h => by
    have hl := h l List.mem_cons_self
    have ih : runLeaves site rest (d.after l.step) = .done ((d.after l.step).afterAll rest) :=
      runLeaves_done fun b hb => by
        rw [Draft.room_after]
        exact h b (List.mem_cons_of_mem l hb)
    rw [runLeaves, runLeaf, hl]
    exact ih

theorem room_afterAll : ∀ (ls : List Leaf) (d : Draft), (d.afterAll ls).room = d.room
  | [], _ => rfl
  | l :: rest, d => (room_afterAll rest (d.after l.step)).trans (d.room_after l.step)

/-- **Adding stops at the first leaf with a fault.** -/
theorem runLeaves_stopped {site : Site} {ls before : List Leaf} {l : Leaf} {f : Fault} {d : Draft}
    (h : FirstFault site d.room ls before l f) : runLeaves site ls d =
      .stopped (draftAt d before l) (f.under (frames site (draftAt d before l) l.path)) := by
  obtain ⟨rest, rfl⟩ := h.split
  rw [runLeaves_append, runLeaves_done h.faultless]
  simp only [Progress.andThen, runLeaves, runLeaf, room_afterAll, h.fault]
  rfl

theorem firstFault_or (site : Site) (room : Bool) : ∀ ls : List Leaf,
    (∀ l ∈ ls, stepFault? site room l.step = none) ∨
      ∃ before l f, FirstFault site room ls before l f
  | [] => Or.inl fun _ h => absurd h List.not_mem_nil
  | x :: rest => by
    cases hx : stepFault? site room x.step with
    | some f => exact Or.inr ⟨[], x, f, ⟨rest, rfl⟩, fun _ h => absurd h List.not_mem_nil, hx⟩
    | none =>
      have cons {p : Leaf → Prop} {ls : List Leaf} (px : p x) (h : ∀ b ∈ ls, p b) :
          ∀ b ∈ x :: ls, p b := List.forall_mem_cons.mpr ⟨px, h⟩
      rcases firstFault_or site room rest with h | ⟨before, l, f, ⟨after, rfl⟩, hb, hf⟩
      · exact Or.inl (cons hx h)
      · exact Or.inr ⟨x :: before, l, f, ⟨after, rfl⟩, cons hx hb, hf⟩

/-- What a stopped run says. -/
theorem firstFault_of_stopped {site : Site} {ls : List Leaf} {d d' : Draft} {f' : Fault}
    (h : runLeaves site ls d = .stopped d' f') :
    ∃ before l f, FirstFault site d.room ls before l f ∧ d' = draftAt d before l ∧
      f' = f.under (frames site d' l.path) := by
  rcases firstFault_or site d.room ls with hs | ⟨before, l, f, hff⟩
  · rw [runLeaves_done hs] at h
    cases h
  · rw [runLeaves_stopped hff] at h
    cases h
    exact ⟨before, l, f, hff, rfl, rfl⟩

/-- What a finished run has built. -/
theorem eq_afterAll_of_done {site : Site} {ls : List Leaf} {d d' : Draft}
    (h : runLeaves site ls d = .done d') : d' = d.afterAll ls := by
  rcases firstFault_or site d.room ls with hs | ⟨before, l, f, hf⟩
  · rw [runLeaves_done hs] at h
    cases h
    rfl
  · rw [runLeaves_stopped hf] at h
    cases h

/-- Adding items to any draft is a run over their leaves. -/
theorem appendItems_eq_runLeaves (site : Site) (i : Nat) (vs : List Value) (d : Draft) :
    appendItems site i vs d = runLeaves site (listLeaves [] i vs) d := by
  rw [← appendItems_under, Progress.under_nil]

/-- **What comes out of content** is the nodes of its leaves. -/
theorem nodes_of_done {site : Site} {vs : List Value} {d d' : Draft}
    (h : appendItems site 0 vs d = .done d') :
    d'.nodes = d.nodes ++ (listLeaves [] 0 vs).flatMap fun l => stepNodes l.step := by
  rw [appendItems_eq_runLeaves] at h
  rw [eq_afterAll_of_done h, afterAll_nodes]

end Content

end Hypertext
