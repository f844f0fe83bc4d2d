import Hypertext.Proofs.Content.Run

/-!
# The trail of an error

The trail of an error of building (`ConstructionError.trail`) is the way to the item that it is
about. `subscript` follows a path of positions into sequences that hold each other; `Trailed` says
that a fault belongs to the first leaf with one, that its frames are the positions of the leaf's
path, innermost first, and that all of them show the same attributes.

* `reaches_streamLeaves`: the path of a leaf leads to the sequence that holds it.
* `fault_trailed`: every fault of adding content, of an element's content and of a fragment's is
  trailed. The attributes shown are those that stand when the call stops.
-/

namespace Hypertext.Content

/-! ## Following a path -/

/-- The steps of the sequence at the end of a path. -/
def subscript : List Nat → List Step → Option (List Step)
  | [], steps => some steps
  | i :: path, steps => ((stepItems steps)[i]?.bind Value.steps?).bind (subscript path)

/-- The leaf lies in a sequence that the rest of its path, behind `path`, leads to. -/
def Reaches (path : List Nat) (steps : List Step) (l : Leaf) : Prop :=
  ∃ more inner, l.path = path ++ more ∧ subscript more steps = some inner ∧ l.step ∈ inner

theorem Reaches.of_mem {path : List Nat} {steps : List Step} {s : Step} (h : s ∈ steps) :
    Reaches path steps ⟨path, s⟩ :=
  ⟨[], steps, (List.append_nil path).symm, rfl, h⟩

theorem stepItems_append_item (before rest : List Step) (v : Value) :
    (stepItems (before ++ .item v :: rest))[(stepItems before).length]? = some v := by
  have : stepItems (before ++ .item v :: rest) = stepItems before ++ v :: stepItems rest := by
    simp [stepItems]
  rw [this, List.getElem?_append_right (Nat.le_refl _), Nat.sub_self]
  rfl

/-- One step further out. -/
theorem Reaches.outward {path : List Nat} {before rest inner : List Step} {v : Value} {l : Leaf}
    (hv : v.steps? = some inner) (h : Reaches (path ++ [(stepItems before).length]) inner l) :
    Reaches path (before ++ .item v :: rest) l := by
  obtain ⟨more, deep, hp, hs, hm⟩ := h
  refine ⟨(stepItems before).length :: more, deep, ?_, ?_, hm⟩
  · rw [hp, List.append_assoc, List.singleton_append]
  · rw [subscript, stepItems_append_item, Option.bind_some, hv, Option.bind_some, hs]

/-- What is true of a leaf of an item: it is the item, or it lies inside. -/
def Inside (path : List Nat) (i : Nat) (v : Value) (l : Leaf) : Prop :=
  l = ⟨path, .item v⟩ ∨ ∃ inner, v.steps? = some inner ∧ Reaches (path ++ [i]) inner l

theorem Inside.reaches {path : List Nat} {before rest : List Step} {v : Value} {l : Leaf}
    (h : Inside path (stepItems before).length v l) :
    Reaches path (before ++ .item v :: rest) l := by
  rcases h with rfl | ⟨inner, hv, hr⟩
  · exact .of_mem (by simp)
  · exact .outward hv hr

theorem stepItems_snoc_length (before : List Step) (v : Value) :
    (stepItems (before ++ [.item v])).length = (stepItems before).length + 1 := by
  simp [stepItems]

mutual

theorem inside_itemLeaves (path : List Nat) (i : Nat) : ∀ (v : Value) {l : Leaf},
    l ∈ itemLeaves path i v → Inside path i v l
  | .list items, _, h => Or.inr ⟨_, rfl, reaches_listLeaves (path ++ [i]) [] items h⟩
  | .tuple items, _, h => Or.inr ⟨_, rfl, reaches_listLeaves (path ++ [i]) [] items h⟩
  | .stream _ steps, _, h => Or.inr ⟨_, rfl, reaches_streamLeaves (path ++ [i]) [] steps h⟩
  | .range start stop, l, h => by
    obtain ⟨v, hv, rfl⟩ := List.mem_map.mp h
    exact Or.inr ⟨_, rfl, .of_mem (List.mem_map_of_mem hv)⟩
  | .null, _, h | .bool _, _, h | .int _, _, h | .float _, _, h | .nan _, _, h | .str _, _, h
  | .bytes _, _, h | .byteArray _, _, h | .record _, _, h | .opaqueObject _, _, h
  | .component _, _, h | .error _ _, _, h | .node _, _, h => by
    rw [itemLeaves_of_isLeaf rfl, List.mem_singleton] at h
    exact Or.inl h

theorem reaches_listLeaves (path : List Nat) (before : List Step) : ∀ (vs : List Value) {l : Leaf},
    l ∈ listLeaves path (stepItems before).length vs → Reaches path (before ++ vs.map .item) l
  | [], _, h => absurd h List.not_mem_nil
  | v :: rest, l, h => by
    rw [listLeaves, List.mem_append] at h
    rcases h with h | h
    · exact (inside_itemLeaves path _ v h).reaches
    · rw [← stepItems_snoc_length before v] at h
      have := reaches_listLeaves path (before ++ [.item v]) rest h
      rwa [List.append_assoc] at this

/-- **The path of a leaf leads to the sequence that holds it.** -/
theorem reaches_streamLeaves (path : List Nat) (before : List Step) :
    ∀ (steps : List Step) {l : Leaf},
      l ∈ streamLeaves path (stepItems before).length steps → Reaches path (before ++ steps) l
  | [], _, h => absurd h List.not_mem_nil
  | .item v :: rest, l, h => by
    rw [streamLeaves, List.mem_append] at h
    rcases h with h | h
    · exact (inside_itemLeaves path _ v h).reaches
    · rw [← stepItems_snoc_length before v] at h
      have := reaches_streamLeaves path (before ++ [.item v]) rest h
      rwa [List.append_assoc] at this
  | .note e :: rest, l, h => by
    rcases List.mem_cons.mp h with rfl | h
    · exact .of_mem (by simp)
    · have counted : stepItems (before ++ [.note e]) = stepItems before := by simp [stepItems]
      rw [← counted] at h
      have := reaches_streamLeaves path (before ++ [.note e]) rest h
      rwa [List.append_assoc] at this
  | .fail f :: rest, l, h => by
    rw [streamLeaves, List.mem_singleton] at h
    rw [h]
    exact .of_mem (by simp)

end

/-! ## Trailed faults -/

/-- The frames of a path, innermost first. The place is named by its element, or else it is the
root. -/
def pathFrames (name : Option String) (attributes : Record) (path : List Nat) : List Frame :=
  path.reverse.map fun i : Nat => ⟨(name.filter (· ≠ "")).getD "root", attributes, i⟩

/-- What comes out for a step with a fault, given the frames of the sequences around it: a leaf is
refused, a stream fails with an error of building that has a trail already, or with a fault of
another kind, which gets no frames. -/
inductive Escapes (site : Site) (room : Bool) (fs : List Frame) : Step → Fault → Prop
  | refused {v : Value} {cause : BuildCause} (h : refusal? site room v = some cause) :
      Escapes site room fs (.item v) (.build ⟨cause, fs⟩)
  | raised (e : BuildError) :
      Escapes site room fs (.fail (.build e)) (.build ⟨e.cause, e.trail ++ fs⟩)
  | other (f : Fault) (h : ∀ e, f ≠ .build e) : Escapes site room fs (.fail f) f

/-- `f` comes from the first leaf with a fault, and its frames are the way to the sequence that
holds the leaf, all with the same attributes. -/
def Trailed (site : Site) (room : Bool) (content : Value) (attributes : Record) (f : Fault) :
    Prop :=
  ∃ before l f₀ inner, FirstFault site room (leaves content) before l f₀ ∧
    subscript l.path (content.steps?.getD []) = some inner ∧ l.step ∈ inner ∧
    Escapes site room (pathFrames site.name attributes l.path) l.step f

theorem frames_eq (site : Site) (d : Draft) (path : List Nat) :
    frames site d path = pathFrames site.name (d.attributes.getD []) path := by
  have : site.frameName = (site.name.filter (· ≠ "")).getD "root" := by
    obtain ⟨_ | name⟩ := site
    · rfl
    · by_cases h : name = ""
      · subst h
        rfl
      · rw [Option.filter_some_pos (by simpa using h)]
        simp [Site.frameName]
  rw [frames, pathFrames, ← this]
  rfl

theorem escapes_of_fault {site : Site} {room : Bool} {s : Step} {f : Fault} (fs : List Frame)
    (h : stepFault? site room s = some f) : Escapes site room fs s (f.under fs) := by
  cases s with
  | item v =>
    obtain ⟨cause, hv, rfl⟩ := Option.map_eq_some_iff.mp h
    exact .refused hv
  | note e => cases h
  | fail g =>
    cases h
    cases f with
    | build e => exact .raised e
    | _ => exact .other _ nofun

theorem trailed_of_stopped {site : Site} {content : Value} {d d' : Draft} {f : Fault}
    (h : content.steps?.isSome) (hs : append site content d = .stopped d' f) :
    Trailed site d.room content (d'.attributes.getD []) f := by
  rw [append_eq_runLeaves h] at hs
  obtain ⟨before, l, f₀, hff, -, rfl⟩ := firstFault_of_stopped hs
  obtain ⟨rest, hsplit⟩ := hff.split
  have hmem : l ∈ leaves content := by simp [hsplit]
  obtain ⟨path, inner, hp, hsub, hin⟩ := reaches_streamLeaves [] [] _ hmem
  rw [List.nil_append] at hp
  refine ⟨before, l, f₀, inner, hff, by rw [hp]; exact hsub, hin, ?_⟩
  rw [← frames_eq]
  exact escapes_of_fault _ hff.fault

theorem appendItems_eq_append (site : Site) (vs : List Value) (d : Draft) :
    appendItems site 0 vs d = append site (.tuple vs) d := by
  rw [append_eq_runLeaves rfl, leaves, Value.steps?, Option.getD_some, ← listLeaves_eq,
    appendItems_eq_runLeaves]

/-- A builder that fails has stopped adding its content. -/
theorem stopped_of_outcome {α : Type} {p : Progress} {f : Fault} {k : Draft → α}
    (h : (p.traced >>= fun d => (pure (k d) : Traced α)).outcome = .error f) :
    ∃ d', p = .stopped d' f := by
  rw [Traced.outcome_bind] at h
  cases p with
  | done d => cases h
  | stopped d' g =>
    cases h
    exact ⟨d', rfl⟩

/-- The attributes of an element under construction, as they stand when its content is through or
refused. -/
def attributesLeft (name : String) (content : List Value) : Record :=
  (append (.element name) (.tuple content) .empty).draft.attributes.getD []

/-- **The trail of an error is the way to the problem.** Every fault of adding content belongs to
the first leaf with one, depth first. The path of that leaf leads to the sequence that holds it, and
the error has one frame for each position of the path, behind the trail that it may have brought
along; all frames show the attributes as they stand when the call stops. The same goes for the
content of an element, and for that of a fragment, whose frames show no attributes. -/
theorem fault_trailed :
    (∀ (site : Site) (content : Value) (d d' : Draft) (f : Fault), content.steps?.isSome →
      append site content d = .stopped d' f →
        Trailed site d.room content (d'.attributes.getD []) f) ∧
    (∀ (name : String) (content : List Value) (keywords : List (String × Value)) (f : Fault),
      (element (.str name) content keywords).outcome = .error f →
        Trailed (.element name) true (.tuple content) (attributesLeft name content) f) ∧
    ∀ (content : List Value) (f : Fault), (fragment content).outcome = .error f →
      Trailed .root false (.tuple content) [] f := by
  refine ⟨fun site content d d' f h hs => trailed_of_stopped h hs,
    fun name content keywords f h => ?_, fun content f h => ?_⟩
  · obtain ⟨d', hs⟩ := stopped_of_outcome h
    rw [appendItems_eq_append] at hs
    have := trailed_of_stopped rfl hs
    rwa [show d'.attributes.getD [] = attributesLeft name content by
      rw [attributesLeft, hs]; rfl] at this
  · rw [fragment, nodes, bind_assoc] at h
    obtain ⟨d', hs⟩ := stopped_of_outcome h
    rw [appendItems_eq_append] at hs
    have := trailed_of_stopped rfl hs
    rw [append_eq_runLeaves rfl] at hs
    obtain ⟨before, l, -, -, rfl, -⟩ := firstFault_of_stopped hs
    rwa [draftAt, after_attributes, afterAll_attributes] at this

/-- The error of `nestedSample` inside an element: the attributes shown hold what the bad record
wrote before its bad entry. -/
def nestedError : BuildError :=
  ⟨.attributeValue "n" (Site.element "p").label "int",
    pathFrames (some "p") [(.str "id", .str "a"), (.str "class", .str "b")] [0, 1, 1]⟩

/-- An error that brings a trail of its own out of a stream. -/
def raisedError (frames : List Frame) : BuildError := ⟨.tagContent "int", ⟨"ul", [], 2⟩ :: frames⟩

theorem fault_trailed_nested :
    (element (.str "p") [nestedSample] []).outcome = .error (.build nestedError) ∧
    Trailed (.element "p") true (.tuple [nestedSample]) (attributesLeft "p" [nestedSample])
      (.build nestedError) ∧
    append (.element "") (.list [.null, .stream 0 [.fail (.build (raisedError []))]]) .empty =
      .stopped .empty (.build (raisedError (pathFrames (some "") [] [1]))) ∧
    Trailed (.element "") true (.list [.null, .stream 0 [.fail (.build (raisedError []))]]) []
      (.build (raisedError (pathFrames (some "") [] [1]))) ∧
    (fragment [.list [.null, .int 1]]).outcome =
      .error (.build ⟨.childType "root" "int", pathFrames none [] [0]⟩) ∧
    Trailed .root false (.tuple [.list [.null, .int 1]]) []
      (.build ⟨.childType "root" "int", pathFrames none [] [0]⟩) :=
  ⟨rfl, fault_trailed.2.1 _ _ [] _ rfl, rfl, fault_trailed.1 _ _ .empty .empty _ rfl rfl, rfl,
    fault_trailed.2.2 _ _ rfl⟩

end Hypertext.Content
