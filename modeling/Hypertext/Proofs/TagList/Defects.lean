import Hypertext.Proofs.TagList.Meaning

/-!
# Where a tag list fails

An error of a tag list (`tag`) has a frame for each list around the one at fault, innermost first.
`Located` follows the frames from the outermost list inwards: at each of them, the items in front
of the frame's position make an element that is named and has attributes as the frame says, and the
item at the position is a list, which the next frame is about. The list at the end fails by itself.

`defects` lists all that is wrong with a tag list, depth first and from left to right, without
stopping anywhere.

* `located_of_error`: frames are true. The induction is on the trail, from its outer end.
* `reports_element`: the error is about the first defect, and there is none if there is no defect.
* **`tag_fault_located`** puts the two together.
-/

namespace Hypertext

/-- The items of a list or a tuple that stand in front of position `i`, as a list or a tuple. -/
def Value.upTo (i : Nat) : Value → Value
  | .list items => .list (items.take i)
  | .tuple items => .tuple (items.take i)
  | v => v

namespace TagList

variable {name : String} {i : Nat} {c : Collected} {cause : BuildCause}

/-! ## Following the frames -/

/-- The frames, outermost first, lead from the tag list `v` to one that fails by itself. -/
def Located (cause : BuildCause) : Value → List Frame → Prop
  | v, [] => (tag v).outcome = .error (.build (.of cause))
  | v, f :: inner => ∃ (i : Nat) (items : List Value) (u : Value) (children : List Value),
      f.index = i ∧ v.sequence? = some items ∧
      (tag (v.upTo i)).outcome = .ok (.element (.str f.element) f.attributes children) ∧
      items[i]? = some u ∧ u.sequence?.isSome ∧ Located cause u inner

theorem outcome_tag_error {v : Value} {f : Fault} : (tag v).outcome = .error f ↔
    ∃ e, f = .build e ∧ element v = .error e := by
  unfold tag
  cases element v with
  | ok n => exact ⟨nofun, fun ⟨_, _, h⟩ => nomatch h⟩
  | error e =>
    constructor
    · rintro ⟨⟩
      exact ⟨e, rfl, rfl⟩
    · rintro ⟨_, rfl, ⟨⟩⟩
      rfl

/-- A run of items fails at one of them, with all before it taken in. -/
theorem exists_of_collect_error {vs : List Value} {e : BuildError}
    (h : collect name i vs c = .error e) : ∃ before v after d, vs = before ++ v :: after ∧
      collect name i before c = .ok d ∧ collectItem name (i + before.length) v d = .error e := by
  induction vs generalizing i c with
  | nil => cases h
  | cons v vs ih =>
    rw [collect] at h
    cases hv : collectItem name i v c with
    | error e' =>
      rw [hv] at h
      cases h
      exact ⟨[], v, vs, c, rfl, rfl, hv⟩
    | ok d =>
      rw [hv] at h
      obtain ⟨before, u, after, d', rfl, hb, hu⟩ := ih h
      refine ⟨v :: before, u, after, d', rfl, ?_, ?_⟩
      · rw [collect, hv]
        exact hb
      · rw [List.length_cons, Nat.add_comm before.length, ← Nat.add_assoc]
        exact hu

/-- An item whose error has a frame is a list, and the frame is that of the list around. -/
theorem collectItem_error {v : Value} {trail : List Frame} {f : Frame}
    (h : collectItem name i v c = .error ⟨cause, trail ++ [f]⟩) :
    f = ⟨name, c.attributes, i⟩ ∧
      ∃ items, v.sequence? = some items ∧ build items = .error ⟨cause, trail⟩ := by
  have bare {d : BuildCause} : (Except.error (.of d) : Except BuildError Collected) ≠
      .error ⟨cause, trail ++ [f]⟩ := by
    intro h
    have empty : [] = trail ++ [f] := congrArg BuildError.trail (Except.error.inj h)
    simp at empty
  cases v with
  | list items | tuple items =>
    rw [collectItem_sequence rfl] at h
    cases hb : build items with
    | ok n =>
      rw [hb] at h
      cases h
    | error e =>
      rw [hb] at h
      have eq : e.within ⟨name, c.attributes, i⟩ = ⟨cause, trail ++ [f]⟩ := Except.error.inj h
      obtain ⟨cause', trail'⟩ := e
      obtain ⟨rfl, frames⟩ := BuildError.mk.inj eq
      obtain ⟨rfl, last⟩ := List.append_inj' frames rfl
      exact ⟨(List.cons.inj last).1.symm, items, rfl, hb⟩
  | record entries =>
    rw [collectItem] at h
    cases ha : addRecord name entries c.attributes with
    | ok a =>
      rw [ha] at h
      cases h
    | error d =>
      rw [ha] at h
      exact absurd h bare
  | null | str _ | node _ => cases h
  | _ => exact absurd h bare

/-- **The outermost frame is true** of the list that it is about. -/
theorem exists_of_build_error {items : List Value} {trail : List Frame} {f : Frame}
    (h : build items = .error ⟨cause, trail ++ [f]⟩) :
    ∃ (i : Nat) (u : Value) (inner children : List Value), f.index = i ∧
      build (items.take i) = .ok (.element (.str f.element) f.attributes children) ∧
      items[i]? = some u ∧ u.sequence? = some inner ∧
      build inner = .error ⟨cause, trail⟩ := by
  have bare {d : BuildCause} : (Except.error (.of d) : Except BuildError Node) ≠
      .error ⟨cause, trail ++ [f]⟩ := by
    intro h
    have empty : [] = trail ++ [f] := congrArg BuildError.trail (Except.error.inj h)
    simp at empty
  cases items with
  | nil => exact absurd h bare
  | cons first rest =>
    cases first with
    | str name =>
      rw [build] at h
      cases hc : collect name 1 rest ⟨[], []⟩ with
      | ok d =>
        rw [hc] at h
        cases h
      | error e =>
        rw [hc] at h
        cases h
        obtain ⟨before, v, after, d, rfl, hb, hv⟩ := exists_of_collect_error hc
        obtain ⟨rfl, inner, hs, hi⟩ := collectItem_error hv
        have position : 1 + before.length = (Value.str name :: before).length := by
          rw [List.length_cons, Nat.add_comm]
        refine ⟨1 + before.length, v, inner, d.children, rfl, ?_, ?_, hs, hi⟩
        · show build ((Value.str name :: before ++ v :: after).take (1 + before.length)) = _
          rw [position, List.take_left, build, hb]
          rfl
        · show (Value.str name :: before ++ v :: after)[1 + before.length]? = _
          rw [position]
          simp
    | _ => exact absurd h bare

theorem sequence?_upTo {v : Value} {items : List Value} (h : v.sequence? = some items) (i : Nat) :
    (v.upTo i).sequence? = some (items.take i) := by
  cases v with
  | list _ | tuple _ =>
    cases h
    rfl
  | _ => cases h

/-- **Frames are true**, all the way in. -/
theorem located_of_error {spec : Value} {trail : List Frame}
    (h : element spec = .error ⟨cause, trail⟩) : Located cause spec trail.reverse := by
  induction trail using List.reverseRecOn generalizing spec with
  | nil => exact outcome_tag_error.mpr ⟨_, rfl, h⟩
  | append_singleton trail f ih =>
    cases hs : spec.sequence? with
    | none =>
      cases spec with
      | list _ | tuple _ => cases hs
      | _ =>
        have empty : [] = trail ++ [f] := congrArg BuildError.trail (Except.error.inj h)
        simp at empty
    | some items =>
      rw [element_of_sequence hs] at h
      obtain ⟨i, u, inner, children, position, built, hu, hi, he⟩ := exists_of_build_error h
      rw [List.reverse_append, List.reverse_singleton, List.singleton_append]
      refine ⟨i, items, u, children, position, hs, ?_, hu, by rw [hi]; rfl, ih ?_⟩
      · exact outcome_tag.mpr ⟨_, sequence?_upTo hs _, built⟩
      · rw [element_of_sequence hi, he]

/-! ## All that is wrong -/

/-- Something that is wrong with a tag list: the positions that lead to the list at fault, and the
cause. -/
structure Defect where
  path : List Nat
  cause : BuildCause
  deriving DecidableEq, Repr

/-- A defect seen from the list around. -/
def Defect.within (i : Nat) (d : Defect) : Defect := { d with path := i :: d.path }

/-- What is wrong with an entry of a record. -/
def entryDefect? (name : String) : Value × Value → Option Defect
  | (.str _, .str _) => none
  | (k, v) => some ⟨[], .tagAttribute k.literal v.literal name⟩

mutual

/-- What is wrong with a tag list, given by its items. One without a name is not looked into. -/
def listDefects : List Value → List Defect
  | [] => [⟨[], .tagName Value.null.literal⟩]
  | .str name :: rest => itemsDefects name 1 rest
  | first :: _ => [⟨[], .tagName first.literal⟩]

/-- What is wrong with items, the first of which has position `i`. -/
def itemsDefects (name : String) (i : Nat) : List Value → List Defect
  | [] => []
  | v :: rest => itemDefects name i v ++ itemsDefects name (i + 1) rest

/-- What is wrong with the item at position `i`. -/
def itemDefects (name : String) (i : Nat) : Value → List Defect
  | .null | .str _ | .node _ => []
  | .list items => (listDefects items).map (.within i)
  | .tuple items => (listDefects items).map (.within i)
  | .record entries => entries.filterMap (entryDefect? name)
  | v => [⟨[], .tagContent v.typeName⟩]

end

/-- All that is wrong with a tag list, depth first and from left to right. -/
def defects (spec : Value) : List Defect :=
  match spec.sequence? with
  | some items => listDefects items
  | none => [⟨[], .notATagList⟩]

/-! ## The first defect is reported -/

/-- The frames of the error are the path of the defect, innermost first. -/
def Defect.Of (d : Defect) (e : BuildError) : Prop :=
  d.cause = e.cause ∧ e.trail.map Frame.index = d.path.reverse.map fun i : Nat => (i : Int)

/-- An error of the first defect, or a result if there is none. -/
inductive Reports {α : Type} : Except BuildError α → List Defect → Prop
  | ok (a : α) : Reports (.ok a) []
  | error {e : BuildError} {d : Defect} (more : List Defect) (h : d.Of e) :
      Reports (.error e) (d :: more)

namespace Reports

variable {α β : Type} {x : Except BuildError α} {ds es : List Defect}

theorem of_cause (cause : BuildCause) (more : List Defect) :
    Reports (.error (.of cause) : Except BuildError α) (⟨[], cause⟩ :: more) :=
  .error more ⟨rfl, rfl⟩

/-- One thing after another. What comes first is reported first. -/
theorem bind {f : α → Except BuildError β} (hx : Reports x ds) (hf : ∀ a, Reports (f a) es) :
    Reports (x >>= f) (ds ++ es) := by
  cases hx with
  | ok a => exact hf a
  | error more h => exact .error (more ++ es) h

/-- One list further out. -/
theorem within {x : Except BuildError Node} (h : Reports x ds) (g : Node → β) (name : String)
    (a : Record) (i : Nat) :
    Reports ((TagList.within ⟨name, a, i⟩ x).map g) (ds.map (.within i)) := by
  cases h with
  | ok n => exact .ok (g n)
  | @error e d more h =>
    refine .error _ ⟨h.1, ?_⟩
    show (e.trail ++ [(⟨name, a, i⟩ : Frame)]).map Frame.index = _
    rw [List.map_append, h.2]
    simp [Defect.within]

theorem ok_iff (h : Reports x ds) : (∃ a, x = .ok a) ↔ ds = [] := by
  cases h with
  | ok a => exact iff_of_true ⟨a, rfl⟩ rfl
  | error more h => exact iff_of_false nofun nofun

theorem head?_eq {e : BuildError} (h : Reports (.error e : Except BuildError α) ds) :
    ∃ d, ds.head? = some d ∧ d.Of e := by
  cases h with
  | error more h => exact ⟨_, rfl, h⟩

end Reports

theorem reports_addRecord (entries : Record) (a : Record) :
    Reports (match addRecord name entries a with
      | .ok a => .ok { c with attributes := a }
      | .error cause => .error (.of cause)) (entries.filterMap (entryDefect? name)) := by
  induction entries generalizing a with
  | nil => exact .ok _
  | cons e entries ih =>
    obtain ⟨k, v⟩ := e
    cases k with
    | str key =>
      cases v with
      | str value => exact ih (Record.put key (.str value) a)
      | _ => exact .of_cause _ _
    | _ => exact .of_cause _ _

mutual

theorem reports_build : ∀ items : List Value, Reports (build items) (listDefects items)
  | [] => .of_cause _ _
  | first :: rest => by
    cases first with
    | str name =>
      rw [build, listDefects, ← List.append_nil (itemsDefects name 1 rest)]
      exact (reports_collect name 1 rest ⟨[], []⟩).bind fun _ => .ok _
    | _ => exact .of_cause _ _

theorem reports_collect (name : String) (i : Nat) : ∀ (vs : List Value) (c : Collected),
    Reports (collect name i vs c) (itemsDefects name i vs)
  | [], c => .ok c
  | v :: rest, c => by
    rw [collect, itemsDefects]
    exact (reports_collectItem name i v c).bind fun d => reports_collect name (i + 1) rest d

theorem reports_collectItem (name : String) (i : Nat) : ∀ (v : Value) (c : Collected),
    Reports (collectItem name i v c) (itemDefects name i v)
  | .list items, c => (reports_build items).within c.add name c.attributes i
  | .tuple items, c => (reports_build items).within c.add name c.attributes i
  | .record entries, c => reports_addRecord entries c.attributes
  | .null, _ | .str _, _ | .node _, _ => .ok _
  | .bool _, _ | .int _, _ | .float _, _ | .nan _, _ | .bytes _, _ | .byteArray _, _
  | .range _ _, _ | .opaqueObject _, _ | .component _, _ | .stream _ _, _ | .error _ _, _ =>
    .of_cause _ _

end

/-- **The error is about the first defect**, and there is none without a defect. -/
theorem reports_element (spec : Value) : Reports (element spec) (defects spec) := by
  unfold defects
  cases hs : spec.sequence? with
  | some items =>
    rw [element_of_sequence hs]
    exact reports_build items
  | none =>
    cases spec with
    | list _ | tuple _ => cases hs
    | _ => exact .of_cause _ _

/-- **The trail of a tag list's error leads to the problem.** Nothing but errors of building come
out of a tag list. The frames of an error, from the outermost one inwards, lead from list to list:
what stands in front of a frame's position is accepted and means an element with the name and the
attributes of the frame, and what stands at the position is a list. The last list fails by itself,
for the same cause and without frames. Of all defects of the tag list the error is about the first,
depth first and from left to right; and a tag list without defects is accepted. -/
theorem tag_fault_located :
    (∀ (spec : Value) (f : Fault), (tag spec).outcome = .error f →
      ∃ e, f = .build e ∧ Located e.cause spec e.trail.reverse ∧
        ∃ d, (defects spec).head? = some d ∧ d.Of e) ∧
    ∀ spec : Value, (∃ n, (tag spec).outcome = .ok n) ↔ defects spec = [] := by
  refine ⟨fun spec f h => ?_, fun spec => ?_⟩
  · obtain ⟨⟨cause, trail⟩, rfl, he⟩ := outcome_tag_error.mp h
    have reported := reports_element spec
    rw [he] at reported
    exact ⟨_, rfl, located_of_error he, reported.head?_eq⟩
  · rw [← (reports_element spec).ok_iff]
    unfold tag
    cases element spec with
    | ok n => exact iff_of_true ⟨n, rfl⟩ ⟨n, rfl⟩
    | error e => exact iff_of_false nofun nofun

/-- A list two deep with a bad entry in it, behind a class name and in front of other defects. -/
def faultySpec : Value :=
  .list [.str "div", .null, .record [(.str "id", .str "d")],
    .tuple [.str "p", .str "lead",
      .list [.str "b", .str "x", .record [(.str "n", .int 1)]], .int 2],
    .list []]

/-- Its error. -/
def faultyError : BuildError :=
  ⟨.tagAttribute "'n'" "1" "b",
    [⟨"p", [(.str "class", .str "lead")], 2⟩, ⟨"div", [(.str "id", .str "d")], 3⟩]⟩

theorem tag_fault_located_faulty : (tag faultySpec).outcome = .error (.build faultyError) ∧
    Located faultyError.cause faultySpec faultyError.trail.reverse ∧
    (∃ d, (defects faultySpec).head? = some d ∧ d.Of faultyError) ∧
    (defects faultySpec).map Defect.path = [[3, 2], [3], [4]] := by
  have failed : (tag faultySpec).outcome = .error (.build faultyError) := by rfl
  obtain ⟨e, h, located, first⟩ := tag_fault_located.1 _ _ failed
  cases h
  exact ⟨failed, located, first, by rfl⟩

end TagList

end Hypertext
