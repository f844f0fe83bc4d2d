import Hypertext.Proofs.Content.Attributes
import Hypertext.Proofs.Content.Joined
import Hypertext.Proofs.Content.Nodes

/-!
# Content spliced in

Content can be made into a fragment before it is put to use, it can be put to use as one sequence,
or item by item. The fragment is dissolved one level deep, the sequence is gone through, the items
are taken as they are, and the place is another one each time; what is built around them comes out
the same all the same.

* `stepFault?_congr`: only of records does it matter where they stand.
* `appendItems_agrees`: adding items to drafts that agree, at whatever positions.
* `Lands`: content that is accepted wherever it stands, and adds the same nodes everywhere. Content
  that makes a fragment is such content (`lands_of_nodes`).
* **`fragment_transparent`**: the three ways to put content to use.
-/

namespace Hypertext

/-! ## Agreement, step by step -/

theorem Progress.Agrees.refl (p : Progress) : p.Agrees p := by
  cases p with
  | done d => exact .done (.refl d)
  | stopped d f => exact .stopped (.refl d) rfl

theorem Draft.Agrees.trans {d d' d'' : Draft} (h : d.Agrees d') (h' : d'.Agrees d'') :
    d.Agrees d'' := ⟨h.nodes.trans h'.nodes, h.attributes.trans h'.attributes⟩

theorem Progress.Agrees.trans {p p' p'' : Progress} (h : p.Agrees p') (h' : p'.Agrees p'') :
    p.Agrees p'' := by
  cases h with
  | done h =>
    cases h' with
    | done h' => exact .done (h.trans h')
  | stopped h hf =>
    cases h' with
    | stopped h' hf' => exact .stopped (h.trans h') (hf.trans hf')

theorem Progress.Agrees.andThen {p p' : Progress} {next next' : Draft → Progress}
    (h : p.Agrees p') (hn : ∀ d d', d.Agrees d' → (next d).Agrees (next' d')) :
    (p.andThen next).Agrees (p'.andThen next') := by
  cases h with
  | done h => exact hn _ _ h
  | stopped h hf => exact .stopped h hf

theorem Fault.bare_later (k : Nat) (f : Fault) : (f.later k).bare = f.bare := by
  cases f <;> rfl

theorem Progress.Agrees.later {p p' : Progress} (h : p.Agrees p') (k k' : Nat) :
    (p.later k).Agrees (p'.later k') := by
  cases h with
  | done h => exact .done h
  | stopped h hf => exact .stopped h (by rw [Fault.bare_later, Fault.bare_later, hf])

namespace Content

theorem Like.refl : ∀ ls : List Leaf, Like ls ls
  | [] => .nil
  | ⟨_, .item _⟩ :: rest => .item (.refl rest)
  | ⟨_, .note _⟩ :: rest => .noteLeft (.noteRight (.refl rest))
  | ⟨_, .fail _⟩ :: rest => .fail rest rest

/-- **Adding items to drafts that agree** agrees, also at other positions. -/
theorem appendItems_agrees {d d' : Draft} (h : d.Agrees d') (site : Site) (i j : Nat)
    (vs : List Value) : (appendItems site i vs d).Agrees (appendItems site j vs d') := by
  have first : (appendItems site 0 vs d).Agrees (appendItems site 0 vs d') := by
    rw [appendItems_eq_runLeaves, appendItems_eq_runLeaves]
    exact runLeaves_agrees site (.refl _) h
  have := first.later i j
  rwa [← appendItems_later, ← appendItems_later, Nat.zero_add, Nat.zero_add] at this

/-! ## Content without records -/

/-- The step gives a record. -/
def isRecord : Step → Bool
  | .item (.record _) => true
  | _ => false

/-- **Only of records does it matter where they stand**: any other step can be taken everywhere or
nowhere. -/
theorem stepFault?_congr {s : Step} (h : isRecord s = false) (site site' : Site)
    (room room' : Bool) : stepFault? site room s = none ↔ stepFault? site' room' s = none := by
  cases s with
  | item v =>
    cases v with
    | record entries => cases h
    | _ => simp [stepFault?, refusal?]
  | note e => exact Iff.rfl
  | fail f => exact Iff.rfl

/-- The root takes no record. -/
theorem isRecord_of_faultless {site : Site} {s : Step} (h : stepFault? site false s = none) :
    isRecord s = false := by
  cases s with
  | item v =>
    cases v with
    | record entries => cases h
    | _ => rfl
  | note e => rfl
  | fail f => rfl

theorem stepEntries_of_not_record {s : Step} (h : isRecord s = false) : stepEntries s = [] := by
  cases s with
  | item v =>
    cases v with
    | record entries => cases h
    | _ => rfl
  | note e => rfl
  | fail f => rfl

/-- Leaves that are no records add their nodes only. -/
theorem afterAll_agrees {ls : List Leaf} (h : ∀ l ∈ ls, isRecord l.step = false) (d : Draft) :
    (d.afterAll ls).Agrees (d.add (ls.flatMap fun l => stepNodes l.step)) := by
  refine ⟨afterAll_nodes ls d, ?_⟩
  have nothing : (ls.flatMap fun l => stepEntries l.step) = [] :=
    List.flatMap_eq_nil_iff.mpr fun l hl => stepEntries_of_not_record (h l hl)
  rw [afterAll_attributes, nothing]
  show d.attributes.map id = d.attributes
  rw [Option.map_id_apply]

/-- Content is taken in iff no leaf of it has a fault. -/
theorem exists_done_iff {site : Site} {vs : List Value} {d : Draft} :
    (∃ d', appendItems site 0 vs d = .done d') ↔
      ∀ l ∈ listLeaves [] 0 vs, stepFault? site d.room l.step = none := by
  rw [appendItems_eq_runLeaves]
  rcases firstFault_or site d.room (listLeaves [] 0 vs) with hs | ⟨before, l, f, hf⟩
  · exact iff_of_true ⟨_, runLeaves_done hs⟩ hs
  · rw [runLeaves_stopped hf]
    obtain ⟨rest, hsplit⟩ := hf.split
    refine iff_of_false nofun fun h => ?_
    have := h l (by simp [hsplit])
    rw [hf.fault] at this
    cases this

/-! ## Content that is accepted everywhere -/

/-- Wherever the content stands, it is accepted and adds the nodes. -/
def Lands (content ns : List Value) : Prop :=
  ∀ (site : Site) (i : Nat) (d : Draft), (appendItems site i content d).Agrees (.done (d.add ns))

theorem done_of_nodes {vs ns : List Value} (h : (nodes vs).outcome = .ok ns) :
    ∃ d, appendItems .root 0 vs (.ofNodes []) = .done d ∧ d.nodes = ns := by
  unfold nodes at h
  cases hp : appendItems .root 0 vs (.ofNodes []) with
  | done d =>
    rw [hp] at h
    exact ⟨d, rfl, Except.ok.inj h⟩
  | stopped d f =>
    rw [hp] at h
    cases h

/-- **Content that makes a fragment** is accepted everywhere: what is accepted at the root, where
there are no attributes, holds no record. -/
theorem lands_of_nodes {vs ns : List Value} (h : (nodes vs).outcome = .ok ns) : Lands vs ns := by
  obtain ⟨d₀, hd, hn⟩ := done_of_nodes h
  have faultless := exists_done_iff.mp ⟨d₀, hd⟩
  have plain : ∀ l ∈ listLeaves [] 0 vs, isRecord l.step = false := fun l hl =>
    isRecord_of_faultless (faultless l hl)
  have built : ns = (listLeaves [] 0 vs).flatMap fun l => stepNodes l.step := by
    rw [← hn, nodes_of_done hd]
    rfl
  intro site i d
  have done : appendItems site 0 vs d = .done (d.afterAll (listLeaves [] 0 vs)) := by
    rw [appendItems_eq_runLeaves]
    exact runLeaves_done fun l hl => (stepFault?_congr (plain l hl) _ _ _ _).mp (faultless l hl)
  have later := appendItems_later site i 0 vs d
  rw [Nat.zero_add, done] at later
  rw [later, built]
  exact .done (afterAll_agrees plain d)

theorem Lands.exists_done {content ns : List Value} (h : Lands content ns) (site : Site) (i : Nat)
    (d : Draft) : ∃ m, appendItems site i content d = .done m ∧ m.Agrees (d.add ns) := by
  have landed := h site i d
  cases hp : appendItems site i content d with
  | done m =>
    rw [hp] at landed
    cases landed with
    | done hm => exact ⟨m, rfl, hm⟩
  | stopped m f =>
    rw [hp] at landed
    cases landed

theorem lands_nodes {vs : List Value} (h : ∀ v ∈ vs, ∃ n, v = .node n) :
    Lands vs (vs.flatMap leafNodes) := by
  intro site i d
  rw [appendItems_nodes h]
  exact .refl _

theorem lands_fragment (ns : List Value) : Lands [.node (.fragment ns)] ns := fun _ _ d =>
  .done (.refl (d.add ns))

theorem Lands.append {vs ws ns ms : List Value} (h : Lands vs ns) (h' : Lands ws ms) :
    Lands (vs ++ ws) (ns ++ ms) := by
  intro site i d
  rw [appendItems_append, ← add_add]
  have behind := (h site i d).andThen fun _ _ hm =>
    appendItems_agrees hm site (i + vs.length) (i + vs.length) ws
  exact behind.trans (h' site _ (d.add ns))

/-- A sequence is accepted if its items are. -/
theorem Lands.sequence {vs ns : List Value} (h : Lands vs ns) {v : Value}
    (hv : ∀ (site : Site) (i : Nat) (d : Draft),
      appendItem site i v d = (appendItems site 0 vs d).within site i) : Lands [v] ns := by
  intro site i d
  obtain ⟨m, hp, hm⟩ := h.exists_done site 0 d
  rw [appendItems, hv, hp]
  exact .done hm

theorem appendSteps_items (site : Site) : ∀ (i : Nat) (vs : List Value) (d : Draft),
    appendSteps site i (vs.map .item) d = appendItems site i vs d
  | _, [], _ => rfl
  | i, v :: rest, d => by
    rw [List.map_cons, appendSteps, appendItems]
    congr 1
    funext m
    exact appendSteps_items site (i + 1) rest m

/-- The ways to put content to use: item by item, or as one value. -/
inductive Uses (content : List Value) : List Value → Prop
  | items : Uses content content
  | list : Uses content [.list content]
  | tuple : Uses content [.tuple content]
  | stream (id : Nat) : Uses content [.stream id (content.map .item)]

theorem Uses.lands {content mid ns : List Value} (hm : Uses content mid) (h : Lands content ns) :
    Lands mid ns := by
  cases hm with
  | items => exact h
  | list => exact h.sequence fun _ _ _ => rfl
  | tuple => exact h.sequence fun _ _ _ => rfl
  | stream id =>
    refine h.sequence fun site i d => ?_
    rw [appendItem, appendSteps_items]

/-! ## Content in the middle -/

/-- Content in front and behind, with nodes between them. -/
def around (site : Site) (pre ns post : List Value) (d : Draft) : Progress :=
  (appendItems site 0 pre d).andThen fun m => appendItems site 0 post (m.add ns)

/-- **Content between other content** counts by its nodes only. -/
theorem Lands.between {mid ns : List Value} (h : Lands mid ns) (site : Site)
    (pre post : List Value) (d : Draft) :
    (appendItems site 0 (pre ++ mid ++ post) d).Agrees (around site pre ns post d) := by
  rw [appendItems_append, appendItems_append, Progress.andThen_assoc]
  refine (Progress.Agrees.refl _).andThen fun m m' hm => ?_
  have landed := (h site (0 + pre.length) m).andThen fun _ _ hl =>
    appendItems_agrees hl site (0 + (pre ++ mid).length) 0 post
  have same : (m.add ns).Agrees (m'.add ns) := ⟨congrArg (· ++ ns) hm.nodes, hm.attributes⟩
  exact landed.trans (appendItems_agrees same site _ _ post)

/-- What comes out as an element; of a fault, only what it says. -/
def bareElement (name : Value) (content : List Value) (keywords : List (String × Value)) :
    Except Fault Node := (element name content keywords).outcome.mapError Fault.bare

/-- What comes out as an element, given how far adding its content got. -/
def finish (name : String) (keywords : List (String × Value)) : Progress → Except Fault Node
  | .done d => .ok (.element (.str name) (putKeywords keywords (d.attributes.getD [])) d.nodes)
  | .stopped _ f => .error f.bare

theorem bareElement_eq (name : String) (content : List Value) (keywords : List (String × Value)) :
    bareElement (.str name) content keywords =
      finish name keywords (appendItems (.element name) 0 content .empty) := by
  rw [bareElement, element, Traced.outcome_bind]
  cases appendItems (.element name) 0 content .empty <;> rfl

theorem finish_agrees {p p' : Progress} (h : p.Agrees p') (name : String)
    (keywords : List (String × Value)) : finish name keywords p = finish name keywords p' := by
  cases h with
  | done h => rw [finish, finish, h.nodes, h.attributes]
  | stopped h hf => rw [finish, finish, hf]

/-- An element of content that is accepted everywhere. -/
theorem element_of_lands {content ns : List Value} (h : Lands content ns) (name : String)
    (keywords : List (String × Value)) : (element (.str name) content keywords).outcome =
      .ok (.element (.str name) (putKeywords keywords []) ns) := by
  obtain ⟨d, hp, hd⟩ := h.exists_done (.element name) 0 .empty
  rw [element, Traced.outcome_bind, hp]
  show Except.ok (Node.element _ (putKeywords keywords (d.attributes.getD [])) d.nodes) = _
  rw [hd.nodes, hd.attributes]
  rfl

theorem leaves_tuple (vs : List Value) : leaves (.tuple vs) = listLeaves [] 0 vs :=
  (listLeaves_eq [] 0 vs).symm

/-- **Content without records** makes an element iff it makes a fragment. -/
theorem exists_nodes_of_element {name : Value} {content : List Value}
    {keywords : List (String × Value)} {n : Node} (hr : records content = [])
    (h : (element name content keywords).outcome = .ok n) :
    ∃ ns, (nodes content).outcome = .ok ns := by
  obtain ⟨label, rfl⟩ := exists_label h
  obtain ⟨written, taken, -⟩ := outcome_element.mp h
  have faultless := faultless_iff.mpr ⟨written, taken⟩
  have plain : ∀ s ∈ flat (.tuple content), isRecord s = false := by
    intro s hs
    have none := List.filterMap_eq_nil_iff.mp hr s hs
    cases s with
    | item v =>
      cases v with
      | record entries => cases none
      | _ => rfl
    | note e => rfl
    | fail f => rfl
  have atRoot : ∀ l ∈ listLeaves [] 0 content, stepFault? .root false l.step = none := by
    intro l hl
    have hs : l.step ∈ flat (.tuple content) := List.mem_map_of_mem (leaves_tuple content ▸ hl)
    exact (stepFault?_congr (plain _ hs) _ _ _ _).mp (faultless _ hs)
  obtain ⟨d, hd⟩ := exists_done_iff (d := .ofNodes []).mpr atRoot
  refine ⟨d.nodes, ?_⟩
  unfold nodes
  rw [hd]
  rfl

/-- **Content in the middle of an element** counts by its nodes only. -/
theorem bareElement_between {mid other ns : List Value} (h : Lands mid ns) (h' : Lands other ns)
    (name : Value) (pre post : List Value) (keywords : List (String × Value)) :
    bareElement name (pre ++ mid ++ post) keywords =
      bareElement name (pre ++ other ++ post) keywords := by
  cases name with
  | str name =>
    rw [bareElement_eq, bareElement_eq, finish_agrees (h.between _ pre post _),
      finish_agrees (h'.between _ pre post _)]
  | _ => rfl

/-- **Making a fragment first changes nothing.** If content makes a fragment, then an element of
other content around the fragment comes out as one around the content itself, item by item or as one
sequence: both are the same element, with one order of attributes, or both are refused for the same
cause. A fragment of the fragment alone is the fragment. -/
theorem fragment_transparent {content : List Value} {n : Node}
    (h : (fragment content).outcome = .ok n) :
    (∀ (name : Value) (pre post : List Value) (keywords : List (String × Value)) (mid : List Value),
      Uses content mid →
        bareElement name (pre ++ mid ++ post) keywords =
          bareElement name (pre ++ [.node n] ++ post) keywords) ∧
    (fragment [.node n]).outcome = .ok n := by
  rw [fragment, Traced.outcome_bind] at h
  obtain ⟨ns, hns, hn⟩ := exists_of_bind_ok h
  cases hn
  refine ⟨fun name pre post keywords mid hm => ?_, rfl⟩
  have landed : Lands mid ns := hm.lands (lands_of_nodes hns)
  exact bareElement_between landed (lands_fragment ns) name pre post keywords

/-- Content with a fragment in a fragment, two sequences deep. -/
def splicedContent : List Value :=
  [.null, .list [.stream 0 [.note (.wroteFragment 0), .item (.node (.fragment
    [.node (.fragment [.ofText "a"])]))]], .str "b"]

/-- Its fragment, which is dissolved one level deep. -/
def splicedFragment : Node := .fragment [.node (.fragment [.ofText "a"]), .ofText "b"]

theorem fragment_transparent_nested :
    (fragment splicedContent).outcome = .ok splicedFragment ∧
    bareElement (.str "p") ([.record [(.str "id", .str "x")]] ++ [.list splicedContent] ++
      [.str "c"]) [("lang_", .str "en")] =
        bareElement (.str "p") ([.record [(.str "id", .str "x")]] ++ [.node splicedFragment] ++
          [.str "c"]) [("lang_", .str "en")] ∧
    bareElement (.str "p") ([.record [(.str "id", .str "x")]] ++ [.node splicedFragment] ++
      [.str "c"]) [("lang_", .str "en")] =
        .ok (.element (.str "p") [(.str "id", .str "x"), (.str "lang", .str "en")]
          [.node (.fragment [.ofText "a"]), .ofText "b", .ofText "c"]) ∧
    bareElement (.str "p") ([] ++ splicedContent ++ [.list [.int 1]]) [] =
      bareElement (.str "p") ([] ++ [.node splicedFragment] ++ [.list [.int 1]]) [] ∧
    bareElement (.str "p") ([] ++ [.node splicedFragment] ++ [.list [.int 1]]) [] =
      .error (.build (.of (.childType "<p>" "int"))) ∧
    (fragment [.node splicedFragment]).outcome = .ok splicedFragment := by
  have made : (fragment splicedContent).outcome = .ok splicedFragment := rfl
  obtain ⟨law, again⟩ := fragment_transparent made
  exact ⟨made, law _ _ _ _ _ .list, rfl, law _ _ _ _ _ .items, rfl, again⟩

end Content

end Hypertext
