import Hypertext.Proofs.Calls
import Hypertext.Proofs.TagList.Meaning

/-!
# Shallow trees

Fragments dissolve wherever content is built, so no call puts one directly into another. Elements
that are built from content hold no fragments; those of tag lists may, as tag lists take nodes as
they are. A tree is shallow if that is all there is: fragments in elements, but not in fragments.

* `Shallow` is the predicate, and `isFragment` what it forbids inside fragments.
* `forall_leaves`: what holds of the nodes in content, with the fragments among them dissolved,
  holds of all that the content comes to.
* `shallow_element`, `shallow_fragment`, `ShallowItem.of_over`: elements, fragments and tag lists
  over shallow nodes come to shallow nodes.
* **`Built.shallow`**: calls in a row do, by induction on the calls.
-/

namespace Hypertext

open Content

/-! ## The predicate -/

/-- The value is a fragment. -/
def Value.isFragment : Value → Bool
  | .node (.fragment _) => true
  | _ => false

/-- The value is a node in which no fragment stands directly in another. -/
inductive Shallow : Value → Prop
  | text (data : Value) : Shallow (.node (.text data))
  | comment (data : Value) : Shallow (.node (.comment data))
  | raw (data : Value) : Shallow (.node (.raw data))
  | doctype (name : Value) : Shallow (.node (.doctype name))
  | element (name : Value) (a : Record) {children : List Value}
      (hc : ∀ v ∈ children, Shallow v) : Shallow (.node (.element name a children))
  | fragment {children : List Value} (hc : ∀ v ∈ children, Shallow v)
      (hf : ∀ v ∈ children, v.isFragment = false) : Shallow (.node (.fragment children))

/-- What fragments dissolve into: shallow nodes that are no fragments. -/
def Solid (v : Value) : Prop := Shallow v ∧ v.isFragment = false

theorem solid_leafNodes {n : Node} (h : Shallow (.node n)) :
    ∀ u ∈ leafNodes (.node n), Solid u := by
  cases h with
  | text data => exact List.forall_mem_singleton.mpr ⟨.text data, rfl⟩
  | comment data => exact List.forall_mem_singleton.mpr ⟨.comment data, rfl⟩
  | raw data => exact List.forall_mem_singleton.mpr ⟨.raw data, rfl⟩
  | doctype name => exact List.forall_mem_singleton.mpr ⟨.doctype name, rfl⟩
  | element name a hc => exact List.forall_mem_singleton.mpr ⟨.element name a hc, rfl⟩
  | fragment hc hf => exact fun u hu => ⟨hc u hu, hf u hu⟩

/-! ## What content comes to -/

section Leaves

variable {Q : Leaf → Prop}

theorem forall_mem_listLeaves {vs : List Value}
    (h : ∀ v ∈ vs, ∀ path i, ∀ l ∈ itemLeaves path i v, Q l) (path : List Nat) (i : Nat) :
    ∀ l ∈ listLeaves path i vs, Q l := by
  induction vs generalizing i with
  | nil => exact List.forall_mem_nil _
  | cons v vs ih =>
    rw [List.forall_mem_cons] at h
    rw [listLeaves, List.forall_mem_append]
    exact ⟨h.1 path i, ih h.2 (i + 1)⟩

theorem forall_mem_streamLeaves {steps : List Step}
    (h : ∀ v, .item v ∈ steps → ∀ path i, ∀ l ∈ itemLeaves path i v, Q l)
    (note : ∀ path e, Q ⟨path, .note e⟩) (fail : ∀ path f, Q ⟨path, .fail f⟩)
    (path : List Nat) (i : Nat) : ∀ l ∈ streamLeaves path i steps, Q l := by
  induction steps generalizing i with
  | nil => exact List.forall_mem_nil _
  | cons s steps ih =>
    have rest := ih fun v hv => h v (List.mem_cons_of_mem s hv)
    cases s with
    | item v =>
      rw [streamLeaves, List.forall_mem_append]
      exact ⟨h v List.mem_cons_self path i, rest (i + 1)⟩
    | note e =>
      rw [streamLeaves, List.forall_mem_cons]
      exact ⟨note path e, rest i⟩
    | fail f => exact List.forall_mem_singleton.mpr (fail path f)

end Leaves

variable {P : Node → Prop} {F : Fault → Prop} {R : Value → Prop}

/-- **The leaves of content** stand for texts, and for what the nodes in the content dissolve
into. -/
theorem forall_leaves (text : ∀ s, R (.ofText s)) (node : ∀ n, P n → ∀ u ∈ leafNodes (.node n), R u)
    {v : Value} (h : v.Over P F) (path : List Nat) (i : Nat) :
    ∀ l ∈ itemLeaves path i v, ∀ u ∈ stepNodes l.step, R u := by
  induction h generalizing path i with
  | node h => exact List.forall_mem_singleton.mpr (node _ h)
  | list _ ih | tuple _ ih => exact forall_mem_listLeaves ih _ 0
  | record _ _ _ _ => exact List.forall_mem_singleton.mpr (List.forall_mem_nil _)
  | stream _ _ ih =>
    exact forall_mem_streamLeaves ih (fun _ _ => List.forall_mem_nil _)
      (fun _ _ => List.forall_mem_nil _) _ 0
  | @plain v h =>
    cases v with
    | str s => exact List.forall_mem_singleton.mpr (List.forall_mem_singleton.mpr (text s))
    | range start stop =>
      refine List.forall_mem_map.mpr fun u hu => ?_
      obtain ⟨n, rfl⟩ := exists_int_of_mem_intsFrom hu
      exact List.forall_mem_nil _
    | list _ | tuple _ | record _ | stream _ _ | node _ => cases h
    | _ => exact List.forall_mem_singleton.mpr (List.forall_mem_nil _)

/-! ## One call -/

/-- What content over shallow nodes comes to, when it is added to nothing. -/
theorem solid_of_done {site : Site} {content : List Value} {d d' : Draft}
    (h : ∀ v ∈ content, v.Over (fun n => Shallow (.node n)) F) (hd : d.nodes = [])
    (ho : appendItems site 0 content d = .done d') : ∀ u ∈ d'.nodes, Solid u := by
  have leaves := forall_mem_listLeaves (fun v hv =>
    forall_leaves (fun s => ⟨.text _, rfl⟩) (fun _ hn => solid_leafNodes hn) (h v hv)) [] 0
  rw [nodes_of_done ho, hd, List.nil_append]
  exact List.forall_mem_flatMap.mpr leaves

theorem done_of_traced {p : Progress} {d : Draft} (h : p.traced.outcome = .ok d) : p = .done d := by
  cases p with
  | done d' => exact congrArg _ (Except.ok.inj h)
  | stopped d' f => cases h

/-- **An element of content** over shallow nodes is shallow. -/
theorem shallow_element {name : Value} {content : List Value} {keywords : List (String × Value)}
    {n : Node} (h : ∀ v ∈ content, v.Over (fun n => Shallow (.node n)) F)
    (ho : (element name content keywords).outcome = .ok n) : Shallow (.node n) := by
  obtain ⟨label, rfl⟩ := exists_label ho
  rw [element, Traced.outcome_bind] at ho
  obtain ⟨d, hd, ho⟩ := exists_of_bind_ok ho
  cases ho
  exact .element _ _ fun u hu => (solid_of_done h rfl (done_of_traced hd) u hu).1

/-- **A fragment of content** over shallow nodes is shallow. -/
theorem shallow_fragment {content : List Value} {n : Node}
    (h : ∀ v ∈ content, v.Over (fun n => Shallow (.node n)) F)
    (ho : (fragment content).outcome = .ok n) : Shallow (.node n) := by
  simp only [fragment, nodes, Traced.outcome_bind] at ho
  obtain ⟨vs, hvs, ho⟩ := exists_of_bind_ok ho
  obtain ⟨d, hd, hvs⟩ := exists_of_bind_ok hvs
  cases hvs
  cases ho
  have solid := solid_of_done h rfl (done_of_traced hd)
  exact .fragment (fun u hu => (solid u hu).1) fun u hu => (solid u hu).2

/-- The item is a shallow node, or a tag list for one, if it is either. -/
def ShallowItem (v : Value) : Prop :=
  (∀ n, v = .node n → Shallow v) ∧ ∀ n, (tag v).outcome = .ok n → Shallow (.node n)

/-- What the items of a tag list give. -/
theorem shallow_pieces {items : List Value} {pieces : List (List Value)}
    (given : List.Forall₂ TagList.Gives items pieces) (h : ∀ v ∈ items, ShallowItem v) :
    ∀ u ∈ pieces.flatten, Shallow u := by
  induction given with
  | nil => exact List.forall_mem_nil _
  | cons gives _ ih =>
    rw [List.forall_mem_cons] at h
    rw [List.flatten_cons, List.forall_mem_append]
    refine ⟨?_, ih h.2⟩
    cases gives with
    | null | className | record => exact List.forall_mem_nil _
    | node n => exact List.forall_mem_singleton.mpr (h.1.1 n rfl)
    | element ho => exact List.forall_mem_singleton.mpr (h.1.2 _ ho)

theorem shallow_build {items : List Value} {n : Node} (h : ∀ v ∈ items, ShallowItem v)
    (ho : TagList.build items = .ok n) : Shallow (.node n) := by
  obtain ⟨name, rest, pieces, rfl, given, rfl⟩ := TagList.build_iff.mp ho
  exact .element _ _ (shallow_pieces given fun v hv => h v (List.mem_cons_of_mem _ hv))

/-- **The items of tag lists** over shallow nodes give shallow nodes, at any depth. -/
theorem ShallowItem.of_over {v : Value} (h : v.Over (fun n => Shallow (.node n)) F) :
    ShallowItem v := by
  induction h with
  | node h => exact ⟨fun _ _ => h, nofun⟩
  | list _ ih | tuple _ ih =>
    refine ⟨nofun, fun n ho => ?_⟩
    obtain ⟨_, ⟨⟩, hb⟩ := TagList.outcome_tag.mp ho
    exact shallow_build ih hb
  | record | stream => exact ⟨nofun, nofun⟩
  | @plain v hp =>
    cases v with
    | list _ | tuple _ | node _ => cases hp
    | _ => exact ⟨nofun, nofun⟩

/-! ## Calls in a row -/

/-- The call builds a node from content, a tag list or a text. -/
def Call.isBuilder : Call → Bool
  | .text _ | .comment _ | .raw _ | .element _ _ _ | .fragment _ | .tag _ => true
  | _ => false

/-- What calls in a row have built. The nodes that a call is on come from the calls before it. -/
inductive Built : List Value → Prop
  | start : Built []
  | call {made yielded : List Value} (c : Call) (hb : c.isBuilder = true) (before : Built made)
      (fits : c.Over (fun n => .node n ∈ made) fun _ => True) (h : c.run.outcome = .ok yielded) :
      Built (made ++ yielded)

theorem Built.produced {made : List Value} (h : Built made) : Produced made := by
  induction h with
  | start => exact .start
  | call c _ _ fits h ih => exact .call c ih fits h

theorem shallow_run {c : Call} (hb : c.isBuilder = true)
    (fits : c.Over (fun n => Shallow (.node n)) F) {yielded : List Value}
    (h : c.run.outcome = .ok yielded) : ∀ v ∈ yielded, Shallow v := by
  have single {x : Traced Node} (hx : ∀ n, x.outcome = .ok n → Shallow (.node n))
      (h : (x >>= fun n => (pure [.node n] : Traced (List Value))).outcome = .ok yielded) :
      ∀ v ∈ yielded, Shallow v := by
    rw [Traced.outcome_bind] at h
    obtain ⟨n, hn, h⟩ := exists_of_bind_ok h
    cases h
    exact List.forall_mem_singleton.mpr (hx n hn)
  cases c with
  | text data =>
    cases h
    exact List.forall_mem_singleton.mpr (.text _)
  | comment data =>
    cases h
    exact List.forall_mem_singleton.mpr (.comment _)
  | raw data =>
    cases h
    exact List.forall_mem_singleton.mpr (.raw _)
  | element name content keywords => exact single (fun _ => shallow_element fits) h
  | fragment content => exact single (fun _ => shallow_fragment fits) h
  | tag spec => exact single (ShallowItem.of_over fits).2 h
  | _ => cases hb

/-- **Calls in a row** build shallow trees only. -/
theorem Built.shallow {made : List Value} (h : Built made) : ∀ v ∈ made, Shallow v := by
  induction h with
  | start => exact List.forall_mem_nil _
  | call c hb _ fits h ih =>
    exact List.forall_mem_append.mpr ⟨ih, shallow_run hb (fits.mono fun n hn => ih _ hn) h⟩

end Hypertext
