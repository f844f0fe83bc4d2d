import Hypertext.Proofs.Content.Attributes
import Hypertext.Proofs.Content.Nodes

/-!
# Content made of well-typed pieces

Content may hold anything, and what the library cannot take it refuses. So if the nodes that stand
in content are well typed, whatever is built from it is well typed, or it is refused with an error
of building. Nothing else can happen, unless a stream in the content raises something else, which
then comes out as it is.

* `Builds F Q`: outcomes that are an error of building, a fault with `F`, or a result with `Q`.
* `Value.Over P F`: content whose nodes, at any depth, all have `P`, and whose streams raise faults
  with `F` only.
* `Draft.Typed`: the invariant of what is under construction. One leaf keeps it
  (`Draft.Typed.take`), and so do items at any depth (`Content.Keeps.of_over`).
* `builds_element`, `builds_fragment`: what elements and fragments of such content are.
-/

namespace Hypertext

/-! ## Results and errors of building -/

/-- An outcome that is an error of building, a fault with `F` that a stream has raised, or else a
result with `Q`. -/
inductive Builds {α : Type} (F : Fault → Prop) (Q : α → Prop) : Except Fault α → Prop
  | ok {a : α} (h : Q a) : Builds F Q (.ok a)
  | refused (e : BuildError) : Builds F Q (.error (.build e))
  | raised {f : Fault} (h : F f) : Builds F Q (.error f)

namespace Builds

variable {α β : Type} {F : Fault → Prop} {Q : α → Prop} {R : β → Prop}

theorem bind {x : Except Fault α} {f : α → Except Fault β} (hx : Builds F Q x)
    (hf : ∀ a, Q a → Builds F R (f a)) : Builds F R (x >>= f) := by
  cases hx with
  | ok h => exact hf _ h
  | refused e => exact .refused e
  | raised h => exact .raised h

/-- One call after another. -/
theorem andThen {x : Traced α} {f : α → Traced β} (hx : Builds F Q x.outcome)
    (hf : ∀ a, Q a → Builds F R (f a).outcome) : Builds F R (x >>= f).outcome := by
  rw [Traced.outcome_bind]
  exact hx.bind hf

/-- Only errors of building change on the way out. -/
theorem within {p : Progress} {Q : Draft → Prop} (h : Builds F Q p.traced.outcome) (site : Site)
    (i : Nat) : Builds F Q (p.within site i).traced.outcome := by
  cases p with
  | done d => exact h
  | stopped d f =>
    cases f with
    | build e => exact .refused _
    | _ => exact h

/-- More content after what has been added. -/
theorem progress {p : Progress} {next : Draft → Progress} {Q : Draft → Prop}
    (hp : Builds F Q p.traced.outcome) (hn : ∀ d, Q d → Builds F Q (next d).traced.outcome) :
    Builds F Q (p.andThen next).traced.outcome := by
  cases p with
  | done d =>
    cases hp with
    | ok h => exact hn d h
  | stopped d f => exact hp

end Builds

/-! ## Content over nodes -/

/-- Steps that give nothing but items with `Q`, and raise nothing but faults with `F`. -/
structure Step.All (Q : Value → Prop) (F : Fault → Prop) (steps : List Step) : Prop where
  items : ∀ v, .item v ∈ steps → Q v
  fails : ∀ f, .fail f ∈ steps → F f

namespace Step.All

variable {Q : Value → Prop} {F : Fault → Prop} {s : Step} {steps : List Step}

theorem tail (h : All Q F (s :: steps)) : All Q F steps :=
  ⟨fun v hv => h.items v (List.mem_cons_of_mem s hv),
    fun f hf => h.fails f (List.mem_cons_of_mem s hf)⟩

theorem of_map {α : Type} {f : α → Value} {as : List α} (h : ∀ a ∈ as, Q (f a)) :
    All Q F (as.map fun a => .item (f a)) := by
  refine ⟨fun v hv => ?_, fun g hg => ?_⟩
  · obtain ⟨a, ha, e⟩ := List.mem_map.mp hv
    cases e
    exact h a ha
  · obtain ⟨a, -, e⟩ := List.mem_map.mp hg
    cases e

/-- The items of such steps, when they are gone through. -/
theorem drain (h : All Q F steps) :
    Builds F (fun vs => ∀ v ∈ vs, Q v) (Step.drain steps).outcome := by
  induction steps with
  | nil => exact .ok (List.forall_mem_nil _)
  | cons s steps ih =>
    cases s with
    | item v =>
      refine (ih h.tail).andThen fun vs hvs => .ok ?_
      exact List.forall_mem_cons.mpr ⟨h.items v List.mem_cons_self, hvs⟩
    | note e =>
      show Builds _ _ (Traced.emit e >>= fun _ => Step.drain steps).outcome
      rw [Traced.outcome_bind]
      exact ih h.tail
    | fail f => exact .raised (h.fails f List.mem_cons_self)

end Step.All

/-- A value in which no other values stand. -/
def Value.isPlain : Value → Bool
  | .list _ | .tuple _ | .record _ | .stream _ _ | .node _ => false
  | _ => true

/-- The nodes in the value, in sequences and records at any depth, all have `P`, and its streams
raise nothing but faults with `F`. -/
inductive Value.Over (P : Node → Prop) (F : Fault → Prop) : Value → Prop
  | node {n : Node} (h : P n) : Over P F (.node n)
  | list {items : List Value} (h : ∀ v ∈ items, v.Over P F) : Over P F (.list items)
  | tuple {items : List Value} (h : ∀ v ∈ items, v.Over P F) : Over P F (.tuple items)
  | record {entries : Record} (keys : ∀ e ∈ entries, e.1.Over P F)
      (values : ∀ e ∈ entries, e.2.Over P F) : Over P F (.record entries)
  | stream {id : Nat} {steps : List Step} (items : ∀ v, .item v ∈ steps → v.Over P F)
      (fails : ∀ f, .fail f ∈ steps → F f) : Over P F (.stream id steps)
  | plain {v : Value} (h : v.isPlain = true) : Over P F v

namespace Value.Over

variable {P Q : Node → Prop} {F : Fault → Prop} {v : Value}

theorem mono (h : v.Over P F) (hPQ : ∀ n, P n → Q n) : v.Over Q F := by
  induction h with
  | node h => exact .node (hPQ _ h)
  | list _ ih => exact .list ih
  | tuple _ ih => exact .tuple ih
  | record _ _ keys values => exact .record keys values
  | stream _ fails ih => exact .stream ih fails
  | plain h => exact .plain h

theorem of_mem_intsFrom {n : Nat} {start : Int} (h : v ∈ intsFrom start n) : v.Over P F := by
  obtain ⟨k, rfl⟩ := Content.exists_int_of_mem_intsFrom h
  exact .plain rfl

/-- The items of a value are over the same nodes. -/
theorem steps (h : v.Over P F) {steps : List Step} (hs : v.steps? = some steps) :
    Step.All (Value.Over P F) F steps := by
  cases h with
  | node h => cases hs
  | list h | tuple h =>
    cases hs
    exact .of_map h
  | record keys values =>
    cases hs
    exact .of_map keys
  | stream items fails =>
    cases hs
    exact ⟨items, fails⟩
  | plain h =>
    cases v with
    | str _ | bytes _ | byteArray _ =>
      cases hs
      exact .of_map fun _ _ => .plain rfl
    | range start stop =>
      cases hs
      exact .of_map fun u hu => of_mem_intsFrom hu
    | list _ | tuple _ | record _ | stream _ _ | node _ => cases h
    | _ => cases hs

end Value.Over

/-! ## What is under construction -/

namespace Record

theorem Texts.put {a : Record} (h : a.Texts) (key value : String) :
    Texts (Record.put key (.str value) a) := by
  refine ⟨fun e he => ?_, nodup_keys_put h.distinct⟩
  rcases (mem_put h.distinct).mp he with rfl | ⟨he, -⟩
  · exact ⟨key, value, rfl⟩
  · exact h.textual e he

theorem Texts.drop {a : Record} (h : a.Texts) (key : String) : Texts (Record.drop key a) :=
  ⟨fun e he => h.textual e (mem_drop.mp he).1, h.distinct.sublist (keys_drop_sublist key a)⟩

/-- Entries that a record may have keep attributes well typed. -/
theorem Texts.writeAll {a : Record} (h : a.Texts) {entries : Record}
    (he : ∀ e ∈ entries, Content.isEntry e = true) : Texts (a.writeAll entries) := by
  induction entries generalizing a with
  | nil => exact h
  | cons e entries ih =>
    obtain ⟨first, rest⟩ := List.forall_mem_cons.mp he
    obtain ⟨k, v⟩ := e
    cases k with
    | str key =>
      cases v with
      | null => exact ih (h.drop key) rest
      | str value => exact ih (h.put key value) rest
      | _ => cases first
    | _ => cases first

end Record

/-- The nodes are well typed, and so are the attributes if there is room for any. -/
structure Draft.Typed (d : Draft) : Prop where
  nodes : ∀ v ∈ d.nodes, v.WellTyped
  attributes : ∀ a ∈ d.attributes, a.Texts

namespace Draft

theorem typed_empty : Typed .empty := by
  refine ⟨List.forall_mem_nil _, fun a ha => ?_⟩
  cases ha
  exact Record.texts_nil

theorem typed_ofNodes : Typed (.ofNodes []) := ⟨List.forall_mem_nil _, nofun⟩

variable {d : Draft}

theorem Typed.add (h : d.Typed) {vs : List Value} (hv : ∀ v ∈ vs, v.WellTyped) : (d.add vs).Typed :=
  ⟨List.forall_mem_append.mpr ⟨h.nodes, hv⟩, h.attributes⟩

/-- **A leaf keeps drafts well typed** if its nodes are. Of a record, only entries are written that
a record may have. -/
theorem Typed.take (h : d.Typed) {v : Value} (hv : ∀ u ∈ Content.leafNodes v, u.WellTyped) :
    (d.take v).Typed := by
  refine ⟨List.forall_mem_append.mpr ⟨h.nodes, hv⟩, fun a ha => ?_⟩
  obtain ⟨b, hb, rfl⟩ := Option.map_eq_some_iff.mp ha
  refine (h.attributes b hb).writeAll fun e he => ?_
  cases v with
  | record entries => exact List.mem_takeWhile_imp he
  | _ => cases he

end Draft

namespace Content

/-- Adding the item keeps drafts well typed, or it is refused. -/
def Keeps (F : Fault → Prop) (site : Site) (v : Value) : Prop :=
  ∀ (i : Nat) (d : Draft), d.Typed → Builds F Draft.Typed (appendItem site i v d).traced.outcome

variable {F : Fault → Prop} {site : Site}

theorem keeps_leaf {v : Value} (h : isLeaf v = true) (hv : ∀ u ∈ leafNodes v, u.WellTyped) :
    Keeps F site v := by
  intro i d hd
  rw [appendItem_leaf h]
  cases refusal? site d.room v with
  | none => exact .ok (hd.take hv)
  | some cause => exact .refused _

theorem builds_appendItems {vs : List Value} (h : ∀ v ∈ vs, Keeps F site v) (i : Nat) {d : Draft}
    (hd : d.Typed) : Builds F Draft.Typed (appendItems site i vs d).traced.outcome := by
  induction vs generalizing i d with
  | nil => exact .ok hd
  | cons v vs ih =>
    obtain ⟨first, rest⟩ := List.forall_mem_cons.mp h
    rw [appendItems]
    exact (first i d hd).progress fun d' hd' => ih rest (i + 1) hd'

theorem builds_appendSteps {steps : List Step} (h : Step.All (Keeps F site) F steps) (i : Nat)
    {d : Draft} (hd : d.Typed) :
    Builds F Draft.Typed (appendSteps site i steps d).traced.outcome := by
  induction steps generalizing i d with
  | nil => exact .ok hd
  | cons s steps ih =>
    cases s with
    | item v =>
      rw [appendSteps]
      have first := h.items v List.mem_cons_self i d hd
      exact first.progress fun d' hd' => ih h.tail (i + 1) hd'
    | note e => exact ih h.tail i ⟨hd.nodes, hd.attributes⟩
    | fail f => exact .raised (h.fails f List.mem_cons_self)

theorem keeps_range (start stop : Int) : Keeps F site (.range start stop) := by
  intro i d hd
  rw [appendItem, appendRange]
  by_cases h : start < stop
  · rw [if_pos h]
    exact .refused _
  · rw [if_neg h]
    exact .ok hd

/-- **Items over well-typed nodes keep drafts well typed**, at any depth. -/
theorem Keeps.of_over {v : Value} (h : v.Over Node.WellTyped F) : Keeps F site v := by
  -- A sequence keeps drafts well typed because its items do: the induction is on the content.
  induction h with
  | node h => exact keeps_leaf rfl (wellTyped_leafNodes h)
  | list _ ih => exact fun i d hd => (builds_appendItems ih 0 hd).within site i
  | tuple _ ih => exact fun i d hd => (builds_appendItems ih 0 hd).within site i
  | record _ _ _ _ => exact keeps_leaf rfl (List.forall_mem_nil _)
  | stream _ fails ih => exact fun i d hd => (builds_appendSteps ⟨ih, fails⟩ 0 hd).within site i
  | @plain v h =>
    cases v with
    | range start stop => exact keeps_range start stop
    | str s => exact keeps_leaf rfl (List.forall_mem_singleton.mpr (.text s))
    | list _ | tuple _ | record _ | stream _ _ | node _ => cases h
    | _ => exact keeps_leaf rfl (List.forall_mem_nil _)

/-! ## Elements and fragments -/

variable {content : List Value}

/-- The nodes that content comes to. -/
theorem builds_nodes (h : ∀ v ∈ content, v.Over Node.WellTyped F) :
    Builds F (fun vs => ∀ v ∈ vs, v.WellTyped) (nodes content).outcome := by
  have kept : ∀ v ∈ content, Keeps F .root v := fun v hv => .of_over (h v hv)
  exact (builds_appendItems kept 0 Draft.typed_ofNodes).andThen fun d hd => .ok hd.nodes

/-- **A fragment of content over well-typed nodes** is well typed or refused. -/
theorem builds_fragment (h : ∀ v ∈ content, v.Over Node.WellTyped F) :
    Builds F Node.WellTyped (fragment content).outcome :=
  (builds_nodes h).andThen fun _ hvs => .ok (.fragment hvs)

/-- **An element of content over well-typed nodes** is well typed or refused, if its keywords are
texts or null. The name may be anything, since the wrong one is refused. -/
theorem builds_element (name : Value) (h : ∀ v ∈ content, v.Over Node.WellTyped F)
    {keywords : List (String × Value)}
    (hk : ∀ e ∈ keywordWrites keywords, isEntry e = true) :
    Builds F Node.WellTyped (element name content keywords).outcome := by
  cases name with
  | str label =>
    have kept : ∀ v ∈ content, Keeps F (.element label) v := fun v hv => .of_over (h v hv)
    refine (builds_appendItems kept 0 Draft.typed_empty).andThen fun d hd => .ok ?_
    rw [putKeywords_eq]
    refine .element label (Record.Texts.writeAll ?_ hk) hd.nodes
    cases ha : d.attributes with
    | none => exact Record.texts_nil
    | some a => exact hd.attributes a ha
  | _ => exact .refused _

end Content

end Hypertext
