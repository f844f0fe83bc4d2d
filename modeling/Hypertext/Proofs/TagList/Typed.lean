import Hypertext.TagList
import Hypertext.Proofs.Content.Pieces

/-!
# Tag lists made of well-typed pieces

A tag list (`tag`) checks its attributes on its own and takes nodes as they are. Over well-typed
nodes, what comes out is well typed.

* `Collected.Typed`: the invariant of what a tag list has given so far. One item keeps it, at any
  depth (`Keeps.of_over`), and so does a run of items (`typed_collect`).
* `builds_tag`: the element of a tag list over well-typed nodes.
-/

namespace Hypertext

namespace TagList

/-! ## Attributes -/

theorem texts_addClass {a : Record} (h : a.Texts) (name : String) : (addClass name a).Texts := by
  unfold addClass
  split
  · exact h.put _ _
  · exact h.put _ _

/-- A record is taken whole or not at all. -/
theorem texts_addRecord {name : String} {entries a b : Record} (ha : a.Texts)
    (h : addRecord name entries a = .ok b) : b.Texts := by
  induction entries generalizing a with
  | nil =>
    cases h
    exact ha
  | cons e entries ih =>
    obtain ⟨k, v⟩ := e
    cases k with
    | str key =>
      cases v with
      | str value => exact ih (ha.put key value) h
      | _ => cases h
    | _ => cases h

/-! ## Items -/

/-- The attributes and the children are well typed. -/
structure Collected.Typed (c : Collected) : Prop where
  attributes : c.attributes.Texts
  children : ∀ v ∈ c.children, v.WellTyped

theorem Collected.Typed.add {c : Collected} (h : c.Typed) {n : Node} (hn : n.WellTyped) :
    (c.add n).Typed :=
  ⟨h.attributes, List.forall_mem_append.mpr ⟨h.children, List.forall_mem_singleton.mpr hn⟩⟩

/-- If the item is taken in, what has been collected stays well typed. -/
def Keeps (v : Value) : Prop :=
  ∀ (name : String) (i : Nat) (c c' : Collected), c.Typed → collectItem name i v c = .ok c' →
    c'.Typed

/-- **A run of items** keeps what has been collected well typed if each item does. -/
theorem typed_collect {vs : List Value} (h : ∀ v ∈ vs, Keeps v) {name : String} {i : Nat}
    {c c' : Collected} (hc : c.Typed) (ho : collect name i vs c = .ok c') : c'.Typed := by
  induction vs generalizing i c with
  | nil =>
    cases ho
    exact hc
  | cons v vs ih =>
    obtain ⟨first, rest⟩ := List.forall_mem_cons.mp h
    rw [collect] at ho
    obtain ⟨d, hv, ho⟩ := exists_of_bind_ok ho
    exact ih rest (first name i c d hc hv) ho

theorem wellTyped_build {items : List Value} (h : ∀ v ∈ items, Keeps v) {n : Node}
    (ho : build items = .ok n) : n.WellTyped := by
  cases items with
  | nil => cases ho
  | cons first rest =>
    cases first with
    | str name =>
      rw [build] at ho
      obtain ⟨c, hc, ho⟩ := exists_of_bind_ok ho
      cases ho
      have start : Collected.Typed ⟨[], []⟩ := ⟨Record.texts_nil, List.forall_mem_nil _⟩
      have typed : c.Typed :=
        typed_collect (fun v hv => h v (List.mem_cons_of_mem _ hv)) start hc
      exact .element name typed.attributes typed.children
    | _ => cases ho

/-- A list inside gives one child. -/
theorem Keeps.of_build {v : Value} {items : List Value} (h : ∀ u ∈ items, Keeps u)
    (hv : ∀ (name : String) (i : Nat) (c : Collected), collectItem name i v c =
      (within ⟨name, c.attributes, i⟩ (build items)).map c.add) : Keeps v := by
  intro name i c c' hc ho
  rw [hv] at ho
  cases hb : build items with
  | error e =>
    rw [hb] at ho
    cases ho
  | ok n =>
    rw [hb] at ho
    cases ho
    exact hc.add (wellTyped_build h hb)

/-- **Items over well-typed nodes keep what has been collected well typed**, at any depth. -/
theorem Keeps.of_over {F : Fault → Prop} {v : Value} (h : v.Over Node.WellTyped F) : Keeps v := by
  induction h with
  | node h =>
    rintro name i c c' hc ⟨⟩
    exact hc.add h
  | list _ ih => exact of_build ih fun _ _ _ => rfl
  | tuple _ ih => exact of_build ih fun _ _ _ => rfl
  | @record entries _ _ _ _ =>
    intro name i c c' hc ho
    rw [collectItem] at ho
    cases ha : addRecord name entries c.attributes with
    | error e =>
      rw [ha] at ho
      cases ho
    | ok a =>
      rw [ha] at ho
      cases ho
      exact ⟨texts_addRecord hc.attributes ha, hc.children⟩
  | stream _ _ _ => exact nofun
  | @plain v h =>
    intro name i c c' hc ho
    cases v with
    | null =>
      cases ho
      exact hc
    | str s =>
      cases ho
      exact ⟨texts_addClass hc.attributes s, hc.children⟩
    | list _ | tuple _ | record _ | stream _ _ | node _ => cases h
    | _ => cases ho

end TagList

/-- **The element of a tag list over well-typed nodes** is well typed or refused. -/
theorem builds_tag {F : Fault → Prop} {spec : Value} (h : spec.Over Node.WellTyped F) :
    Builds F Node.WellTyped (tag spec).outcome := by
  have items : ∀ n, TagList.element spec = .ok n → n.WellTyped := by
    intro n ho
    cases h with
    | list h | tuple h => exact TagList.wellTyped_build (fun v hv => .of_over (h v hv)) ho
    | plain h =>
      cases spec with
      | list _ | tuple _ => cases h
      | _ => cases ho
    | _ => cases ho
  unfold tag
  cases ho : TagList.element spec with
  | ok n => exact .ok (items n ho)
  | error e => exact .refused e

end Hypertext
