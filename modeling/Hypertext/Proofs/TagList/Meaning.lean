import Mathlib.Data.List.Forall2
import Hypertext.Proofs.Content.Attributes
import Hypertext.Proofs.Content.Nodes
import Hypertext.Proofs.TagList.Mentions

/-!
# What a tag list means

A tag list (`tag`) is a name, attributes that are mentioned, and children. `Means` says so for one
list: the lists inside it come in as the elements that they mean in turn. The same can be said with
`Content.element`: one record, and then the children, each of them said in the same way.

* `collect_iff`: what the items of a tag list give, all in all. One item is `collectItem_iff`.
* `tag_iff`: a tag list is accepted iff it means an element, and it is that element.
* `exists_restated`: said with `Content.element`, it is written alike below any parent. The two
  trees may differ, since `Content.element` dissolves fragments.
* **`tag_means`** puts these together.
-/

namespace Hypertext

/-- The items of a list or a tuple. -/
def Value.sequence? : Value → Option (List Value)
  | .list items | .tuple items => some items
  | _ => none

namespace TagList

open Markup Content

/-! ## What items give -/

/-- The children that an item of a tag list gives. Other items than these are refused. -/
inductive Gives : Value → List Value → Prop
  | null : Gives .null []
  | className (name : String) : Gives (.str name) []
  | record {entries : Record} (h : ∀ e ∈ entries, ∃ key value, e = (.str key, .str value)) :
      Gives (.record entries) []
  | node (n : Node) : Gives (.node n) [.node n]
  | element {v : Value} {n : Node} (h : (tag v).outcome = .ok n) : Gives v [.node n]

/-- `n` is what the tag list means: an element with the name that stands in front, the attributes
that the other items mention, and the children that they give. -/
def Means (spec : Value) (n : Node) : Prop :=
  ∃ name items pieces, spec.sequence? = some (.str name :: items) ∧
    List.Forall₂ Gives items pieces ∧
    n = .element (.str name) (attributes (mentions items)) pieces.flatten

variable {name : String} {i : Nat} {c c' : Collected} {n : Node}

theorem element_of_sequence {v : Value} {items : List Value} (h : v.sequence? = some items) :
    element v = build items := by
  cases v with
  | list _ | tuple _ =>
    cases h
    rfl
  | _ => cases h

theorem outcome_tag {v : Value} : (tag v).outcome = .ok n ↔
    ∃ items, v.sequence? = some items ∧ build items = .ok n := by
  have outcome : (tag v).outcome = .ok n ↔ element v = .ok n := by
    unfold tag
    cases element v with
    | ok m => exact ⟨fun h => congrArg _ (Except.ok.inj h), fun h => congrArg _ (Except.ok.inj h)⟩
    | error e => exact ⟨nofun, nofun⟩
  rw [outcome]
  cases v with
  | list items | tuple items => exact ⟨fun h => ⟨items, rfl, h⟩, fun ⟨_, rfl, h⟩ => h⟩
  | _ => exact ⟨nofun, fun ⟨_, h, _⟩ => nomatch h⟩

theorem collectItem_sequence {v : Value} {items : List Value} (h : v.sequence? = some items) :
    collectItem name i v c = (within ⟨name, c.attributes, i⟩ (build items)).map c.add := by
  cases v with
  | list _ | tuple _ =>
    cases h
    rfl
  | _ => cases h

/-- A record is taken if all its entries are texts to texts. -/
theorem addRecord_iff {entries a b : Record} : addRecord name entries a = .ok b ↔
    (∀ e ∈ entries, ∃ key value, e = (.str key, .str value)) ∧
      b = (entryMentions entries).foldl Mention.write a := by
  induction entries generalizing a with
  | nil => exact ⟨fun h => ⟨List.forall_mem_nil _, (Except.ok.inj h).symm⟩, fun h => h.2 ▸ rfl⟩
  | cons e entries ih =>
    rw [List.forall_mem_cons]
    by_cases he : ∃ key value, e = (.str key, .str value)
    · obtain ⟨key, value, rfl⟩ := he
      have first : ∃ k v, (Value.str key, Value.str value) = (.str k, .str v) := ⟨key, value, rfl⟩
      rw [addRecord, ih, and_assoc, and_iff_right first]
      rfl
    · refine iff_of_false (fun h => he ?_) fun h => he h.1.1
      obtain ⟨k, v⟩ := e
      cases k with
      | str key =>
        cases v with
        | str value => exact ⟨key, value, rfl⟩
        | _ => cases h
      | _ => cases h

/-- **One item** adds what it mentions to the attributes and what it gives to the children. -/
theorem collectItem_iff {v : Value} : collectItem name i v c = .ok c' ↔
    ∃ piece, Gives v piece ∧
      c' = ⟨(itemMentions v).foldl Mention.write c.attributes, c.children ++ piece⟩ := by
  constructor
  · intro h
    cases v with
    | null =>
      cases h
      exact ⟨[], .null, by rw [List.append_nil]; rfl⟩
    | str name =>
      cases h
      exact ⟨[], .className name, by rw [List.append_nil]; rfl⟩
    | node n =>
      cases h
      exact ⟨_, .node n, rfl⟩
    | record entries =>
      rw [collectItem] at h
      cases ha : addRecord name entries c.attributes with
      | error cause =>
        rw [ha] at h
        cases h
      | ok a =>
        rw [ha] at h
        cases h
        obtain ⟨texts, rfl⟩ := addRecord_iff.mp ha
        exact ⟨[], .record texts, by rw [List.append_nil]; rfl⟩
    | list items | tuple items =>
      rw [collectItem_sequence rfl] at h
      cases hb : build items with
      | error e =>
        rw [hb] at h
        cases h
      | ok n =>
        rw [hb] at h
        cases h
        exact ⟨[.node n], .element (outcome_tag.mpr ⟨items, rfl, hb⟩), rfl⟩
    | _ => cases h
  · rintro ⟨piece, hp, rfl⟩
    cases hp with
    | null | className name =>
      rw [List.append_nil]
      rfl
    | node n => rfl
    | @record entries texts =>
      rw [collectItem, addRecord_iff.mpr ⟨texts, rfl⟩, List.append_nil]
      rfl
    | element h =>
      obtain ⟨items, hs, hb⟩ := outcome_tag.mp h
      rw [collectItem_sequence hs, hb]
      cases v with
      | list _ | tuple _ => rfl
      | _ => cases hs

/-- **A run of items** adds what they mention and what they give, one after another. -/
theorem collect_iff {vs : List Value} : collect name i vs c = .ok c' ↔
    ∃ pieces, List.Forall₂ Gives vs pieces ∧
      c' = ⟨(mentions vs).foldl Mention.write c.attributes, c.children ++ pieces.flatten⟩ := by
  induction vs generalizing i c with
  | nil =>
    constructor
    · rintro ⟨⟩
      exact ⟨[], .nil, by simp [mentions]⟩
    · rintro ⟨_, ⟨⟩, rfl⟩
      simp [mentions, collect]
  | cons v vs ih =>
    constructor
    · intro h
      rw [collect] at h
      obtain ⟨d, hv, h⟩ := exists_of_bind_ok h
      obtain ⟨piece, hg, rfl⟩ := collectItem_iff.mp hv
      obtain ⟨pieces, hgs, rfl⟩ := ih.mp h
      exact ⟨piece :: pieces, .cons hg hgs, by simp [mentions]⟩
    · rintro ⟨_, hgs, rfl⟩
      cases hgs with
      | @cons _ piece _ pieces hg hgs =>
        rw [collect, collectItem_iff.mpr ⟨piece, hg, rfl⟩]
        exact ih.mpr ⟨pieces, hgs, by simp [mentions]⟩

theorem build_iff {items : List Value} : build items = .ok n ↔
    ∃ name rest pieces, items = .str name :: rest ∧ List.Forall₂ Gives rest pieces ∧
      n = .element (.str name) (attributes (mentions rest)) pieces.flatten := by
  constructor
  · intro h
    cases items with
    | nil => cases h
    | cons first rest =>
      cases first with
      | str name =>
        rw [build] at h
        obtain ⟨c, hc, h⟩ := exists_of_bind_ok h
        cases h
        obtain ⟨pieces, hg, rfl⟩ := collect_iff.mp hc
        refine ⟨name, rest, pieces, rfl, hg, ?_⟩
        rw [← List.nil_append (mentions rest), ← foldl_write]
        rfl
      | _ => cases h
  · rintro ⟨name, rest, pieces, rfl, hg, rfl⟩
    rw [build, collect_iff.mpr ⟨pieces, hg, rfl⟩, ← List.nil_append (mentions rest), ← foldl_write]
    rfl

/-- **A tag list is accepted iff it means an element**, and it is that element. -/
theorem tag_iff {spec : Value} : (tag spec).outcome = .ok n ↔ Means spec n := by
  rw [outcome_tag]
  constructor
  · rintro ⟨items, hs, hb⟩
    obtain ⟨name, rest, pieces, rfl, rest'⟩ := build_iff.mp hb
    exact ⟨name, rest, pieces, hs, rest'⟩
  · rintro ⟨name, rest, pieces, hs, rest'⟩
    exact ⟨_, hs, build_iff.mpr ⟨name, rest, pieces, rfl, rest'⟩⟩

/-! ## Tag lists said with the element builder -/

mutual

/-- A tag list, given by its items, said with the element builder: the attributes as one record, and
then the children. -/
def restated : List Value → Except Fault Node
  | [] => (Content.element .null [] []).outcome
  | name :: items => do
    let children ← restatedAll items
    (Content.element name (.record (attributes (mentions items)) :: children) []).outcome

/-- The children that items give, each of them said with the element builder. -/
def restatedAll : List Value → Except Fault (List Value)
  | [] => .ok []
  | v :: rest => do
    let first ← restatedItem v
    let others ← restatedAll rest
    return first ++ others

/-- The children that one item gives, said with the element builder. -/
def restatedItem : Value → Except Fault (List Value)
  | .list items => do return [.node (← restated items)]
  | .tuple items => do return [.node (← restated items)]
  | .node n => .ok [.node n]
  | _ => .ok []

end

theorem distinct_attributes (E : List Mention) : ((attributes E).map Prod.fst).Nodup := by
  unfold attributes
  rw [List.map_map]
  exact (nodup_mentionedKeys E).map fun _ _ h => Value.str.inj h

theorem texts_attributes (E : List Mention) : (attributes E).Texts :=
  ⟨List.forall_mem_map.mpr fun _ _ => ⟨_, _, rfl⟩, distinct_attributes E⟩

/-- Distinct entries written one after another are the entries. -/
theorem writeAll_of_texts {a : Record} (h : a.Texts) : Record.writeAll [] a = a := by
  induction a using List.reverseRecOn with
  | nil => rfl
  | append_singleton a e ih =>
    obtain ⟨textual, distinct⟩ := h
    rw [List.forall_mem_append] at textual
    rw [List.map_append, List.nodup_append] at distinct
    obtain ⟨key, value, rfl⟩ := textual.2 e List.mem_cons_self
    rw [Record.writeAll_append, ih ⟨textual.1, distinct.1⟩]
    refine Record.put_of_not_mem (fun hm => ?_) _
    exact distinct.2.2 _ hm _ List.mem_cons_self rfl

/-- An element of one record and nodes. -/
theorem outcome_element_record (name : String) {a : Record} (ha : a.Texts) {vs : List Value}
    (h : ∀ v ∈ vs, ∃ n, v = .node n) : (Content.element (.str name) (.record a :: vs) []).outcome =
      .ok (.element (.str name) a (vs.flatMap leafNodes)) := by
  have entries : ∀ e ∈ a, isEntry e = true := by
    intro e he
    obtain ⟨key, value, rfl⟩ := ha.textual e he
    rfl
  have assigned : assign (Site.element name).label a [] = (a, none) := by
    have faultless : a.findSome? (entryRefusal? (Site.element name).label) = none :=
      List.findSome?_eq_none_iff.mpr fun e he => entryRefusal?_eq_none_iff.mpr (entries e he)
    rw [assign_eq, faultless, List.takeWhile_eq_self_iff.mpr entries, writeAll_of_texts ha]
  have taken : appendItem (.element name) 0 (.record a) .empty = .done ⟨[], some a, []⟩ := by
    simp only [appendItem, appendRecord, Draft.empty, assigned]
  rw [Content.element, appendItems, taken, Traced.outcome_bind]
  show (appendItems (.element name) 1 vs ⟨[], some a, []⟩).traced.outcome >>= _ = _
  rw [appendItems_nodes h]
  rfl

/-- Values that are nodes, and with their fragments dissolved are written like `vs`. -/
structure Restates (made vs : List Value) : Prop where
  nodes : ∀ v ∈ made, ∃ n, v = .node n
  written : ∀ parent, writeAll parent (made.flatMap leafNodes) = writeAll parent vs

theorem Restates.of_node {m n : Node} (h : ∀ parent, m.write parent = n.write parent) :
    Restates [.node m] [.node n] := by
  refine ⟨List.forall_mem_singleton.mpr ⟨m, rfl⟩, fun parent => ?_⟩
  rw [List.flatMap_singleton, writeAll_singleton]
  cases m with
  | fragment cs => exact h parent
  | _ => exact (writeAll_singleton _).trans (h parent)

theorem Restates.append {xs xs' ys ys' : List Value} (hx : Restates xs xs') (hy : Restates ys ys') :
    Restates (xs ++ ys) (xs' ++ ys') := by
  refine ⟨List.forall_mem_append.mpr ⟨hx.nodes, hy.nodes⟩, fun parent => ?_⟩
  rw [List.flatMap_append, writeAll_append, writeAll_append, hx.written, hy.written]

mutual

/-- **A tag list said with the element builder** is written like what the tag list means. -/
theorem exists_restated : ∀ (items : List Value) {n : Node}, build items = .ok n →
    ∃ m, restated items = .ok m ∧ ∀ parent, m.write parent = n.write parent
  | [], _, h => nomatch h
  | first :: items, n, h => by
    obtain ⟨name, rest, pieces, hi, hg, rfl⟩ := build_iff.mp h
    cases hi
    obtain ⟨made, hm, nodes, written⟩ := restates_all items hg
    have texts := texts_attributes (mentions items)
    refine ⟨.element (.str name) (attributes (mentions items)) (made.flatMap leafNodes), ?_,
      fun parent => ?_⟩
    · rw [restated, hm]
      exact outcome_element_record name texts nodes
    · obtain ⟨a, ha⟩ := texts.exists_textAttributes
      rw [write_element_eq ha, write_element_eq ha, written]

theorem restates_all : ∀ (vs : List Value) {pieces : List (List Value)},
    List.Forall₂ Gives vs pieces →
    ∃ made, restatedAll vs = .ok made ∧ Restates made pieces.flatten
  | [], _, .nil => ⟨[], rfl, List.forall_mem_nil _, fun _ => rfl⟩
  | v :: rest, piece :: pieces, .cons hg hgs => by
    obtain ⟨first, hf, restates⟩ := restates_item v hg
    obtain ⟨others, ho, restates'⟩ := restates_all rest hgs
    refine ⟨first ++ others, ?_, restates.append restates'⟩
    rw [restatedAll, hf, ho]
    rfl

theorem restates_item : ∀ (v : Value) {piece : List Value}, Gives v piece →
    ∃ made, restatedItem v = .ok made ∧ Restates made piece
  | .list items, _, .element h => by
    obtain ⟨_, hs, hb⟩ := outcome_tag.mp h
    cases hs
    obtain ⟨m, hm, written⟩ := exists_restated items hb
    refine ⟨[.node m], by rw [restatedItem, hm]; rfl, .of_node written⟩
  | .tuple items, _, .element h => by
    obtain ⟨_, hs, hb⟩ := outcome_tag.mp h
    cases hs
    obtain ⟨m, hm, written⟩ := exists_restated items hb
    refine ⟨[.node m], by rw [restatedItem, hm]; rfl, .of_node written⟩
  | .node n, _, .node _ => ⟨[.node n], rfl, .of_node fun _ => rfl⟩
  | .null, _, .null => ⟨[], rfl, List.forall_mem_nil _, fun _ => rfl⟩
  | .str _, _, .className _ => ⟨[], rfl, List.forall_mem_nil _, fun _ => rfl⟩
  | .record _, _, .record _ => ⟨[], rfl, List.forall_mem_nil _, fun _ => rfl⟩

end

/-- **Tag lists mean what the element builder means.** A tag list is accepted iff it means an
element, and then it is that element; the lists inside it are accepted on the same terms. The keys
of its attributes are distinct, and they are those that are mentioned. Said with the element
builder, with one record of these attributes and the children said in the same way, it is written
to the same markup, or fails to be for the same fault. -/
theorem tag_means :
    (∀ (spec : Value) (n : Node), (tag spec).outcome = .ok n ↔ Means spec n) ∧
    (∀ E : List Mention, ((attributes E).map Prod.fst).Nodup ∧
      ∀ key, .str key ∈ (attributes E).map Prod.fst ↔ ∃ m ∈ E, m.key = key) ∧
    ∀ (spec : Value) (n : Node), (tag spec).outcome = .ok n →
      ∃ items m, spec.sequence? = some items ∧ restated items = .ok m ∧ m.markup = n.markup := by
  refine ⟨fun spec n => tag_iff, fun E => ⟨distinct_attributes E, fun key => ?_⟩,
    fun spec n h => ?_⟩
  · unfold attributes
    rw [List.map_map, ← mem_mentionedKeys]
    simp
  · obtain ⟨items, hs, hb⟩ := outcome_tag.mp h
    obtain ⟨m, hm, written⟩ := exists_restated items hb
    exact ⟨items, m, hs, hm, written none⟩

/-- A menu: class names on both sides of a value for the class, a fragment, and a tuple inside whose
id is written twice. -/
def menuSpec : Value :=
  .list [.str "ul", .str "wide", .record [(.str "id", .str "m"), (.str "class", .str "menu")],
    .node (.fragment [.ofText "a", .ofText "b"]), .null, .str "open",
    .tuple [.str "li", .record [(.str "id", .str "x")], .str "on", .record [(.str "id", .str "y")],
      .node (.comment (.str "c"))]]

/-- The element that it means. -/
def menuElement : Node :=
  .element (.str "ul") [(.str "class", .str "menu open"), (.str "id", .str "m")]
    [.node (.fragment [.ofText "a", .ofText "b"]),
      .node (.element (.str "li") [(.str "id", .str "y"), (.str "class", .str "on")]
        [.node (.comment (.str "c"))])]

theorem tag_means_menu : (tag menuSpec).outcome = .ok menuElement ∧ Means menuSpec menuElement ∧
    (∃ items m, menuSpec.sequence? = some items ∧ restated items = .ok m ∧
      m.markup = menuElement.markup) ∧
    menuElement.markup.toOption =
      some "<ul class=\"menu open\" id=\"m\">ab<li id=\"y\" class=\"on\"><!--c--></li></ul>" := by
  have built : (tag menuSpec).outcome = .ok menuElement := by rfl
  obtain ⟨means, -, written⟩ := tag_means
  exact ⟨built, (means _ _).mp built, written _ _ built, by decide +kernel⟩

end TagList

end Hypertext
