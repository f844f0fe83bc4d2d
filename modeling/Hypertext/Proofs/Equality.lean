import Mathlib.Data.List.Sort
import Mathlib.Algebra.BigOperators.Group.List.Basic
import Mathlib.Data.String.Basic
import Hypertext.Equality
import Hypertext.Proofs.Markup.RoundTrip
import Hypertext.Proofs.Markup.WellTyped

/-!
# Equality is coherent

Nodes are compared with `==`, hashed with `hash` and written by `serialize_node`. Two well-typed
trees are equal iff they are one tree once the attributes of every element are sorted by key. The
sorted tree has the digest of the tree it comes from, for a digest does not see attributes, and it
is written to a text of the same length or fails in the same way. So what equal trees have in
common is read off one tree.

* `sorted_eq_iff`: attributes that cover each other are the same when sorted.
* `same_iff_sorted`: equality of well-typed values; `same_sorted`: sorting makes an equal one.
* `Node.digest_sorted`, `writtenLength_sorted`: digests and markup of a sorted tree.
* `digests_of_sorted_eq`, `markups_of_sorted_eq`: what trees have in common that are one when
  sorted.
* **`same_coherent`**: equality, digests and markup.
-/

namespace Hypertext

open Markup

/-! ## Sorted trees -/

namespace Record

/-- The text of a key. -/
def keyText : Value → String
  | .str s => s
  | _ => ""

/-- The first entry does not come behind the second one. -/
abbrev KeyLe (e f : Value × Value) : Prop := keyText e.1 ≤ keyText f.1

/-- The entries by their keys. -/
def sorted (a : Record) : Record := a.insertionSort KeyLe

end Record

mutual

/-- The value with the attributes of every element sorted. -/
def Value.sorted : Value → Value
  | .node n => .node n.sorted
  | v => v

/-- The node with the attributes of every element sorted. -/
def Node.sorted : Node → Node
  | .element name a children => .element name (Record.sorted a) (sortedAll children)
  | .fragment children => .fragment (sortedAll children)
  | n => n

/-- The values with the attributes of every element sorted. -/
def sortedAll : List Value → List Value
  | [] => []
  | v :: rest => v.sorted :: sortedAll rest

end

theorem sortedAll_eq_map (vs : List Value) : sortedAll vs = vs.map Value.sorted := by
  induction vs with
  | nil => rfl
  | cons v vs ih => rw [sortedAll, ih, List.map_cons]

/-! ## Sorted attributes -/

namespace Record

theorem sorted_perm (a : Record) : (sorted a).Perm a := List.perm_insertionSort KeyLe a

theorem Texts.of_perm {a b : Record} (h : a.Texts) (hp : a.Perm b) : b.Texts :=
  ⟨fun e he => h.textual e (hp.mem_iff.mpr he), (hp.map Prod.fst).nodup_iff.mp h.distinct⟩

theorem Texts.sorted {a : Record} (h : a.Texts) : (Record.sorted a).Texts :=
  h.of_perm (sorted_perm a).symm

theorem sorted_sorted (a : Record) : sorted (sorted a) = sorted a :=
  (List.pairwise_insertionSort KeyLe a).insertionSort_eq

theorem Texts.nodup {a : Record} (h : a.Texts) : a.Nodup := h.distinct.of_map

/-- Entries under one key are one entry. -/
theorem Texts.eq_of_key {a : Record} (h : a.Texts) {e f : Value × Value} (he : e ∈ a) (hf : f ∈ a)
    (hk : keyText e.1 = keyText f.1) : e = f := by
  obtain ⟨key, value, rfl⟩ := h.textual e he
  obtain ⟨key', value', rfl⟩ := h.textual f hf
  obtain rfl : key = key' := hk
  exact List.inj_on_of_nodup_map h.distinct he hf rfl

/-- **Permuted attributes** are the same when sorted. -/
theorem sorted_eq_iff_perm {a b : Record} (h : a.Texts) : sorted a = sorted b ↔ a.Perm b := by
  refine ⟨fun e => (sorted_perm a).symm.trans (e ▸ sorted_perm b), fun hp => ?_⟩
  -- Keys are only compared by their texts; that settles the order because no key comes twice.
  have ordered (r : Record) : (sorted r).Pairwise KeyLe := List.pairwise_insertionSort KeyLe r
  refine List.Perm.eq_of_pairwise (fun e f he hf hef hfe => ?_) (ordered a) (ordered b)
    ((sorted_perm a).trans (hp.trans (sorted_perm b).symm))
  have hf' : f ∈ a := hp.mem_iff.mpr ((sorted_perm b).mem_iff.mp hf)
  exact h.eq_of_key ((sorted_perm a).mem_iff.mp he) hf' (le_antisymm hef hfe)

theorem covered_iff {a b : Record} : covered a b = true ↔
    ∀ e ∈ a, ∃ f ∈ b, e.1.same f.1 = true ∧ e.2.same f.2 = true := by
  induction a with
  | nil => simp [covered]
  | cons e a ih => simp [covered, ih]

theorem same_str (s t : String) : (Value.str s).same (.str t) = true ↔ s = t := beq_iff_eq

/-- Attributes cover others iff they are among them. -/
theorem Texts.covered_iff_subset {a b : Record} (ha : a.Texts) (hb : b.Texts) :
    covered a b = true ↔ a ⊆ b := by
  refine covered_iff.trans (forall₂_congr fun e he => ⟨?_, fun hm => ⟨e, hm, ?_⟩⟩)
  · rintro ⟨f, hf, hk, hv⟩
    obtain ⟨key, value, rfl⟩ := ha.textual e he
    obtain ⟨key', value', rfl⟩ := hb.textual f hf
    rw [same_str] at hk hv
    rwa [hk, hv]
  · obtain ⟨key, value, rfl⟩ := ha.textual e he
    exact ⟨(same_str _ _).mpr rfl, (same_str _ _).mpr rfl⟩

/-- **Equality of attributes** sees no order. -/
theorem sorted_eq_iff {a b : Record} (ha : a.Texts) (hb : b.Texts) :
    (a.length == b.length && covered a b) = true ↔ sorted a = sorted b := by
  rw [sorted_eq_iff_perm ha, Bool.and_eq_true, beq_iff_eq, ha.covered_iff_subset hb]
  refine ⟨fun ⟨size, sub⟩ => ?_, fun hp => ⟨hp.length_eq, hp.subset⟩⟩
  exact (List.subperm_of_subset ha.nodup sub).perm_of_length_le size.ge

end Record

/-! ## Equality of well-typed values -/

theorem sameAll_iff {vs ws : List Value} (hw : ∀ w ∈ ws, w.WellTyped)
    (h : ∀ v ∈ vs, ∀ w : Value, w.WellTyped → (v.same w = true ↔ v.sorted = w.sorted)) :
    sameAll vs ws = true ↔ sortedAll vs = sortedAll ws := by
  induction vs generalizing ws with
  | nil => cases ws <;> simp [sameAll, sortedAll]
  | cons v vs ih =>
    cases ws with
    | nil => simp [sameAll, sortedAll]
    | cons w ws =>
      rw [List.forall_mem_cons] at h hw
      rw [sameAll, sortedAll, sortedAll, Bool.and_eq_true, h.1 w hw.1, ih hw.2 h.2, List.cons.injEq]

/-- **Well-typed values are equal** iff they are one value when sorted. -/
theorem same_iff_sorted {v w : Value} (hv : v.WellTyped) (hw : w.WellTyped) :
    v.same w = true ↔ v.sorted = w.sorted := by
  induction hv generalizing w with
  | text | comment | raw | doctype =>
    cases hw <;> simp [Value.same, Node.same, Value.sameScalar, Value.sorted, Node.sorted]
  | element name ha _ ih =>
    cases hw with
    | element name' hb hc =>
      have attributes := Record.sorted_eq_iff ha hb
      have children := sameAll_iff hc fun u hu w hw => ih u hu hw
      show ((Value.str name).same (.str name') && (_ == _ && covered _ _) && sameAll _ _) = true ↔ _
      rw [Bool.and_eq_true, Bool.and_eq_true, Record.same_str, attributes, children]
      simp only [Value.sorted, Node.sorted, Value.node.injEq, Node.element.injEq, Value.str.injEq,
        and_assoc]
    | _ => simp [Value.same, Node.same, Value.sorted, Node.sorted]
  | fragment _ ih =>
    cases hw with
    | fragment hc =>
      have children := sameAll_iff hc fun u hu w hw => ih u hu hw
      simp only [Value.same, Node.same, children, Value.sorted, Node.sorted, Value.node.injEq,
        Node.fragment.injEq]
    | _ => simp [Value.same, Node.same, Value.sorted, Node.sorted]

/-- Sorting attributes keeps a value well typed. -/
theorem Value.WellTyped.sorted {v : Value} (h : v.WellTyped) : v.sorted.WellTyped := by
  induction h with
  | text data => exact .text data
  | comment data => exact .comment data
  | raw data => exact .raw data
  | doctype name => exact .doctype name
  | element name ha _ ih =>
    refine .element name ha.sorted ?_
    rw [sortedAll_eq_map]
    exact List.forall_mem_map.mpr ih
  | fragment _ ih =>
    refine .fragment ?_
    rw [sortedAll_eq_map]
    exact List.forall_mem_map.mpr ih

mutual

theorem Value.sorted_sorted : ∀ v : Value, v.sorted.sorted = v.sorted
  | .node n => congrArg Value.node n.sorted_sorted
  | .null | .bool _ | .int _ | .float _ | .nan _ | .str _ | .bytes _ | .byteArray _ | .list _
  | .tuple _ | .record _ | .range _ _ | .opaqueObject _ | .component _ | .stream _ _
  | .error _ _ => rfl

theorem Node.sorted_sorted : ∀ n : Node, n.sorted.sorted = n.sorted
  | .text _ | .comment _ | .raw _ | .doctype _ => rfl
  | .element name a children => by
    rw [Node.sorted, Node.sorted, Record.sorted_sorted, sortedAll_sortedAll children]
  | .fragment children => by rw [Node.sorted, Node.sorted, sortedAll_sortedAll children]

theorem sortedAll_sortedAll : ∀ vs : List Value, sortedAll (sortedAll vs) = sortedAll vs
  | [] => rfl
  | v :: rest => by
    rw [sortedAll, sortedAll, v.sorted_sorted, sortedAll_sortedAll rest]

end

/-- **A well-typed value equals what it is when sorted.** -/
theorem same_sorted {v : Value} (h : v.WellTyped) : v.same v.sorted = true :=
  (same_iff_sorted h h.sorted).mpr v.sorted_sorted.symm

/-! ## Digests -/

mutual

theorem Value.digest_sorted : ∀ v : Value, v.sorted.digest = v.digest
  | .node n => n.digest_sorted
  | .null | .bool _ | .int _ | .float _ | .nan _ | .str _ | .bytes _ | .byteArray _ | .list _
  | .tuple _ | .record _ | .range _ _ | .opaqueObject _ | .component _ | .stream _ _
  | .error _ _ => rfl

/-- **The digest of a sorted tree** is that of the tree. -/
theorem Node.digest_sorted : ∀ n : Node, n.sorted.digest = n.digest
  | .text _ | .comment _ | .raw _ | .doctype _ => rfl
  | .element name a children => by
    rw [Node.sorted, Node.digest, Node.digest, digests_sorted children]
  | .fragment children => by rw [Node.sorted, Node.digest, Node.digest, digests_sorted children]

theorem digests_sorted : ∀ vs : List Value, digests (sortedAll vs) = digests vs
  | [] => rfl
  | v :: rest => by
    rw [sortedAll, digests, digests, v.digest_sorted, digests_sorted rest]

end

theorem exists_digests {vs : List Value} (h : ∀ v ∈ vs, ∃ d, v.digest = .ok d) :
    ∃ ds, digests vs = .ok ds := by
  induction vs with
  | nil => exact ⟨[], rfl⟩
  | cons v vs ih =>
    rw [List.forall_mem_cons] at h
    obtain ⟨d, hd⟩ := h.1
    obtain ⟨ds, hds⟩ := ih h.2
    exact ⟨d :: ds, by rw [digests, hd, hds]; rfl⟩

/-- **Well-typed values have digests.** -/
theorem exists_digest {v : Value} (h : v.WellTyped) : ∃ d, v.digest = .ok d := by
  induction h with
  | text | comment | raw | doctype => exact ⟨_, rfl⟩
  | element name _ _ ih =>
    obtain ⟨ds, hds⟩ := exists_digests ih
    exact ⟨.tuple [Value.scalarDigest (.str name), .tuple ds],
      by rw [Value.digest, Node.digest, hds]; rfl⟩
  | fragment _ ih =>
    obtain ⟨ds, hds⟩ := exists_digests ih
    exact ⟨.tuple [.tuple ds], by rw [Value.digest, Node.digest, hds]; rfl⟩

theorem Number.same_refl (n : Number) : n.same n = true := beq_self_eq_true _

theorem Value.sameNumber_refl (v : Value) (h : v.number? = none → ∃ text, v = .float text) :
    v.sameNumber v = true := by
  unfold Value.sameNumber
  cases hv : v.number? with
  | some n => exact n.same_refl
  | none =>
    obtain ⟨text, rfl⟩ := h hv
    exact beq_self_eq_true text

mutual

/-- **Every value equals itself.** -/
theorem Value.same_refl : ∀ v : Value, v.same v = true
  | .list items => sameAll_refl items
  | .tuple items => sameAll_refl items
  | .record entries => by
    rw [Value.same, beq_self_eq_true, covered_of_subset entries entries (List.Subset.refl _)]
    rfl
  | .node n => n.same_refl
  | .bool b => Value.sameNumber_refl (.bool b) nofun
  | .int i => Value.sameNumber_refl (.int i) nofun
  | .float text => Value.sameNumber_refl _ fun _ => ⟨text, rfl⟩
  | .null => rfl
  | .nan id | .opaqueObject id | .component id | .stream id _ | .error id _ => beq_self_eq_true id
  | .str s => beq_self_eq_true s
  | .bytes octets | .byteArray octets => beq_self_eq_true octets
  | .range start stop => by simp [Value.same, Value.sameScalar]

theorem Node.same_refl : ∀ n : Node, n.same n = true
  | .text v | .comment v | .raw v | .doctype v => v.same_refl
  | .element name a children => by
    rw [Node.same, name.same_refl, beq_self_eq_true,
      covered_of_subset a a (List.Subset.refl _), sameAll_refl children]
    rfl
  | .fragment children => sameAll_refl children

theorem sameAll_refl : ∀ vs : List Value, sameAll vs vs = true
  | [] => rfl
  | v :: rest => by rw [sameAll, v.same_refl, sameAll_refl rest]; rfl

theorem covered_of_subset : ∀ a b : List (Value × Value), a ⊆ b → covered a b = true
  | [], _, _ => rfl
  | (k, v) :: rest, b, h => by
    rw [List.cons_subset] at h
    have own : (b.any fun o => k.same o.1 && v.same o.2) = true :=
      List.any_eq_true.mpr ⟨(k, v), h.1, by rw [k.same_refl, v.same_refl]; rfl⟩
    rw [covered, own, covered_of_subset rest b h.2]
    rfl

end

/-! ## Markup -/

theorem eq_textRecord : ∀ {a : Record} {texts : Attributes}, textAttributes? a = some texts →
    a = textRecord texts
  | [], _, h => by
    cases h
    rfl
  | (.str key, .str value) :: rest, _, h => by
    obtain ⟨others, ho, rfl⟩ := Option.map_eq_some_iff.mp h
    rw [eq_textRecord ho]
    rfl

/-- Sorted attributes are permuted texts. -/
theorem exists_textAttributes_sorted {a : Record} (h : a.Texts) : ∃ texts texts',
    textAttributes? a = some texts ∧ textAttributes? (Record.sorted a) = some texts' ∧
      texts'.Perm texts := by
  obtain ⟨texts, ht⟩ := h.exists_textAttributes
  obtain ⟨texts', ht'⟩ := h.sorted.exists_textAttributes
  have records := Record.sorted_perm a
  rw [eq_textRecord ht', eq_textRecord ht] at records
  have inj : Function.Injective fun e : String × String => (Value.str e.1, Value.str e.2) := by
    rintro ⟨k, v⟩ ⟨k', v'⟩ e
    simpa using e
  exact ⟨texts, texts', ht, ht', (List.map_perm_map_iff inj).mp records⟩

/-- The order of attributes does not count for the length of a tag. -/
theorem length_openingTag_perm {a b : Attributes} (h : a.Perm b) (name : String) :
    (openingTag name a).length = (openingTag name b).length := by
  have written : (writeAttributes a).length = (writeAttributes b).length := by
    rw [writeAttributes, writeAttributes, String.length_join, String.length_join]
    exact ((h.map _).map _).sum_eq
  simp only [openingTag, String.length_append, written]

/-- The length of what is written, or what goes wrong. -/
def writtenLength (x : Except Fault String) : Except Fault Nat := x.map String.length

theorem writtenLength_error {x : Except Fault String} {f : Fault}
    (h : writtenLength x = writtenLength (.error f)) : x = .error f := by
  cases x with
  | error g =>
    cases h
    rfl
  | ok s => cases h

theorem writtenLength_ok {x : Except Fault String} {t : String}
    (h : writtenLength x = writtenLength (.ok t)) : ∃ s, x = .ok s ∧ s.length = t.length := by
  cases x with
  | error f => cases h
  | ok s => exact ⟨s, rfl, Except.ok.inj h⟩

theorem writtenLength_append {x x' y y' : Except Fault String}
    (hx : writtenLength x = writtenLength x') (hy : writtenLength y = writtenLength y') :
    writtenLength (x ++ y) = writtenLength (x' ++ y') := by
  have split (x y : Except Fault String) : writtenLength (x ++ y) = do
      let m ← writtenLength x
      let n ← writtenLength y
      return m + n := by
    cases x with
    | error f => rfl
    | ok s =>
      cases y with
      | error f => rfl
      | ok t => exact congrArg Except.ok (String.length_append s t)
  rw [split, split, hx, hy]

theorem writtenLength_writeAll {vs : List Value} {parent : Option String}
    (h : ∀ v ∈ vs, writtenLength (v.sorted.write parent) = writtenLength (v.write parent)) :
    writtenLength (writeAll parent (sortedAll vs)) = writtenLength (writeAll parent vs) := by
  induction vs with
  | nil => rfl
  | cons v vs ih =>
    rw [List.forall_mem_cons] at h
    exact writtenLength_append h.1 (ih h.2)

/-- **A sorted tree is written to as many characters** as the tree it comes from, or fails as it
does. -/
theorem writtenLength_sorted {v : Value} (h : v.WellTyped) (parent : Option String) :
    writtenLength (v.sorted.write parent) = writtenLength (v.write parent) := by
  induction h generalizing parent with
  | text | comment | raw | doctype => rfl
  | element name ha _ ih =>
    obtain ⟨texts, texts', ht, ht', hp⟩ := exists_textAttributes_sorted ha
    have tags : writtenLength (.ok (openingTag name texts')) =
        writtenLength (.ok (openingTag name texts)) :=
      congrArg Except.ok (length_openingTag_perm hp name)
    rw [Value.sorted, Node.sorted, Value.write, Value.write, write_element_eq ht',
      write_element_eq ht]
    split
    · exact tags
    · have inner := writtenLength_writeAll fun v hv => ih v hv (some name)
      exact writtenLength_append (writtenLength_append tags inner) rfl
  | fragment _ ih =>
    rw [Value.sorted, Node.sorted, Value.write, Value.write, Node.write, Node.write]
    exact writtenLength_writeAll fun v hv => ih v hv parent

/-! ## Equal trees -/

theorem Node.same_iff_sorted {m n : Node} (hm : m.WellTyped) (hn : n.WellTyped) :
    m.same n = true ↔ m.sorted = n.sorted :=
  (Hypertext.same_iff_sorted hm hn).trans (by rw [Value.sorted, Value.sorted, Value.node.injEq])

/-- Trees that are one tree when sorted have one digest. -/
theorem digests_of_sorted_eq {a b : Node} (ha : a.WellTyped) (one : a.sorted = b.sorted) :
    (∃ d, a.digest = .ok d ∧ b.digest = .ok d) ∧ a.sameDigest b = .ok true := by
  have digests : a.digest = b.digest := by rw [← a.digest_sorted, one, b.digest_sorted]
  obtain ⟨d, hd⟩ : ∃ d, a.digest = .ok d := exists_digest ha
  have hd' : b.digest = .ok d := digests ▸ hd
  refine ⟨⟨d, hd, hd'⟩, ?_⟩
  rw [Node.sameDigest, hd, hd']
  exact congrArg Except.ok d.same_refl

/-- Trees that are one tree when sorted are written alike. -/
theorem markups_of_sorted_eq {a b : Node} (ha : a.WellTyped) (hb : b.WellTyped)
    (one : a.sorted = b.sorted) : (∃ f, a.markup = .error f ∧ b.markup = .error f) ∨
      ∃ s t u, a.markup = .ok s ∧ b.markup = .ok t ∧ s.length = t.length ∧
        a.sorted.markup = .ok u ∧ b.sorted.markup = .ok u := by
  have la : writtenLength a.sorted.markup = writtenLength a.markup := writtenLength_sorted ha none
  have lb : writtenLength b.sorted.markup = writtenLength b.markup := writtenLength_sorted hb none
  rw [one] at la
  cases hu : b.sorted.markup with
  | error f =>
    rw [hu] at la lb
    exact .inl ⟨f, writtenLength_error la.symm, writtenLength_error lb.symm⟩
  | ok u =>
    rw [hu] at la lb
    obtain ⟨s, hs, ls⟩ := writtenLength_ok la.symm
    obtain ⟨t, ht, lt⟩ := writtenLength_ok lb.symm
    exact .inr ⟨s, t, u, hs, ht, ls.trans lt.symm, one ▸ hu, rfl⟩

/-- **Equality is coherent** with digests and with markup. It is an equivalence; equal trees have
one digest; and they are both refused for the same reason, or written to texts of the same length,
to one text if the attributes of every element are sorted first. Sorting makes an equal tree. -/
theorem same_coherent {a b c : Node} (ha : a.WellTyped) (hb : b.WellTyped) (hc : c.WellTyped) :
    a.same a = true ∧ (a.same b = true → b.same a = true) ∧
    (a.same b = true → b.same c = true → a.same c = true) ∧
    (a.same b = true →
      (∃ d, a.digest = .ok d ∧ b.digest = .ok d) ∧ a.sameDigest b = .ok true ∧
      ((∃ f, a.markup = .error f ∧ b.markup = .error f) ∨
        ∃ s t u, a.markup = .ok s ∧ b.markup = .ok t ∧ s.length = t.length ∧
          a.sorted.markup = .ok u ∧ b.sorted.markup = .ok u)) ∧
    a.same a.sorted = true := by
  have sym := Node.same_iff_sorted hb ha
  have trans := Node.same_iff_sorted ha hc
  rw [Node.same_iff_sorted ha hb, Node.same_iff_sorted hb hc, sym, trans]
  refine ⟨a.same_refl, Eq.symm, Eq.trans, fun one => ?_, same_sorted ha⟩
  obtain ⟨digest, same⟩ := digests_of_sorted_eq ha one
  exact ⟨digest, same, markups_of_sorted_eq ha hb one⟩

/-- A tree with attributes at two depths. -/
def twoDepths (outer inner : Record) : Node :=
  .element (.str "a") outer [.node (.fragment [.node (.element (.str "b") inner [.ofText "<"])])]

/-- Two attributes, in descending order and in ascending order. -/
def descending : Record := [(.str "q", .str "&"), (.str "p", .str "")]

def ascending : Record := [(.str "p", .str ""), (.str "q", .str "&")]

theorem same_coherent_twoDepths : ∃ s t u,
    (twoDepths descending descending).same (twoDepths ascending ascending) = true ∧
    (twoDepths descending descending).sameDigest (twoDepths ascending descending) = .ok true ∧
    (twoDepths descending descending).markup = .ok s ∧
    (twoDepths ascending descending).markup = .ok t ∧ s ≠ t ∧ s.length = t.length ∧
    (twoDepths descending descending).sorted.markup = .ok u ∧
    (twoDepths ascending descending).sorted.markup = .ok u := by
  have typed : (twoDepths descending descending).WellTyped ∧
      (twoDepths ascending descending).WellTyped ∧ (twoDepths ascending ascending).WellTyped := by
    decide +kernel
  obtain ⟨-, -, trans, coherent, -⟩ := same_coherent typed.1 typed.2.1 typed.2.2
  have same : (twoDepths descending descending).same (twoDepths ascending descending) = true := by
    decide +kernel
  have first : (twoDepths descending descending).markup =
    .ok "<a q=\"&amp;\" p=\"\"><b q=\"&amp;\" p=\"\">&lt;</b></a>" := by rfl
  have second : (twoDepths ascending descending).markup =
    .ok "<a p=\"\" q=\"&amp;\"><b q=\"&amp;\" p=\"\">&lt;</b></a>" := by rfl
  obtain ⟨-, digests, ⟨f, failed, -⟩ | ⟨s, t, u, hs, ht, length, hu, hu'⟩⟩ := coherent same
  · rw [first] at failed
    cases failed
  · have apart : s ≠ t := by
      rw [← Except.ok.inj (first.symm.trans hs), ← Except.ok.inj (second.symm.trans ht)]
      decide +kernel
    exact ⟨s, t, u, trans same (by decide +kernel), digests, hs, ht, apart, length, hu, hu'⟩

end Hypertext
