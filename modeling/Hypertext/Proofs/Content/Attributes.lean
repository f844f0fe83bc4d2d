import Mathlib.Data.List.TakeWhile
import Hypertext.Proofs.Content.Flat
import Hypertext.Proofs.Content.Trail
import Hypertext.Proofs.Record.LastWrites

/-!
# What an element is built from

An element (`element`) takes its attributes from the records in its content and from its keywords,
and its children from everything else. `records` and `others` take content apart in this way;
`writes` is the sequence of entries that the attributes are written from. Each half of the element
depends on its own half of the content only, so it does not matter how the two are mixed.

* `outcome_element`: an element comes out if no leaf of its content has a fault.
* `faultless_iff`, `flatMap_stepEntries`, `flatMap_stepNodes`: the faults, the entries and the nodes
  of leaves, half by half.
* **`element_writes`**: what the attributes and the children of an element are.
-/

namespace Hypertext.Content

/-! ## The two halves of content -/

/-- The records among steps. -/
def stepRecords (steps : List Step) : List Record :=
  steps.filterMap fun
    | .item (.record entries) => some entries
    | _ => none

/-- The steps that are neither records nor events. -/
def stepOthers (steps : List Step) : List Step :=
  steps.filter fun
    | .item (.record _) | .note _ => false
    | _ => true

/-- The records in content at any depth, from left to right. -/
def records (content : List Value) : List Record := stepRecords (flat (.tuple content))

/-- The leaves of content besides its records, from left to right. -/
def others (content : List Value) : List Step := stepOthers (flat (.tuple content))

variable {site : Site} {steps : List Step}

theorem entryRefusal?_eq_none_iff {label : String} {e : Value × Value} :
    entryRefusal? label e = none ↔ isEntry e = true := by
  obtain ⟨k, v⟩ := e
  cases k with
  | str key => cases v <;> simp [entryRefusal?, isEntry]
  | _ => simp [entryRefusal?, isEntry]

theorem stepFault?_record {entries : Record} :
    stepFault? site true (.item (.record entries)) = none ↔ ∀ e ∈ entries, isEntry e = true := by
  simp only [stepFault?, refusal?, if_true, Option.map_eq_none_iff, List.findSome?_eq_none_iff,
    entryRefusal?_eq_none_iff]

/-- **Faults, half by half.** With room for attributes, a record has no fault if all its entries
may be there; the other leaves are judged as they are. -/
theorem faultless_iff : (∀ s ∈ steps, stepFault? site true s = none) ↔
    (∀ entries ∈ stepRecords steps, ∀ e ∈ entries, isEntry e = true) ∧
      ∀ s ∈ stepOthers steps, stepFault? site true s = none := by
  induction steps with
  | nil => simp [stepRecords, stepOthers]
  | cons s steps ih =>
    rw [List.forall_mem_cons, ih]
    cases s with
    | item v =>
      cases v with
      | record entries =>
        rw [stepFault?_record]
        show _ ↔ (∀ r ∈ entries :: stepRecords steps, _) ∧ ∀ s ∈ stepOthers steps, _
        rw [List.forall_mem_cons, and_assoc]
      | _ =>
        show _ ↔ _ ∧ ∀ s ∈ _ :: stepOthers steps, _
        rw [List.forall_mem_cons]
        exact and_left_comm
    | note e => exact and_iff_right rfl
    | fail f =>
      show _ ↔ _ ∧ ∀ s ∈ _ :: stepOthers steps, _
      rw [List.forall_mem_cons]
      exact and_left_comm

/-- **Nodes come from the others.** -/
theorem flatMap_stepNodes (steps : List Step) :
    steps.flatMap stepNodes = (stepOthers steps).flatMap stepNodes := by
  induction steps with
  | nil => rfl
  | cons s steps ih =>
    rw [List.flatMap_cons, ih]
    cases s with
    | item v =>
      cases v with
      | record entries => rfl
      | _ => rfl
    | note e => rfl
    | fail f => rfl

/-- **Entries come from the records**, which are written to their ends if they have no fault. -/
theorem flatMap_stepEntries
    (h : ∀ entries ∈ stepRecords steps, ∀ e ∈ entries, isEntry e = true) :
    steps.flatMap stepEntries = (stepRecords steps).flatten := by
  induction steps with
  | nil => rfl
  | cons s steps ih =>
    rw [List.flatMap_cons]
    cases s with
    | item v =>
      cases v with
      | record entries =>
        obtain ⟨whole, rest⟩ := List.forall_mem_cons.mp h
        show entries.takeWhile isEntry ++ _ = entries ++ (stepRecords steps).flatten
        rw [List.takeWhile_eq_self_iff.mpr whole, ih rest]
      | _ => exact ih h
    | note e => exact ih h
    | fail f => exact ih h

/-! ## Keywords -/

/-- `bare` is `key` without the underscores around it. -/
structure Stripped (key bare : String) : Prop where
  around : ∃ m n, key.toList = List.replicate m '_' ++ bare.toList ++ List.replicate n '_'
  first : bare.toList.head? ≠ some '_'
  last : bare.toList.getLast? ≠ some '_'

/-- Dropping the underscores in front of characters. -/
theorem exists_dropWhile_underscore (cs : List Char) :
    ∃ n, cs = List.replicate n '_' ++ cs.dropWhile (· = '_') := by
  have dropped : cs.takeWhile (· = '_') = List.replicate (cs.takeWhile (· = '_')).length '_' := by
    refine List.eq_replicate_iff.mpr ⟨rfl, fun c hc => ?_⟩
    have underscore := List.mem_takeWhile_imp hc
    exact of_decide_eq_true underscore
  exact ⟨_, dropped ▸ List.takeWhile_append_dropWhile.symm⟩

theorem head?_dropWhile_underscore (cs : List Char) :
    (cs.dropWhile (· = '_')).head? ≠ some '_' := by
  intro h
  have := List.head?_dropWhile_not (· = '_') cs
  simp [h] at this

/-- **A keyword's key** is the keyword without the underscores around it. -/
theorem stripped_keywordName (key : String) : Stripped key (keywordName key) := by
  let core := key.toList.dropWhile (· = '_')
  have bare : (keywordName key).toList.reverse = core.reverse.dropWhile (· = '_') := by
    rw [keywordName, String.toList_ofList, List.reverse_reverse]
  obtain ⟨m, hm⟩ := exists_dropWhile_underscore key.toList
  obtain ⟨n, hn⟩ := exists_dropWhile_underscore core.reverse
  have hcore : core = (keywordName key).toList ++ List.replicate n '_' := by
    rw [← bare] at hn
    have := congrArg List.reverse hn
    simpa using this
  have hfirst : core.head? ≠ some '_' := head?_dropWhile_underscore _
  refine ⟨⟨m, n, ?_⟩, fun h => ?_, fun h => ?_⟩
  · rw [List.append_assoc, ← hcore]
    exact hm
  · rw [hcore, List.head?_append, h] at hfirst
    exact hfirst rfl
  · rw [← List.head?_reverse, bare] at h
    exact head?_dropWhile_underscore _ h

/-- The entries that keywords write: those with a value, under their bare keys. -/
def keywordWrites (keywords : List (String × Value)) : Record :=
  keywords.filterMap fun
    | (_, .null) => none
    | (key, v) => some (.str (keywordName key), v)

theorem putKeywords_eq (keywords : List (String × Value)) (a : Record) :
    putKeywords keywords a = a.writeAll (keywordWrites keywords) := by
  induction keywords generalizing a with
  | nil => rfl
  | cons k keywords ih =>
    obtain ⟨key, v⟩ := k
    cases v with
    | null => exact ih a
    | _ => exact ih _

theorem textKeys_keywordWrites (keywords : List (String × Value)) :
    Record.TextKeys (keywordWrites keywords) := by
  intro e he
  obtain ⟨⟨key, v⟩, -, hk⟩ := List.mem_filterMap.mp he
  cases v with
  | null => cases hk
  | _ =>
    cases hk
    exact ⟨_, rfl⟩

/-! ## Elements -/

/-- The entries that the attributes of an element are written from. -/
def writes (content : List Value) (keywords : List (String × Value)) : Record :=
  (records content).flatten ++ keywordWrites keywords

theorem textKeys_flatten {rs : List Record} (h : ∀ entries ∈ rs, ∀ e ∈ entries, isEntry e = true) :
    Record.TextKeys rs.flatten := by
  intro e he
  obtain ⟨entries, hr, hm⟩ := List.mem_flatten.mp he
  have := h entries hr e hm
  obtain ⟨k, v⟩ := e
  cases k with
  | str key => exact ⟨key, rfl⟩
  | _ => cases this

/-- Content is taken in if no leaf of it has a fault. -/
theorem outcome_content {content : List Value} {d : Draft} :
    (appendItems site 0 content .empty).traced.outcome = .ok d ↔
      (∀ s ∈ flat (.tuple content), stepFault? site true s = none) ∧
        d = Draft.empty.afterAll (leaves (.tuple content)) := by
  have steps : (∀ s ∈ flat (.tuple content), stepFault? site true s = none) ↔
      ∀ l ∈ leaves (.tuple content), stepFault? site true l.step = none := List.forall_mem_map
  rw [appendItems_eq_append, append_eq_runLeaves rfl, steps]
  rcases firstFault_or site true (leaves (.tuple content)) with hs | ⟨before, l, f, hf⟩
  · rw [runLeaves_done hs, and_iff_right hs]
    exact ⟨fun h => (Except.ok.inj h).symm, fun h => congrArg Except.ok h.symm⟩
  · have faulty : l ∈ leaves (.tuple content) := by
      obtain ⟨rest, hsplit⟩ := hf.split
      simp [hsplit]
    rw [runLeaves_stopped hf]
    refine ⟨nofun, fun h => ?_⟩
    have := h.1 l faulty
    rw [hf.fault] at this
    cases this

/-- What is built when all of some content is taken in. -/
theorem afterAll_leaves {content : List Value} (keywords : List (String × Value))
    (h : ∀ entries ∈ records content, ∀ e ∈ entries, isEntry e = true) :
    (Draft.empty.afterAll (leaves (.tuple content))).nodes = (others content).flatMap stepNodes ∧
      putKeywords keywords
          ((Draft.empty.afterAll (leaves (.tuple content))).attributes.getD []) =
        Record.writeAll [] (writes content keywords) := by
  have nodes : ((leaves (.tuple content)).flatMap fun l => stepNodes l.step) =
      (others content).flatMap stepNodes := by
    rw [others, ← flatMap_stepNodes, flat, List.flatMap_map]
  have entries : ((leaves (.tuple content)).flatMap fun l => stepEntries l.step) =
      (records content).flatten := by
    rw [records, ← flatMap_stepEntries h, flat, List.flatMap_map]
  rw [afterAll_nodes, afterAll_attributes, nodes, entries]
  refine ⟨rfl, ?_⟩
  rw [putKeywords_eq, writes, Record.writeAll_append]
  rfl

/-- **What comes out as an element**: content in which no leaf has a fault, with the attributes
written from its records and then from the keywords, around the nodes of its other leaves. -/
theorem outcome_element {label : String} {content : List Value} {keywords : List (String × Value)}
    {n : Node} : (element (.str label) content keywords).outcome = .ok n ↔
      (∀ entries ∈ records content, ∀ e ∈ entries, isEntry e = true) ∧
        (∀ s ∈ others content, stepFault? (.element label) true s = none) ∧
        n = .element (.str label) (Record.writeAll [] (writes content keywords))
          ((others content).flatMap stepNodes) := by
  rw [element, Traced.outcome_bind]
  constructor
  · intro h
    obtain ⟨d, hc, h⟩ := exists_of_bind_ok h
    obtain ⟨faultless, rfl⟩ := outcome_content.mp hc
    obtain ⟨hr, ho⟩ := faultless_iff.mp faultless
    obtain ⟨nodes, attributes⟩ := afterAll_leaves keywords hr
    refine ⟨hr, ho, ?_⟩
    rw [← nodes, ← attributes]
    exact (Except.ok.inj h).symm
  · rintro ⟨hr, ho, rfl⟩
    rw [outcome_content.mpr ⟨faultless_iff.mpr ⟨hr, ho⟩, rfl⟩]
    obtain ⟨nodes, attributes⟩ := afterAll_leaves keywords hr
    rw [← nodes, ← attributes]
    rfl

theorem exists_label {name : Value} {content : List Value} {keywords : List (String × Value)}
    {n : Node} (h : (element name content keywords).outcome = .ok n) :
    ∃ label, name = .str label := by
  cases name with
  | str label => exact ⟨label, rfl⟩
  | _ => cases h

/-- **Attributes are what a sequence of writes leaves behind**, and children are what the rest of
the content comes to. The writes are the entries of all records in the content and then the
keywords with a value, under their bare keys; the last write of a key decides on it, and the keys
stand in the order in which they came in for good. Elements from the same writes have the same
attributes, and elements from the same rest have the same children; content with the same records
and the same rest makes the same element, however the two are mixed. -/
theorem element_writes {name : Value} {content : List Value} {keywords : List (String × Value)}
    {n : Node} (h : (element name content keywords).outcome = .ok n) :
    ∃ a children, n = .element name a children ∧
      (∀ k ∈ keywords, Stripped k.1 (keywordName k.1)) ∧
      Record.LastWrites (writes content keywords) a ∧
      (∀ b, Record.LastWrites (writes content keywords) b → b = a) ∧
      children = (others content).flatMap stepNodes ∧
      ∀ content',
        (records content' = records content → others content' = others content →
          (element name content' keywords).outcome = .ok n) ∧
        ∀ name' keywords' n', (element name' content' keywords').outcome = .ok n' →
          ∃ a' children', n' = .element name' a' children' ∧
            (writes content' keywords' = writes content keywords → a' = a) ∧
            (others content' = others content → children' = children) := by
  obtain ⟨label, rfl⟩ := exists_label h
  obtain ⟨hr, ho, rfl⟩ := outcome_element.mp h
  have left : Record.LastWrites (writes content keywords)
      (Record.writeAll [] (writes content keywords)) :=
    Record.lastWrites_nil.writeAll <|
      List.forall_mem_append.mpr ⟨textKeys_flatten hr, textKeys_keywordWrites keywords⟩
  refine ⟨_, _, rfl, fun k _ => stripped_keywordName k.1, left, fun b hb => hb.unique left, rfl,
    fun content' => ⟨fun hr' ho' => ?_, fun name' keywords' n' h' => ?_⟩⟩
  · rw [outcome_element, writes, writes, hr', ho']
    exact ⟨hr, ho, rfl⟩
  · obtain ⟨label', rfl⟩ := exists_label h'
    obtain ⟨-, -, rfl⟩ := outcome_element.mp h'
    refine ⟨_, _, rfl, fun hw => ?_, fun hn => ?_⟩
    · rw [hw]
    · rw [hn]

/-- Records at three depths. The class is written, taken away and written again, so that it comes in
after the id. -/
def mixedContent : List Value :=
  [.record [(.str "class", .str "x"), (.str "id", .str "a")], .list [.str "t",
    .stream 0 [.item (.tuple [.record [(.str "class", .null)], .node (.comment (.str "c"))]),
      .note (.wroteFragment 0), .item (.record [(.str "class", .str "y")])]]]

/-- The same with the records in front. -/
def sortedContent : List Value :=
  (records mixedContent).map .record ++ [.str "t", .node (.comment (.str "c"))]

/-- Keywords of which one meets the class of a record, one has no value, and two come to the same
empty key. -/
def mixedKeywords : List (String × Value) :=
  [("_", .str "d"), ("class_", .str "z"), ("id", .null), ("__", .str "e")]

/-- What they are built into. -/
def mixedElement : Node :=
  .element (.str "p") [(.str "id", .str "a"), (.str "class", .str "z"), (.str "", .str "e")]
    [.ofText "t", .node (.comment (.str "c"))]

theorem element_writes_mixed :
    (element (.str "p") mixedContent mixedKeywords).outcome = .ok mixedElement ∧
    Record.LastWrites (writes mixedContent mixedKeywords)
      [(.str "id", .str "a"), (.str "class", .str "z"), (.str "", .str "e")] ∧
    (element (.str "p") sortedContent mixedKeywords).outcome = .ok mixedElement := by
  have built : (element (.str "p") mixedContent mixedKeywords).outcome = .ok mixedElement := rfl
  obtain ⟨a, children, e, -, left, -, -, same⟩ := element_writes built
  cases e
  exact ⟨built, left, (same sortedContent).1 rfl rfl⟩

end Hypertext.Content
