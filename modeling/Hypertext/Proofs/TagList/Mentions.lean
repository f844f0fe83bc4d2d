import Mathlib.Data.List.DropRight
import Hypertext.Proofs.Record.Keyed
import Hypertext.TagList

/-!
# Attributes of a tag list

The items of a tag list mention attributes: a bare text mentions a class name, a record its entries.
`attributes` says what mentions come to without going through them: the keys in the order in which
they are first mentioned, each with its last value; only the class joins its last value with the
class names behind that.

* `attributes_concat`: one more mention is one more write.
* `foldl_write`: so a run of writes leaves what the mentions come to.
-/

namespace Hypertext.TagList

/-! ## Mentions of attributes -/

/-- What an item of a tag list says about attributes. -/
inductive Mention where
  | className (name : String)
  | entry (key value : String)
  deriving DecidableEq, Repr

namespace Mention

/-- The attribute that is meant. -/
def key : Mention → String
  | className _ => "class"
  | entry key _ => key

/-- The name, if this is a class name. -/
def name? : Mention → Option String
  | className name => some name
  | entry _ _ => none

/-- The value that is given to `key`, if this is an entry for it. -/
def value? (key : String) : Mention → Option String
  | className _ => none
  | entry k value => if k = key then some value else none

end Mention

/-- What the entries of a record say. -/
def entryMentions (entries : Record) : List Mention :=
  entries.filterMap fun
    | (.str key, .str value) => some (.entry key value)
    | _ => none

/-- What an item says. -/
def itemMentions : Value → List Mention
  | .str name => [.className name]
  | .record entries => entryMentions entries
  | _ => []

/-- What items say, one after another. -/
def mentions (items : List Value) : List Mention := items.flatMap itemMentions

/-- The last value that is given to `key`. -/
def lastValue? (key : String) (E : List Mention) : Option String :=
  (E.filterMap (Mention.value? key)).getLast?

/-- The class names behind the last value for the class, or all of them if there is none. -/
def laterNames (E : List Mention) : List String :=
  (E.rtakeWhile fun m => (m.value? "class").isNone).filterMap Mention.name?

/-- What the class is made of. -/
def classParts (E : List Mention) : List String := (lastValue? "class" E).toList ++ laterNames E

/-- What an attribute that is mentioned comes to. -/
def valueOf (E : List Mention) (key : String) : String :=
  if key = "class" then " ".intercalate (classParts E) else (lastValue? key E).getD ""

/-- The keys in the order in which they are first mentioned. -/
def mentionedKeys (E : List Mention) : List String := (E.map Mention.key).eraseDups

/-- The attributes that mentions come to. -/
def attributes (E : List Mention) : Record :=
  (mentionedKeys E).map fun key => (.str key, .str (valueOf E key))

example : attributes [.className "a", .entry "id" "x", .entry "class" "b", .entry "id" "y",
    .className "c", .className "d"] =
    [(.str "class", .str "b c d"), (.str "id", .str "y")] := by rfl

/-! ## One more mention -/

variable {E : List Mention} {key : String}

theorem lastValue?_concat (m : Mention) :
    lastValue? key (E ++ [m]) = (m.value? key).or (lastValue? key E) := by
  unfold lastValue?
  rw [List.filterMap_append]
  cases h : m.value? key <;> simp [h]

theorem classParts_concat_className (name : String) :
    classParts (E ++ [.className name]) = classParts E ++ [name] := by
  unfold classParts laterNames
  rw [lastValue?_concat, List.rtakeWhile_concat_pos _ _ _ rfl, List.filterMap_append,
    ← List.append_assoc]
  rfl

theorem classParts_concat_class (value : String) :
    classParts (E ++ [.entry "class" value]) = [value] := by
  unfold classParts laterNames
  rw [lastValue?_concat, List.rtakeWhile_concat_neg]
  · rfl
  · simp [Mention.value?]

theorem classParts_concat_entry (value : String) (h : key ≠ "class") :
    classParts (E ++ [.entry key value]) = classParts E := by
  have other : (Mention.entry key value).value? "class" = none := if_neg h
  unfold classParts laterNames
  rw [lastValue?_concat, List.rtakeWhile_concat_pos, List.filterMap_append, other]
  · simp [Mention.name?]
  · simp [other]

theorem mem_mentionedKeys : key ∈ mentionedKeys E ↔ ∃ m ∈ E, m.key = key := by
  unfold mentionedKeys
  rw [List.mem_eraseDups, List.mem_map]

theorem mentionedKeys_concat (m : Mention) : mentionedKeys (E ++ [m]) =
    if m.key ∈ mentionedKeys E then mentionedKeys E else mentionedKeys E ++ [m.key] := by
  unfold mentionedKeys
  rw [List.map_append, List.map_singleton, Record.eraseDups_concat]

theorem nodup_mentionedKeys (E : List Mention) : (mentionedKeys E).Nodup :=
  Record.nodup_eraseDups _

/-- There is nothing to join iff the class is not mentioned. -/
theorem classParts_eq_nil_iff : classParts E = [] ↔ "class" ∉ mentionedKeys E := by
  rw [mem_mentionedKeys]
  induction E using List.reverseRecOn with
  | nil => exact iff_of_true rfl (by simp)
  | append_singleton E m ih =>
    cases m with
    | className name =>
      rw [classParts_concat_className]
      exact iff_of_false (by simp) fun h => h ⟨.className name, by simp, rfl⟩
    | entry key value =>
      by_cases hk : key = "class"
      · subst hk
        rw [classParts_concat_class]
        exact iff_of_false (by simp) fun h => h ⟨.entry "class" value, by simp, rfl⟩
      · rw [classParts_concat_entry value hk, ih]
        simp [Mention.key, hk]

/-! ## Attributes, written and mentioned -/

/-- A mention taken into attributes. -/
def Mention.write (a : Record) : Mention → Record
  | className name => addClass name a
  | entry key value => Record.put key (.str value) a

/-- **One more mention** is one more write. -/
theorem attributes_concat (m : Mention) : attributes (E ++ [m]) = m.write (attributes E) := by
  have write (others : ∀ k, k ≠ m.key → valueOf (E ++ [m]) k = valueOf E k) :
      attributes (E ++ [m]) =
        Record.put m.key (.str (valueOf (E ++ [m]) m.key)) (attributes E) := by
    have := Record.put_keyed (f := fun k => .str (valueOf E k))
      (g := fun k => .str (valueOf (E ++ [m]) k))
      (fun k hk => congrArg Value.str (others k hk)) (nodup_mentionedKeys E)
    rw [← mentionedKeys_concat] at this
    exact this.symm
  cases m with
  | entry key value =>
    have last (k : String) : lastValue? k (E ++ [.entry key value]) =
        if key = k then some value else lastValue? k E := by
      rw [lastValue?_concat, Mention.value?]
      by_cases h : key = k <;> simp [h]
    have own : valueOf (E ++ [.entry key value]) key = value := by
      unfold valueOf
      by_cases h : key = "class"
      · rw [if_pos h, h, classParts_concat_class, String.intercalate_singleton]
      · rw [if_neg h, last, if_pos rfl, Option.getD_some]
    rw [write fun k hk => ?_]
    · exact congrArg (fun v => Record.put key (.str v) (attributes E)) own
    · have hk : key ≠ k := Ne.symm hk
      unfold valueOf
      rw [last, if_neg hk]
      by_cases h : k = "class"
      · rw [classParts_concat_entry value fun e => hk (e.trans h.symm)]
      · rw [if_neg h, if_neg h]
  | className name =>
    rw [write fun k hk => ?_]
    · have found : Record.find "class" (attributes E) =
          if "class" ∈ mentionedKeys E then some (.str (valueOf E "class")) else none :=
        Record.find_keyed _ _
      have joined : valueOf (E ++ [.className name]) "class" =
          " ".intercalate (classParts E ++ [name]) := by
        rw [valueOf, if_pos rfl, classParts_concat_className]
      show Record.put "class" (.str (valueOf (E ++ [.className name]) "class")) _ =
        addClass name (attributes E)
      unfold addClass
      rw [found, joined]
      by_cases h : "class" ∈ mentionedKeys E
      · have parts : classParts E ≠ [] := fun e => classParts_eq_nil_iff.mp e h
        rw [if_pos h, String.intercalate_append_of_ne_nil parts (by simp),
          String.intercalate_singleton]
        rfl
      · rw [if_neg h, classParts_eq_nil_iff.mpr h]
        rfl
    · have hk : k ≠ "class" := hk
      unfold valueOf
      rw [if_neg hk, if_neg hk, lastValue?_concat]
      rfl

/-- **A run of mentions** leaves the attributes that they come to, behind those mentioned before. -/
theorem foldl_write (more : List Mention) :
    more.foldl Mention.write (attributes E) = attributes (E ++ more) := by
  induction more generalizing E with
  | nil => rw [List.append_nil, List.foldl_nil]
  | cons m more ih =>
    rw [List.foldl_cons, ← attributes_concat, ih, List.append_assoc, List.singleton_append]

end Hypertext.TagList
