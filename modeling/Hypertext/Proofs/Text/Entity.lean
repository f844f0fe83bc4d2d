import Hypertext.Text.Escape

/-!
# Entities and reading them back

The passes of an escape each scan the output of the ones before. `Chained` says when a later pass
leaves the entities of earlier ones alone; the passes then come to a substitution of single
characters. `Coded` says when the entities can be told apart, from each other and from other text;
`unescape`, which reads from left to right, then undoes the substitution.

* `replaceAll_eq_flatMap`: passes one after another are one substitution.
* `unescape_substitute`: the substitution can be read back.
* `not_mem_substitute`: a character with an entity of its own does not come out.
-/

namespace Hypertext.Text

/-- Replacements: characters and their entities. -/
abbrev Passes := List (Char × String)

/-- A character in place of which its entity stands, if it has one. -/
def substitute (passes : Passes) (c : Char) : List Char :=
  match passes.find? fun p => p.1 = c with
  | some p => p.2.toList
  | none => [c]

/-- No pass changes the entity of one before it. -/
def Chained (passes : Passes) : Prop := passes.Pairwise fun p q => q.1 ∉ p.2.toList

/-- Every entity starts with an ampersand, the ampersand has an entity, and no entity begins
another. -/
structure Coded (passes : Passes) : Prop where
  start : ∀ p ∈ passes, p.2.toList.head? = some '&'
  ampersand : ∃ p ∈ passes, p.1 = '&'
  apart : ∀ p ∈ passes, ∀ q ∈ passes, p.2.toList <+: q.2.toList → p = q

/-! ## One substitution -/

theorem substitute_of_mem {passes : Passes} {c : Char} (h : ∃ p ∈ passes, p.1 = c) :
    ∃ p ∈ passes, p.1 = c ∧ substitute passes c = p.2.toList := by
  unfold substitute
  cases hf : passes.find? fun p => p.1 = c with
  | none =>
    obtain ⟨p, hp, hc⟩ := h
    exact absurd (decide_eq_true hc) (List.find?_eq_none.mp hf p hp)
  | some p =>
    have hc : p.1 = c := by simpa using List.find?_some hf
    exact ⟨p, List.mem_of_find?_eq_some hf, hc, rfl⟩

theorem substitute_of_not_mem {passes : Passes} {c : Char} (h : ∀ p ∈ passes, p.1 ≠ c) :
    substitute passes c = [c] := by
  unfold substitute
  rw [List.find?_eq_none.mpr fun p hp => by simpa using h p hp]

theorem flatMap_eq_self {f : Char → List Char} : ∀ {s : List Char}, (∀ c ∈ s, f c = [c]) →
    s.flatMap f = s
  | [], _ => rfl
  | c :: rest, h => by
    rw [List.flatMap_cons, h c List.mem_cons_self,
      flatMap_eq_self fun x hx => h x (List.mem_cons_of_mem c hx)]
    rfl

/-- **Chained passes are one substitution.** -/
theorem replaceAll_eq_flatMap : ∀ {passes : Passes}, Chained passes → ∀ s : List Char,
    replaceAll passes s = s.flatMap (substitute passes)
  | [], _, s => (flatMap_eq_self fun _ _ => rfl).symm
  | p :: passes, h, s => by
    obtain ⟨hp, hrest⟩ := List.pairwise_cons.mp h
    show replaceAll passes (replace p.1 p.2.toList s) = _
    rw [replaceAll_eq_flatMap hrest, replace, List.flatMap_assoc]
    congr 1
    funext c
    by_cases hc : c = p.1
    · have entity : p.2.toList.flatMap (substitute passes) = p.2.toList :=
        flatMap_eq_self fun x hx => substitute_of_not_mem fun q hq e => hp q hq (e ▸ hx)
      rw [if_pos hc, entity, substitute, List.find?_cons_of_pos (by simp [hc])]
    · rw [if_neg hc, List.flatMap_singleton, substitute, substitute,
        List.find?_cons_of_neg (by simpa using fun e => hc e.symm)]

/-! ## What comes out -/

theorem not_mem_substitute {passes : Passes} {c : Char} (h : ∃ p ∈ passes, p.1 = c)
    (he : ∀ p ∈ passes, c ∉ p.2.toList) (s : List Char) :
    c ∉ s.flatMap (substitute passes) := by
  intro hm
  obtain ⟨x, -, hx⟩ := List.mem_flatMap.mp hm
  by_cases hxp : ∃ p ∈ passes, p.1 = x
  · obtain ⟨p, hp, -, e⟩ := substitute_of_mem hxp
    exact he p hp (e ▸ hx)
  · rw [substitute_of_not_mem fun p hp e => hxp ⟨p, hp, e⟩, List.mem_singleton] at hx
    exact hxp (hx ▸ h)

/-! ## Reading back -/

/-- Every entity becomes its character, from left to right. -/
def unescape (passes : Passes) : List Char → List Char
  | [] => []
  | c :: rest =>
    match passes.find? fun p => p.2.toList.isPrefixOf (c :: rest) with
    | some p => p.1 :: unescape passes (rest.drop (p.2.toList.length - 1))
    | none => c :: unescape passes rest
termination_by s => s.length
decreasing_by
  · rw [List.length_drop, List.length_cons]
    omega
  · exact Nat.lt_add_one _

variable {passes : Passes}

theorem unescape_entity (h : Coded passes) {p : Char × String} (hp : p ∈ passes)
    (rest : List Char) : unescape passes (p.2.toList ++ rest) = p.1 :: unescape passes rest := by
  obtain ⟨tail, ht⟩ : ∃ tail, p.2.toList = '&' :: tail :=
    List.head?_eq_some_iff.mp (h.start p hp)
  -- Another entity found here would begin this one or be begun by it.
  have found : (passes.find? fun q => q.2.toList.isPrefixOf ('&' :: (tail ++ rest))) = some p := by
    cases hf : passes.find? fun q => q.2.toList.isPrefixOf ('&' :: (tail ++ rest)) with
    | none =>
      have := List.find?_eq_none.mp hf p hp
      rw [List.isPrefixOf_iff_prefix, ht, ← List.cons_append] at this
      exact absurd (List.prefix_append _ _) this
    | some q =>
      have hq := List.mem_of_find?_eq_some hf
      have hpre := List.find?_some hf
      rw [List.isPrefixOf_iff_prefix, ← List.cons_append, ← ht] at hpre
      rcases List.prefix_or_prefix_of_prefix hpre (List.prefix_append _ _) with hqp | hpq
      · rw [h.apart q hq p hp hqp]
      · rw [h.apart p hp q hq hpq]
  rw [ht, List.cons_append, unescape, found]
  simp [ht]

theorem unescape_cons (h : Coded passes) {c : Char} (hc : c ≠ '&') (rest : List Char) :
    unescape passes (c :: rest) = c :: unescape passes rest := by
  have missed : (passes.find? fun q => q.2.toList.isPrefixOf (c :: rest)) = none := by
    rw [List.find?_eq_none]
    intro p hp hpre
    obtain ⟨tail, ht⟩ : ∃ tail, p.2.toList = '&' :: tail :=
      List.head?_eq_some_iff.mp (h.start p hp)
    rw [List.isPrefixOf_iff_prefix, ht, List.cons_prefix_cons] at hpre
    exact hc hpre.1.symm
  rw [unescape, missed]

/-- **The substitution can be read back.** -/
theorem unescape_substitute (h : Coded passes) : ∀ s : List Char,
    unescape passes (s.flatMap (substitute passes)) = s
  | [] => by rw [List.flatMap_nil, unescape]
  | c :: rest => by
    rw [List.flatMap_cons]
    by_cases hc : ∃ p ∈ passes, p.1 = c
    · obtain ⟨p, hp, rfl, e⟩ := substitute_of_mem hc
      rw [e, unescape_entity h hp, unescape_substitute h rest]
    · have plain : c ≠ '&' := by
        rintro rfl
        exact hc h.ampersand
      rw [substitute_of_not_mem fun p hp e => hc ⟨p, hp, e⟩, List.singleton_append,
        unescape_cons h plain, unescape_substitute h rest]

/-! ## The two escapes -/

theorem chained_textPasses : Chained textPasses := by
  unfold Chained
  decide

theorem chained_attributePasses : Chained attributePasses := by
  unfold Chained
  decide

theorem coded_textPasses : Coded textPasses := ⟨by decide, by decide, by decide⟩

theorem coded_attributePasses : Coded attributePasses := ⟨by decide, by decide, by decide⟩

theorem toList_escapeText (s : String) :
    (escapeText s).toList = s.toList.flatMap (substitute textPasses) := by
  rw [escapeText, String.toList_ofList, replaceAll_eq_flatMap chained_textPasses]

theorem toList_escapeAttribute (s : String) :
    (escapeAttribute s).toList = s.toList.flatMap (substitute attributePasses) := by
  rw [escapeAttribute, String.toList_ofList, replaceAll_eq_flatMap chained_attributePasses]

end Hypertext.Text
