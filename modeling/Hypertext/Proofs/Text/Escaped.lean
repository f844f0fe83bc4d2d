import Hypertext.Proofs.Text.Entity

/-!
# Escaping as a substitution

An escape (`escape_text`, `escape_attribute`) scans a text once for each character that has an
entity, and every scan but the first runs over entities that are there already. `textForm` and
`attributeForm` say what a single scan would put in place of each character. `Faithful` collects
what it takes for an escape to be that substitution and to lose nothing.

* `entity_at_ampersand`: in a substituted text, an ampersand stands where an entity begins.
* `faithful_of_coded`: chained passes whose entities can be told apart make a faithful escape.
* **`escapes_faithful`**: both escapes are faithful.
-/

namespace Hypertext.Text

/-- What stands between tags for a character. -/
def textForm : Char → List Char
  | '&' => "&amp;".toList
  | '\u00a0' => "&nbsp;".toList
  | '<' => "&lt;".toList
  | '>' => "&gt;".toList
  | c => [c]

/-- What stands in the quotes of an attribute for a character. -/
def attributeForm : Char → List Char
  | '&' => "&amp;".toList
  | '\u00a0' => "&nbsp;".toList
  | '"' => "&quot;".toList
  | c => [c]

/-- The escape puts `form c` in place of every character `c`, so that no character of `gone` is
left, and it can be undone by reading the entities of `passes`. -/
structure Faithful (escape : String → String) (form : Char → List Char) (gone : List Char)
    (passes : Passes) : Prop where
  /-- One pass does. -/
  substitution : ∀ s : String, (escape s).toList = s.toList.flatMap form
  append : ∀ s t : String, escape (s ++ t) = escape s ++ escape t
  absent : ∀ s : String, ∀ c ∈ gone, c ∉ (escape s).toList
  /-- Every ampersand begins an entity. -/
  ampersand : ∀ (s : String) (before rest : List Char),
    (escape s).toList = before ++ '&' :: rest → ∃ p ∈ passes, p.2.toList <+: '&' :: rest
  /-- Reading the entities from left to right gives the text back. -/
  readable : ∀ s : String, unescape passes (escape s).toList = s.toList

/-! ## Ampersands -/

variable {passes : Passes}

/-- What begins with an ampersand inside an entity, or inside a character that stands for itself, is
the entity. -/
theorem eq_entity_of_ampersand (h : Coded passes) (once : ∀ p ∈ passes, '&' ∉ p.2.toList.tail)
    {c : Char} {before rest : List Char} (e : substitute passes c = before ++ '&' :: rest) :
    ∃ p ∈ passes, p.2.toList = '&' :: rest := by
  by_cases hc : ∃ p ∈ passes, p.1 = c
  · obtain ⟨p, hp, -, hs⟩ := substitute_of_mem hc
    have entity : p.2.toList = before ++ '&' :: rest := hs.symm.trans e
    cases before with
    | nil => exact ⟨p, hp, entity⟩
    | cons x before =>
      refine absurd ?_ (once p hp)
      rw [entity]
      simp
  · rw [substitute_of_not_mem fun p hp hpc => hc ⟨p, hp, hpc⟩] at e
    have : '&' ∈ [c] := by
      rw [e]
      simp
    rw [List.mem_singleton] at this
    exact absurd (this ▸ h.ampersand) hc

/-- **An ampersand stands where an entity begins.** -/
theorem entity_at_ampersand (h : Coded passes) (once : ∀ p ∈ passes, '&' ∉ p.2.toList.tail)
    {s before rest : List Char} (e : s.flatMap (substitute passes) = before ++ '&' :: rest) :
    ∃ p ∈ passes, p.2.toList <+: '&' :: rest := by
  induction s generalizing before with
  | nil => simp at e
  | cons c s ih =>
    rw [List.flatMap_cons, List.append_eq_append_iff] at e
    obtain ⟨between, -, later⟩ | ⟨piece, here, later⟩ := e
    · exact ih later
    · -- The ampersand stands in what `c` became, unless nothing is left of that.
      cases piece with
      | nil =>
        have next : s.flatMap (substitute passes) = [] ++ '&' :: rest := later.symm
        exact ih next
      | cons x piece =>
        obtain ⟨rfl, -⟩ := List.cons.inj later
        obtain ⟨p, hp, entity⟩ := eq_entity_of_ampersand h once here
        refine ⟨p, hp, ?_⟩
        rw [entity, later]
        exact List.prefix_append _ _

/-! ## Faithful escapes -/

theorem faithful_of_coded {form : Char → List Char} {gone : List Char} (hc : Chained passes)
    (h : Coded passes) (once : ∀ p ∈ passes, '&' ∉ p.2.toList.tail)
    (hf : ∀ c, substitute passes c = form c)
    (hg : ∀ c ∈ gone, (∃ p ∈ passes, p.1 = c) ∧ ∀ p ∈ passes, c ∉ p.2.toList) :
    Faithful (fun s => String.ofList (replaceAll passes s.toList)) form gone passes where
  substitution s := by
    rw [String.toList_ofList, replaceAll_eq_flatMap hc, funext hf]
  append s t := by
    rw [String.toList_append, replaceAll_append, String.ofList_append]
  absent s c hm := by
    rw [String.toList_ofList, replaceAll_eq_flatMap hc]
    exact not_mem_substitute (hg c hm).1 (hg c hm).2 s.toList
  ampersand s before rest e := by
    rw [String.toList_ofList, replaceAll_eq_flatMap hc] at e
    exact entity_at_ampersand h once e
  readable s := by
    rw [String.toList_ofList, replaceAll_eq_flatMap hc]
    exact unescape_substitute h s.toList

theorem substitute_textPasses (c : Char) : substitute textPasses c = textForm c := by
  unfold textForm
  split
  · rfl
  · rfl
  · rfl
  · rfl
  · rename_i ampersand space opening closing
    refine substitute_of_not_mem ?_
    simp only [textPasses, List.forall_mem_cons]
    exact ⟨fun e => ampersand e.symm, fun e => space e.symm, fun e => opening e.symm,
      fun e => closing e.symm, List.forall_mem_nil _⟩

theorem substitute_attributePasses (c : Char) :
    substitute attributePasses c = attributeForm c := by
  unfold attributeForm
  split
  · rfl
  · rfl
  · rfl
  · rename_i ampersand space quote
    refine substitute_of_not_mem ?_
    simp only [attributePasses, List.forall_mem_cons]
    exact ⟨fun e => ampersand e.symm, fun e => space e.symm, fun e => quote e.symm,
      List.forall_mem_nil _⟩

theorem gone_textPasses : ∀ c ∈ ['<', '>', '\u00a0'],
    (∃ p ∈ textPasses, p.1 = c) ∧ ∀ p ∈ textPasses, c ∉ p.2.toList := by
  rw [List.forall_mem_cons, List.forall_mem_cons, List.forall_mem_singleton]
  decide

theorem gone_attributePasses : ∀ c ∈ ['"', '\u00a0'],
    (∃ p ∈ attributePasses, p.1 = c) ∧ ∀ p ∈ attributePasses, c ∉ p.2.toList := by
  rw [List.forall_mem_cons, List.forall_mem_singleton]
  decide

/-- **Both escapes are faithful**: passes over the whole text, one after another, put an entity in
place of each character that has one and leave the others. So they go piece by piece, let no
bracket, quote or hard space through, and can be read back, also from a text that looks escaped
itself. -/
theorem escapes_faithful :
    Faithful escapeText textForm ['<', '>', '\u00a0'] textPasses ∧
    Faithful escapeAttribute attributeForm ['"', '\u00a0'] attributePasses :=
  ⟨faithful_of_coded chained_textPasses coded_textPasses (by decide) substitute_textPasses
      gone_textPasses,
    faithful_of_coded chained_attributePasses coded_attributePasses (by decide)
      substitute_attributePasses gone_attributePasses⟩

example : escapeText "&lt;<\u00a0&" = "&amp;lt;&lt;&nbsp;&amp;" := by decide

end Hypertext.Text
