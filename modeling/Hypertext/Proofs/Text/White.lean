import Hypertext.Text.Occurs
import Hypertext.Proofs.Text.Breaks
import Hypertext.Proofs.Text.Entity

/-!
# White space

Spaces, tabs and line breaks come and go in a layout. `squeeze` is a text without them: two texts
with the same squeezed form differ in white space only.

* `squeeze_reindent`: moving lines in by white space changes white space only.
* `squeeze_escapeText`: texts that differ in white space only still do when they are escaped, since
  white space has no entities and stands in none.
* `contains_reindent`: a part without white space stands in a text iff it stands in the text with
  its lines moved in.
-/

namespace Hypertext.Text

/-- A space, a tab or a line break. -/
def isWhite (c : Char) : Bool := c = ' ' || c = '\t' || c = '\n'

/-- There is nothing but white space. -/
def White (s : List Char) : Prop := ∀ c ∈ s, isWhite c = true

/-- There is no white space. -/
def Inked (s : List Char) : Prop := ∀ c ∈ s, isWhite c = false

-- By name, so that the characters of the text are gone through and not all there are.
instance (s : List Char) : Decidable (White s) := List.decidableBAll (isWhite · = true) s

instance (s : List Char) : Decidable (Inked s) := List.decidableBAll (isWhite · = false) s

/-- The characters that are no white space. -/
def ink (s : List Char) : List Char := s.filter fun c => !isWhite c

/-- A text without its white space. -/
def squeeze (s : String) : String := String.ofList (ink s.toList)

theorem ink_append (a b : List Char) : ink (a ++ b) = ink a ++ ink b :=
  List.filter_append ..

theorem ink_of_white {s : List Char} (h : White s) : ink s = [] :=
  List.filter_eq_nil_iff.mpr fun c hc => by simp [h c hc]

theorem ink_of_inked {s : List Char} (h : Inked s) : ink s = s :=
  List.filter_eq_self.mpr fun c hc => by simp [h c hc]

theorem ink_cons (c : Char) (s : List Char) :
    ink (c :: s) = if isWhite c then ink s else c :: ink s := by
  by_cases h : isWhite c = true
  · rw [if_pos h]
    exact List.filter_cons_of_neg (by simp [h])
  · rw [if_neg h]
    exact List.filter_cons_of_pos (by simpa using h)

theorem squeeze_append (s t : String) : squeeze (s ++ t) = squeeze s ++ squeeze t := by
  unfold squeeze
  rw [String.toList_append, ink_append, String.ofList_append]

theorem squeeze_of_white {s : String} (h : White s.toList) : squeeze s = "" := by
  unfold squeeze
  rw [ink_of_white h]

theorem squeeze_eq_iff {s t : String} : squeeze s = squeeze t ↔ ink s.toList = ink t.toList :=
  String.ofList_inj

/-! ## Margins -/

theorem white_newline : White "\n".toList := by decide

theorem white_of_blanks {s : List Char} (h : ∀ c ∈ s, c = ' ' ∨ c = '\t') : White s := by
  intro c hc
  rcases h c hc with rfl | rfl <;> rfl

theorem white_margin {indent : String} (h : White indent.toList) (level : Int) :
    White (margin indent level).toList :=
  fun c hc => h c (mem_of_mem_margin hc)

theorem ink_behindBreaks {m : List Char} (hm : White m) (s : List Char) :
    ink (behindBreaks m s) = ink s := by
  induction s using breaks_induction with
  | nil => rfl
  | ending rest h ih =>
    rw [behindBreaks_ending h, ink_cons, ink_append, ink_of_white hm, List.nil_append, ih,
      ← ink_cons]
  | other c rest h ih => rw [behindBreaks_other h, ink_cons, ih, ← ink_cons]

/-- **Moving lines in by white space changes white space only.** -/
theorem squeeze_reindent {indent : String} (h : White indent.toList) (s : String) (level : Int) :
    squeeze (reindent s indent level) = squeeze s := by
  rw [squeeze_eq_iff, toList_reindent, ink_behindBreaks (white_margin h level)]

/-! ## Escapes -/

/-- White space has no entities and stands in none. -/
structure SparesWhite (passes : Passes) : Prop where
  keys : ∀ p ∈ passes, isWhite p.1 = false
  entities : ∀ p ∈ passes, Inked p.2.toList

theorem substitute_of_isWhite {passes : Passes} (h : SparesWhite passes) {c : Char}
    (hc : isWhite c = true) : substitute passes c = [c] :=
  substitute_of_not_mem fun p hp e => by
    have := h.keys p hp
    rw [e, hc] at this
    cases this

theorem ink_flatMap_substitute {passes : Passes} (h : SparesWhite passes) (s : List Char) :
    ink (s.flatMap (substitute passes)) = (ink s).flatMap (substitute passes) := by
  induction s with
  | nil => rfl
  | cons c s ih =>
    rw [List.flatMap_cons, ink_append, ih, ink_cons]
    by_cases hc : isWhite c = true
    · rw [if_pos hc, substitute_of_isWhite h hc, ink_cons, if_pos hc]
      rfl
    · rw [if_neg hc, List.flatMap_cons]
      congr 1
      refine ink_of_inked ?_
      by_cases hp : ∃ p ∈ passes, p.1 = c
      · obtain ⟨p, hm, -, e⟩ := substitute_of_mem hp
        rw [e]
        exact h.entities p hm
      · rw [substitute_of_not_mem fun p hm e => hp ⟨p, hm, e⟩]
        intro x hx
        rw [List.mem_singleton.mp hx]
        simpa using hc

theorem sparesWhite_textPasses : SparesWhite textPasses := by
  refine ⟨?_, ?_⟩
  · decide
  · decide

/-- **Escaping keeps texts alike** that differ in white space only. -/
theorem squeeze_escapeText {s t : String} (h : squeeze s = squeeze t) :
    squeeze (escapeText s) = squeeze (escapeText t) := by
  rw [squeeze_eq_iff] at h ⊢
  rw [toList_escapeText, toList_escapeText, ink_flatMap_substitute sparesWhite_textPasses,
    ink_flatMap_substitute sparesWhite_textPasses, h]

theorem escapeText_of_white {s : String} (h : White s.toList) : escapeText s = s := by
  rw [← String.toList_inj, toList_escapeText]
  exact flatMap_eq_self fun c hc => substitute_of_isWhite sparesWhite_textPasses (h c hc)

/-! ## Parts of a text -/

variable {part : List Char}

/-- A part without white space does not begin with any. -/
theorem isPrefixOf_white (hne : part ≠ []) (hp : Inked part) {c : Char}
    (hc : isWhite c = true) (s : List Char) : part.isPrefixOf (c :: s) = false := by
  obtain ⟨x, tail, rfl⟩ := List.exists_cons_of_ne_nil hne
  have : x ≠ c := by
    rintro rfl
    rw [hp x List.mem_cons_self] at hc
    cases hc
  simp [List.isPrefixOf, this]

theorem occursIn_white_append (hne : part ≠ []) (hp : Inked part) {m : List Char}
    (hm : White m) (s : List Char) : occursIn part (m ++ s) = occursIn part s := by
  induction m with
  | nil => rfl
  | cons c m ih =>
    rw [White, List.forall_mem_cons] at hm
    rw [List.cons_append, occursIn, isPrefixOf_white hne hp hm.1, Bool.false_or, ih hm.2]

/-- A part without white space that begins a text stands on the first line, which is not moved. -/
theorem isPrefixOf_behindBreaks (hp : Inked part) (m s : List Char) :
    part.isPrefixOf (behindBreaks m s) = part.isPrefixOf s := by
  induction s using breaks_induction generalizing part with
  | nil => rfl
  | ending rest h ih =>
    rw [behindBreaks_ending h]
    by_cases hne : part = []
    · rw [hne]
      rfl
    · rw [isPrefixOf_white hne hp rfl, isPrefixOf_white hne hp rfl]
  | other c rest h ih =>
    rw [behindBreaks_other h]
    cases part with
    | nil => rfl
    | cons x tail =>
      rw [Inked, List.forall_mem_cons] at hp
      rw [List.isPrefixOf, List.isPrefixOf, ih hp.2]

/-- A part without white space stands in characters iff it stands in them with the lines moved in.
-/
theorem occursIn_behindBreaks (hne : part ≠ []) (hp : Inked part) {m : List Char}
    (hm : White m) (s : List Char) : occursIn part (behindBreaks m s) = occursIn part s := by
  induction s using breaks_induction with
  | nil => rfl
  | ending rest h ih =>
    rw [behindBreaks_ending h, occursIn, occursIn, occursIn_white_append hne hp hm, ih,
      isPrefixOf_white hne hp rfl, isPrefixOf_white hne hp rfl]
  | other c rest h ih =>
    have first := isPrefixOf_behindBreaks hp m (c :: rest)
    rw [behindBreaks_other h] at first ⊢
    rw [occursIn, occursIn, first, ih]

/-- **Moving lines in by white space neither makes nor breaks a part that has none.** -/
theorem contains_reindent {indent : String} (h : White indent.toList) {part : String}
    (hne : part.toList ≠ []) (hp : Inked part.toList) (s : String) (level : Int) :
    contains (reindent s indent level) part = contains s part := by
  rw [contains, contains, toList_reindent, occursIn_behindBreaks hne hp (white_margin h level)]

end Hypertext.Text
