import Mathlib.Data.List.DropRight
import Mathlib.Data.List.Infix

/-!
# Parts of split and trimmed texts

A part of a text that a separator does not stand in lies between two separators, and a part that no
blank stands in is not lost when blanks are taken off both ends.

* `infix_splitOn`: a part of a text is a part of one of its pieces.
* `infix_trim`: a part of a text is a part of the text trimmed.
-/

namespace Hypertext.Text

variable {α : Type} {part : List α}

/-- What a text begins with has its first character in it, or nothing. -/
theorem eq_nil_of_prefix_cons {c : α} {s : List α} (h : c ∉ part) (hp : part <+: c :: s) :
    part = [] := by
  cases part with
  | nil => rfl
  | cons x part =>
    obtain ⟨after, e⟩ := hp
    cases e
    exact absurd List.mem_cons_self h

/-! ## Pieces -/

theorem infix_append_cons {sep : α} (h : sep ∉ part) (xs ys : List α) :
    part <:+: xs ++ sep :: ys ↔ part <:+: xs ∨ part <:+: ys := by
  constructor
  · intro hp
    rcases List.infix_append_iff.mp hp with hx | hy | ⟨l, r, rfl, hl, hr⟩
    · exact .inl hx
    · rcases List.infix_cons_iff.mp hy with hy | hy
      · rw [eq_nil_of_prefix_cons h hy]
        exact .inl List.nil_infix
      · exact .inr hy
    · -- What reaches over the end of `xs` would have the separator in it.
      have none : r = [] := eq_nil_of_prefix_cons (fun hm => h (List.mem_append_right l hm)) hr
      rw [none, List.append_nil]
      exact .inl hl.isInfix
  · rintro (hx | hy)
    · exact hx.trans (List.prefix_append xs (sep :: ys)).isInfix
    · exact hy.trans ((List.suffix_cons sep ys).trans (List.suffix_append xs _)).isInfix

theorem infix_intercalate {sep : α} (h : sep ∉ part) : ∀ {pieces : List (List α)}, pieces ≠ [] →
    (part <:+: [sep].intercalate pieces ↔ ∃ piece ∈ pieces, part <:+: piece)
  | [piece], _ => by
    rw [List.intercalate_singleton]
    exact ⟨fun hp => ⟨piece, List.mem_singleton_self piece, hp⟩,
      fun ⟨_, hm, hp⟩ => List.mem_singleton.mp hm ▸ hp⟩
  | piece :: next :: rest, _ => by
    rw [List.intercalate_cons_cons, List.append_assoc, List.singleton_append, infix_append_cons h,
      infix_intercalate h (List.cons_ne_nil next rest)]
    exact (List.exists_mem_cons_iff ..).symm

/-- **A part of a text is a part of one of its pieces**, if the text is not split within it. -/
theorem infix_splitOn [BEq α] [LawfulBEq α] {sep : α} (h : sep ∉ part) (s : List α) :
    part <:+: s ↔ ∃ piece ∈ s.splitOn sep, part <:+: piece := by
  rw [← infix_intercalate h (List.splitOn_ne_nil sep s), List.intercalate_splitOn]

/-! ## Trimming -/

/-- A text without what stands at its ends and satisfies `p`. -/
def trim (p : α → Bool) (s : List α) : List α := (s.dropWhile p).rdropWhile p

variable {p : α → Bool}

theorem infix_dropWhile (h : ∀ c ∈ part, p c = false) (s : List α) :
    part <:+: s.dropWhile p ↔ part <:+: s := by
  induction s with
  | nil => rfl
  | cons c s ih =>
    by_cases hc : p c = true
    · have other : c ∉ part := fun hm => Bool.false_ne_true ((h c hm).symm.trans hc)
      rw [List.dropWhile_cons_of_pos hc, ih, List.infix_cons_iff]
      refine ⟨.inr, ?_⟩
      rintro (hp | hs)
      · rw [eq_nil_of_prefix_cons other hp]
        exact List.nil_infix
      · exact hs
    · rw [List.dropWhile_cons_of_neg hc]

/-- **A part of a text is a part of the text trimmed**, if nothing in it may be taken off. -/
theorem infix_trim (h : ∀ c ∈ part, p c = false) (s : List α) :
    part <:+: trim p s ↔ part <:+: s := by
  rw [trim, List.rdropWhile, ← List.reverse_infix, List.reverse_reverse,
    infix_dropWhile fun c hc => h c (List.mem_reverse.mp hc), List.reverse_infix, infix_dropWhile h]

end Hypertext.Text
