import Mathlib.Data.List.Infix
import Hypertext.Text.Indent

/-!
# Line breaks

Moving lines in puts a margin behind the line breaks that end a run of them. `behindBreaks` says
which these are by what follows a character, for each character on its own.

* `toList_reindent`: moving lines in is putting the margin behind these line breaks.
* `breaks_induction`: induction on a text, by whether a character is one of these line breaks.
* `sublist_reindent`: nothing is lost.
-/

namespace Hypertext.Text

/-- `m` put behind every line break that no other line break follows. -/
def behindBreaks (m s : List Char) : List Char :=
  s.tails.flatMap fun
    | [] => []
    | c :: rest => if c = '\n' ∧ rest.head? ≠ some '\n' then c :: m else [c]

theorem behindBreaks_cons (m : List Char) (c : Char) (rest : List Char) :
    behindBreaks m (c :: rest) =
      (if c = '\n' ∧ rest.head? ≠ some '\n' then c :: m else [c]) ++ behindBreaks m rest := by
  rw [behindBreaks, List.tails_cons, List.flatMap_cons]
  rfl

/-- The margin stands behind a line break that ends a run. -/
theorem behindBreaks_ending {m rest : List Char} (h : rest.head? ≠ some '\n') :
    behindBreaks m ('\n' :: rest) = '\n' :: (m ++ behindBreaks m rest) := by
  rw [behindBreaks_cons, if_pos ⟨rfl, h⟩]
  rfl

/-- No margin stands behind anything else. -/
theorem behindBreaks_other {m rest : List Char} {c : Char}
    (h : ¬ (c = '\n' ∧ rest.head? ≠ some '\n')) :
    behindBreaks m (c :: rest) = c :: behindBreaks m rest := by
  rw [behindBreaks_cons, if_neg h]
  rfl

/-- What a text begins with stays in front. -/
theorem head?_behindBreaks (m s : List Char) : (behindBreaks m s).head? = s.head? := by
  cases s with
  | nil => rfl
  | cons c rest =>
    rw [behindBreaks_cons]
    split <;> rfl

/-- Induction on a text, by whether a character is a line break that ends a run. -/
@[elab_as_elim]
theorem breaks_induction {motive : List Char → Prop} (nil : motive [])
    (ending : ∀ rest, rest.head? ≠ some '\n' → motive rest → motive ('\n' :: rest))
    (other : ∀ c rest, ¬ (c = '\n' ∧ rest.head? ≠ some '\n') → motive rest → motive (c :: rest))
    (s : List Char) : motive s := by
  induction s with
  | nil => exact nil
  | cons c rest ih =>
    by_cases h : c = '\n' ∧ rest.head? ≠ some '\n'
    · obtain ⟨rfl, h⟩ := h
      exact ending rest h ih
    · exact other c rest h ih

theorem indentLines_eq (m s : List Char) : indentLines m s = behindBreaks m s := by
  induction s using indentLines.induct with
  | case1 => rfl
  | case2 rest ih =>
    rw [indentLines, ih]
    exact (behindBreaks_other (by simp)).symm
  | case3 rest hr ih =>
    have last : rest.head? ≠ some '\n' := by
      cases rest with
      | nil => simp
      | cons c rest =>
        rintro ⟨⟩
        exact hr rest rfl
    rw [indentLines, ih, behindBreaks_ending last]
    exact hr
  | case4 c rest h₁ h₂ ih =>
    have other : c ≠ '\n' := fun e => h₂ e
    rw [indentLines, ih, behindBreaks_other fun h => other h.1]
    · exact h₁
    · exact h₂

/-- **Moving lines in** puts the margin behind the line breaks that end a run of them. -/
theorem toList_reindent (s indent : String) (level : Int) : (reindent s indent level).toList =
    behindBreaks (margin indent level).toList s.toList := by
  rw [reindent, String.toList_ofList, indentLines_eq]

/-- No margin changes nothing. -/
theorem behindBreaks_nil (s : List Char) : behindBreaks [] s = s := by
  induction s with
  | nil => rfl
  | cons c rest ih => rw [behindBreaks_cons, ite_self, ih, List.singleton_append]

theorem sublist_behindBreaks (m s : List Char) : s.Sublist (behindBreaks m s) := by
  induction s using breaks_induction with
  | nil => exact .slnil
  | ending rest h ih =>
    rw [behindBreaks_ending h]
    exact (ih.trans (List.sublist_append_right m _)).cons_cons _
  | other c rest h ih =>
    rw [behindBreaks_other h]
    exact ih.cons_cons c

/-- **Nothing is lost** when lines are moved in. -/
theorem sublist_reindent (s indent : String) (level : Int) :
    s.toList.Sublist (reindent s indent level).toList := by
  rw [toList_reindent]
  exact sublist_behindBreaks _ _

end Hypertext.Text
