/-!
# Indenting

* `margin indent level` is the white space in front of a line at a level; levels below zero have
  none.
* `reindent` is `_indent_text`, a substitution for `_NEWLINE`: it moves the lines of a text, but for
  the first, in by a margin. A blank line stays blank: only the last line break of a run of them is
  followed by the margin.
-/

namespace Hypertext.Text

/-- `indent` repeated `level` times. -/
def margin (indent : String) (level : Int) : String :=
  String.join (List.replicate level.toNat indent)

/-- The margin goes behind every line break that is not followed by another one. -/
def indentLines (m : List Char) : List Char → List Char
  | [] => []
  | '\n' :: '\n' :: rest => '\n' :: indentLines m ('\n' :: rest)
  | '\n' :: rest => '\n' :: (m ++ indentLines m rest)
  | c :: rest => c :: indentLines m rest

/-- A text with its later lines moved in to `level`. -/
def reindent (s indent : String) (level : Int) : String :=
  String.ofList (indentLines (margin indent level).toList s.toList)

theorem margin_of_nonpos {level : Int} (indent : String) (h : level ≤ 0) :
    margin indent level = "" := by
  simp [margin, Int.toNat_of_nonpos h]

theorem margin_add (indent : String) {a b : Int} (ha : 0 ≤ a) (hb : 0 ≤ b) :
    margin indent (a + b) = margin indent a ++ margin indent b := by
  rw [margin, Int.toNat_add ha hb, ← List.replicate_append_replicate, String.join_append]
  rfl

theorem length_margin (indent : String) (level : Int) :
    (margin indent level).length = indent.length * level.toNat := by
  rw [margin, String.length_join, List.map_replicate, List.sum_replicate_nat, Nat.mul_comm]

/-- A margin has no characters but those of the indent. -/
theorem mem_of_mem_margin {indent : String} {level : Int} {c : Char}
    (h : c ∈ (margin indent level).toList) : c ∈ indent.toList := by
  rw [margin, String.toList_join, List.mem_flatMap] at h
  obtain ⟨_, hr, hc⟩ := h
  rwa [List.eq_of_mem_replicate hr] at hc

end Hypertext.Text
