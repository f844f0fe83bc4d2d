/-!
# Occurrence of one text in another

The operator `in` on texts. `occursIn_iff`: the test agrees with "is a contiguous part of".
-/

namespace Hypertext.Text

/-- `part` stands somewhere in the characters. -/
def occursIn (part : List Char) : List Char → Bool
  | [] => part.isEmpty
  | c :: rest => part.isPrefixOf (c :: rest) || occursIn part rest

/-- `part` stands somewhere in `s`. -/
def contains (s part : String) : Bool := occursIn part.toList s.toList

theorem occursIn_iff (part : List Char) : ∀ s : List Char,
    occursIn part s = true ↔ part <:+: s
  | [] => by simp [occursIn]
  | c :: rest => by
    have ih := occursIn_iff part rest
    simp only [occursIn, Bool.or_eq_true, List.isPrefixOf_iff_prefix, ih, List.infix_cons_iff]

theorem contains_iff (s part : String) : contains s part = true ↔ part.toList <:+: s.toList :=
  occursIn_iff _ _

end Hypertext.Text
