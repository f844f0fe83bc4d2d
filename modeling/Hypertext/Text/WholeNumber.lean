import Hypertext.Text.Digit

/-!
# Reading whole numbers

What `int` makes of a text. A whole number is written as an optional sign and digits of any script,
with single underscores allowed between digits and blanks around the whole. A numeral of very many
digits is refused.
-/

namespace Hypertext.Text

/-- The text without the blanks around it. -/
def trimBlanks (cs : List Char) : List Char :=
  ((cs.dropWhile isBlank).reverse.dropWhile isBlank).reverse

/-- The most digits that a numeral may have. -/
def mostDigits : Nat := 4300

/-- The number that the rest of a numeral makes of the number read so far. After a digit there may
be an underscore, and after an underscore there must be a digit. -/
def numeralRest (afterDigit : Bool) (n : Nat) : List Char → Option Nat
  | [] => if afterDigit then some n else none
  | '_' :: cs => if afterDigit then numeralRest false n cs else none
  | c :: cs =>
    match digitValue? c with
    | some d => numeralRest true (10 * n + d) cs
    | none => none

/-- A numeral without a sign. -/
def numeral? (cs : List Char) : Option Nat :=
  if mostDigits < (cs.filter (· ≠ '_')).length then none else numeralRest false 0 cs

/-- A whole number. -/
def wholeNumber? (s : String) : Option Int :=
  match trimBlanks s.toList with
  | '-' :: cs => (numeral? cs).map fun n => -(n : Int)
  | '+' :: cs => (numeral? cs).map fun n => (n : Int)
  | cs => (numeral? cs).map fun n => (n : Int)

end Hypertext.Text
