/-!
# Decimal numbers

The value of a decimal text such as `-1.5e+16`, as the `repr` of a float has it: a whole number
times a power of ten.
-/

namespace Hypertext.Text

/-- The number `mantissa · 10 ^ exponent`. -/
structure Decimal where
  mantissa : Int
  exponent : Int
  deriving Repr

namespace Decimal

/-- The number that digits spell. -/
def ofDigits (cs : List Char) : Nat := cs.foldl (fun n c => 10 * n + (c.toNat - '0'.toNat)) 0

/-- A whole number with an optional sign. -/
def signed? : List Char → Option Int
  | '-' :: cs => if cs.all Char.isDigit && !cs.isEmpty then some (-(ofDigits cs : Int)) else none
  | '+' :: cs => if cs.all Char.isDigit && !cs.isEmpty then some (ofDigits cs) else none
  | cs => if cs.all Char.isDigit && !cs.isEmpty then some (ofDigits cs) else none

/-- The digits of an unsigned decimal without an exponent: their number after the point counts. -/
def unsigned? (cs : List Char) : Option (Nat × Nat) :=
  let whole := cs.takeWhile Char.isDigit
  match cs.dropWhile Char.isDigit with
  | [] => if whole.isEmpty then none else some (ofDigits whole, 0)
  | '.' :: places =>
    if places.all Char.isDigit && !whole.isEmpty then
      some (ofDigits (whole ++ places), places.length)
    else none
  | _ => none

/-- Read a decimal text. Infinities and undefined values are no decimals. -/
def ofText? (s : String) : Option Decimal := do
  let (sign, cs) : Int × List Char := match s.toList with
    | '-' :: cs => (-1, cs)
    | cs => (1, cs)
  let (digits, places) ← unsigned? (cs.takeWhile (· ≠ 'e'))
  let shift ← match cs.dropWhile (· ≠ 'e') with
    | [] => some 0
    | _ :: e => signed? e
  return ⟨sign * digits, shift - places⟩

end Decimal

end Hypertext.Text
