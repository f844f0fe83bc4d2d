import Hypertext.Text.Decimal

/-!
# Binary numbers

Floats are binary fractions with 53 digits. The float that a decimal text stands for is the nearest
one, the even one of two that are equally near. Numbers of all types are compared by their exact
values. All this is built in; the library compares and hashes nodes that may hold numbers, and its
log may print them.

* `Number.nearest` is the float nearest to a decimal number.
* `Number.same` compares exact values.
* `Number.whole` drops the fraction.
* `Number.residue` is what a digest keeps of a number.
-/

namespace Hypertext

/-- The number `mantissa · 2 ^ exponent`. -/
structure Number where
  mantissa : Int
  exponent : Int
  deriving DecidableEq, Repr

namespace Number

/-- A whole number. -/
def ofInt (i : Int) : Number := ⟨i, 0⟩

/-- The two numbers are equal. -/
def same (a b : Number) : Bool :=
  let low := min a.exponent b.exponent
  a.mantissa * Int.pow 2 (a.exponent - low).toNat ==
    b.mantissa * Int.pow 2 (b.exponent - low).toNat

/-- The whole number nearest to a fraction, the even one of two that are equally near. -/
def roundHalfEven (num den : Nat) : Nat :=
  let q := num / den
  let r := num % den
  if den < 2 * r ∨ (2 * r = den ∧ q % 2 = 1) then q + 1 else q

/-- The exponent of the leading binary digit of a positive fraction. -/
def leading (num den : Nat) : Int :=
  let k : Int := (Nat.log2 num : Int) - Nat.log2 den
  if den * Nat.pow 2 k.toNat ≤ num * Nat.pow 2 (-k).toNat then k else k - 1

/-- The float nearest to a fraction: 53 binary digits from the leading one on, and none below the
place of the smallest float. -/
def nearestFraction (num den : Nat) : Number :=
  if num = 0 then ⟨0, 0⟩
  else
    let low : Int := max (leading num den - 52) (-1074)
    ⟨roundHalfEven (num * Nat.pow 2 (-low).toNat) (den * Nat.pow 2 low.toNat), low⟩

/-- The float nearest to a decimal number. -/
def nearest (d : Text.Decimal) : Number :=
  let size := nearestFraction (d.mantissa.natAbs * Nat.pow 10 d.exponent.toNat)
    (Nat.pow 10 (-d.exponent).toNat)
  ⟨d.mantissa.sign * size.mantissa, size.exponent⟩

/-- A number without its fraction. -/
def whole (a : Number) : Int :=
  (a.mantissa * Int.pow 2 a.exponent.toNat).tdiv (Int.pow 2 (-a.exponent).toNat)

/-- The prime modulus of digests. -/
def modulus : Nat := Nat.pow 2 61 - 1

/-- What a digest keeps of a number: its size modulo the prime, in which two has order 61, with its
sign. Minus one is no digest; minus two stands for it. -/
def residue (a : Number) : Int :=
  let size := a.mantissa.natAbs % modulus * Nat.pow 2 (a.exponent % 61).toNat % modulus
  let r := a.mantissa.sign * size
  if r = -1 then -2 else r

example : nearest ⟨1, 23⟩ = ⟨5960464477539062, 24⟩ ∧ nearest ⟨1, -1⟩ = ⟨7205759403792794, -56⟩ := by
  decide

end Number

end Hypertext
