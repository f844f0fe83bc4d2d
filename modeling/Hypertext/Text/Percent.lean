/-!
# Percent-encoded text

A percent sign and two hexadecimal digits stand for a byte. Bytes that make up a character in UTF-8
are read as that character; any other byte stays encoded, with capital digits. A percent sign
without two digits stands for itself.

* `percentDecode` reads a percent-encoded text. It is how the path of a request comes out of its
  target, which another library does: no theorem rests on it.
-/

namespace Hypertext.Text

/-- The value of a hexadecimal digit. -/
def hexValue? (c : Char) : Option Nat :=
  if '0' ≤ c ∧ c ≤ '9' then some (c.toNat - '0'.toNat)
  else if 'a' ≤ c ∧ c ≤ 'f' then some (c.toNat - 'a'.toNat + 10)
  else if 'A' ≤ c ∧ c ≤ 'F' then some (c.toNat - 'A'.toNat + 10)
  else none

/-- A piece of a percent-encoded text: a character or a byte. -/
inductive PercentPiece where
  | plain (c : Char)
  | byte (b : Nat)

/-- The byte of two hexadecimal digits. -/
def hexByte? (high low : Char) : Option Nat := do
  let h ← hexValue? high
  let l ← hexValue? low
  return 16 * h + l

/-- The pieces of a text. -/
def percentPieces : List Char → List PercentPiece
  | '%' :: high :: low :: rest =>
    match hexByte? high low with
    | some b => .byte b :: percentPieces rest
    | none => .plain '%' :: percentPieces (high :: low :: rest)
  | c :: rest => .plain c :: percentPieces rest
  | [] => []

/-- The byte that continues a character. -/
def continuation? : PercentPiece → Option Nat
  | .byte b => if 0x80 ≤ b ∧ b < 0xc0 then some (b - 0x80) else none
  | .plain _ => none

/-- The character of a code, if it needs as many bytes as `least` says and is one. -/
def scalar? (least n : Nat) : Option Char :=
  if least ≤ n ∧ n.isValidChar then some (Char.ofNat n) else none

/-- The character that begins with the byte `b`, and how many more bytes it takes. -/
def character? (b : Nat) (rest : List PercentPiece) : Option (Char × Nat) :=
  if b < 0x80 then some (Char.ofNat b, 0)
  else
    let more (count : Nat) : Option (List Nat) :=
      if rest.length < count then none else (rest.take count).mapM continuation?
    let value (lead : Nat) (tail : List Nat) : Nat := tail.foldl (fun n t => 64 * n + t) lead
    if 0xc0 ≤ b ∧ b < 0xe0 then
      (more 1).bind fun t => (scalar? 0x80 (value (b - 0xc0) t)).map (·, 1)
    else if 0xe0 ≤ b ∧ b < 0xf0 then
      (more 2).bind fun t => (scalar? 0x800 (value (b - 0xe0) t)).map (·, 2)
    else if 0xf0 ≤ b ∧ b < 0xf8 then
      (more 3).bind fun t => (scalar? 0x10000 (value (b - 0xf0) t)).map (·, 3)
    else none

/-- A byte as it is encoded. -/
def encodedByte (b : Nat) : List Char :=
  '%' :: [Nat.digitChar (b / 16), Nat.digitChar (b % 16)].map Char.toUpper

/-- Put pieces together, leaving out the first `skip` of them, which have been used. -/
def joinPieces : Nat → List PercentPiece → List Char
  | _, [] => []
  | skip + 1, _ :: rest => joinPieces skip rest
  | 0, .plain c :: rest => c :: joinPieces 0 rest
  | 0, .byte b :: rest =>
    match character? b rest with
    | some (c, used) => c :: joinPieces used rest
    | none => encodedByte b ++ joinPieces 0 rest

/-- The text that a percent-encoded text stands for. -/
def percentDecode (s : String) : String := String.ofList (joinPieces 0 (percentPieces s.toList))

end Hypertext.Text
