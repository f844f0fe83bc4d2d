import Hypertext.Text.Printable

/-!
# Quoted literals

How a text or a string of bytes is spelled in messages, which is its `repr`: in single quotes, or in
double quotes when it holds a single quote and no double one. What does not print is written as an
escape.
-/

namespace Hypertext.Text

/-- The lower case hexadecimal digits of `n`, padded with zeros to `width`. -/
def hex (width n : Nat) : List Char :=
  let digits := Nat.toDigits 16 n
  List.replicate (width - digits.length) '0' ++ digits

/-- The quote to use around characters. -/
def quoteFor (cs : List Char) : Char :=
  if cs.contains '\'' && !cs.contains '"' then '"' else '\''

/-- The escapes that literals of texts and of bytes share. -/
def commonEscape? (quote c : Char) : Option (List Char) :=
  if c = quote ∨ c = '\\' then some ['\\', c]
  else if c = '\n' then some ['\\', 'n']
  else if c = '\r' then some ['\\', 'r']
  else if c = '\t' then some ['\\', 't']
  else none

/-- One character of a literal. -/
def literalChar (quote c : Char) : List Char :=
  match commonEscape? quote c with
  | some e => e
  | none =>
    if isPrintable c then [c]
    else if c.toNat < 0x100 then '\\' :: 'x' :: hex 2 c.toNat
    else if c.toNat < 0x10000 then '\\' :: 'u' :: hex 4 c.toNat
    else '\\' :: 'U' :: hex 8 c.toNat

/-- One byte of a literal, given as the character of that code. -/
def literalByte (quote c : Char) : List Char :=
  match commonEscape? quote c with
  | some e => e
  | none => if 0x20 ≤ c.toNat ∧ c.toNat < 0x7f then [c] else '\\' :: 'x' :: hex 2 c.toNat

/-- The characters between quotes, each spelled by `spell`. -/
def quoted (spell : Char → Char → List Char) (cs : List Char) : String :=
  let q := quoteFor cs
  String.ofList (q :: cs.flatMap (spell q) ++ [q])

/-- A text as a literal. -/
def literal (s : String) : String := quoted literalChar s.toList

/-- Bytes as a literal. -/
def bytesLiteral (octets : List UInt8) : String :=
  "b" ++ quoted literalByte (octets.map fun o => Char.ofNat o.toNat)

/-- Bytes that can change, as a literal. In it a single quote is escaped between double quotes
too. -/
def mutableBytesLiteral (octets : List UInt8) : String :=
  "b" ++ quoted (fun _ => literalByte '\'') (octets.map fun o => Char.ofNat o.toNat)

end Hypertext.Text
