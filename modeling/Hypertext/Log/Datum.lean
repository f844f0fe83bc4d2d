import Hypertext.Text.Quoted

/-!
# Log lines

A log line is an object written as JSON in ASCII. Without an indent all stands on one line; with
one, every item and entry has a line of its own, moved in by the indent for each level of nesting.
Empty objects and arrays are never broken.

* `Datum.line` stands for the line that the base of `JsonFormatter` makes of fields. That class
  belongs to another library: what is defined here is what it is documented to write, and where a
  theorem speaks of lines, they are those of any `Formatter`.
-/

namespace Hypertext.Log

/-- A value in a log line. -/
inductive Datum where
  | null
  | bool (b : Bool)
  | int (i : Int)
  | text (s : String)
  | array (items : List Datum)
  | object (entries : List (String × Datum))

namespace Datum

instance : Inhabited Datum := ⟨.null⟩

/-- The UTF-16 units of a character, as escapes. -/
def unitEscapes (n : Nat) : List Char :=
  if n < 0x10000 then '\\' :: 'u' :: Text.hex 4 n
  else
    let m := n - 0x10000
    '\\' :: 'u' :: Text.hex 4 (0xd800 + m / 0x400) ++
      ('\\' :: 'u' :: Text.hex 4 (0xdc00 + m % 0x400))

/-- One character of a text. -/
def textChar (c : Char) : List Char :=
  match c with
  | '"' => ['\\', '"']
  | '\\' => ['\\', '\\']
  | '\n' => ['\\', 'n']
  | '\r' => ['\\', 'r']
  | '\t' => ['\\', 't']
  | '\x08' => ['\\', 'b']
  | '\x0c' => ['\\', 'f']
  | c => if 0x20 ≤ c.toNat ∧ c.toNat < 0x7f then [c] else unitEscapes c.toNat

/-- A text in quotes. -/
def quote (s : String) : String := String.ofList ('"' :: s.toList.flatMap textChar ++ ['"'])

/-- The break in front of an item at a depth of nesting. -/
def lineBreak (indent : Int) (depth : Nat) : String :=
  "\n" ++ String.ofList (List.replicate (indent.toNat * depth) ' ')

/-- Items between brackets. -/
def enclose (indent : Option Int) (depth : Nat) (opening closing : String) (items : List String) :
    String :=
  if items.isEmpty then opening ++ closing
  else
    match indent with
    | none => opening ++ ", ".intercalate items ++ closing
    | some n =>
      opening ++ lineBreak n (depth + 1) ++ ("," ++ lineBreak n (depth + 1)).intercalate items
        ++ lineBreak n depth ++ closing

mutual

/-- A value as it stands at a depth of nesting. -/
def write (indent : Option Int) (depth : Nat) : Datum → String
  | .null => "null"
  | .bool b => if b then "true" else "false"
  | .int i => toString i
  | .text s => quote s
  | .array items => enclose indent depth "[" "]" (writeItems indent (depth + 1) items)
  | .object entries => enclose indent depth "\x7b" "\x7d" (writeEntries indent (depth + 1) entries)

/-- The items of an array. -/
def writeItems (indent : Option Int) (depth : Nat) : List Datum → List String
  | [] => []
  | d :: rest => write indent depth d :: writeItems indent depth rest

/-- The entries of an object. -/
def writeEntries (indent : Option Int) (depth : Nat) : List (String × Datum) → List String
  | [] => []
  | (key, d) :: rest =>
    (quote key ++ ": " ++ write indent depth d) :: writeEntries indent depth rest

end

/-- A log line with the given fields. -/
def line (indent : Option Int) (fields : List (String × Datum)) : String :=
  write indent 0 (.object fields)

end Datum

end Hypertext.Log
