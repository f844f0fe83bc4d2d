import Hypertext.Fault
import Hypertext.Number

/-!
# Message templates

A template holds places for arguments: `%s` takes any value as plain text, `%d` takes a number and
drops its fraction, and `%%` stands for a percent sign. Arguments go in from left to right and must
all be used, unless they are said to be spare. A template without arguments is not looked into and
stands as it is.

* `Template.message` is the text of a template and its arguments, which `logging` puts together with
  the operator `%`.

Left out: places of other kinds, and places with a width, a precision or a name.
-/

namespace Hypertext.Log.Template

/-- What goes into the places of a template. -/
structure Arguments where
  values : List Value
  /-- Arguments may be left over. -/
  spare : Bool := false

/-- The text of an argument in a place for numbers. -/
def numberText : Value → Except Misuse String
  | .int i => .ok (toString i)
  | .bool b => .ok (if b then "1" else "0")
  | .float text =>
    match Text.Decimal.ofText? text with
    | some d => .ok (toString (Number.nearest d).whole)
    | none => .error .infiniteNumber
  | .nan _ => .error .undefinedNumber
  | _ => .error .templateArguments

/-- Put arguments into the places of a template. -/
def fillChars (spare : Bool) : List Char → List Value → Except Misuse (List Char)
  | [], [] => .ok []
  | [], _ :: _ => if spare then .ok [] else .error .templateArguments
  | '%' :: '%' :: cs, args => do return '%' :: (← fillChars spare cs args)
  | '%' :: 's' :: cs, a :: args => do return a.display.toList ++ (← fillChars spare cs args)
  | '%' :: 'd' :: cs, a :: args => do
    let s ← numberText a
    return s.toList ++ (← fillChars spare cs args)
  | '%' :: _ :: _, [] => .error .templateArguments
  | '%' :: _, _ => .error .templateFormat
  | c :: cs, args => do return c :: (← fillChars spare cs args)

/-- The message of a template and its arguments. -/
def message (template : String) (args : Arguments) : Except Misuse String :=
  match args.values with
  | [] => .ok template
  | values => do return String.ofList (← fillChars args.spare template.toList values)

end Hypertext.Log.Template
