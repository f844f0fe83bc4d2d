/-!
# Escaping

Text between tags and text inside the quotes of an attribute are made safe by replacing single
characters, one kind after another, over the whole text. The ampersand comes first, since the
replacements of the others hold one.

* `escapeText` is `escape_text`, and `escapeAttribute` is `escape_attribute`.
* `replace_append`: replacing goes piece by piece.
* `escapeText_append`, `escapeAttribute_append`: so does escaping.
-/

namespace Hypertext.Text

/-- Every `c` becomes `entity`. -/
def replace (c : Char) (entity : List Char) (s : List Char) : List Char :=
  s.flatMap fun x => if x = c then entity else [x]

/-- The replacements for text between tags, in the order in which they are made. -/
def textPasses : List (Char × String) :=
  [('&', "&amp;"), ('\u00a0', "&nbsp;"), ('<', "&lt;"), ('>', "&gt;")]

/-- The replacements for text in an attribute, in the order in which they are made. -/
def attributePasses : List (Char × String) :=
  [('&', "&amp;"), ('\u00a0', "&nbsp;"), ('"', "&quot;")]

/-- All replacements of `passes`, one after another. -/
def replaceAll (passes : List (Char × String)) (s : List Char) : List Char :=
  passes.foldl (fun s p => replace p.1 p.2.toList s) s

/-- Text made safe to stand between tags. -/
def escapeText (s : String) : String := String.ofList (replaceAll textPasses s.toList)

/-- Text made safe to stand in the double quotes of an attribute. -/
def escapeAttribute (s : String) : String := String.ofList (replaceAll attributePasses s.toList)

@[simp] theorem replace_nil (c : Char) (r : List Char) : replace c r [] = [] := rfl

theorem replace_append (c : Char) (r a b : List Char) :
    replace c r (a ++ b) = replace c r a ++ replace c r b := by
  simp [replace]

theorem replaceAll_append (passes : List (Char × String)) (a b : List Char) :
    replaceAll passes (a ++ b) = replaceAll passes a ++ replaceAll passes b := by
  unfold replaceAll
  induction passes generalizing a b with
  | nil => rfl
  | cons p passes ih => rw [List.foldl_cons, replace_append, ih]; rfl

theorem escapeText_append (a b : String) : escapeText (a ++ b) = escapeText a ++ escapeText b := by
  simp [escapeText, replaceAll_append, String.ofList_append]

theorem escapeAttribute_append (a b : String) :
    escapeAttribute (a ++ b) = escapeAttribute a ++ escapeAttribute b := by
  simp [escapeAttribute, replaceAll_append, String.ofList_append]

end Hypertext.Text
