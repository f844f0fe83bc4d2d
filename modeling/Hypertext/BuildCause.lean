/-!
# Why content is refused

A `BuildCause` says why a value could not become nodes: it stands for the text that `element`,
`append_children`, `_set_attributes` and `tag` give to a `ConstructionError`.

* `BuildCause.message` is this text, `ConstructionError.message`.
-/

namespace Hypertext

/-- Why content was refused. A `label` is how the place under construction is named in messages, a
`literal` is a value as it is spelled in a program text. -/
inductive BuildCause where
  /-- The name of an element is no text. -/
  | elementName (literal : String)
  /-- An attribute record where no element is under construction. -/
  | noAttributesAt (label : String)
  /-- A child of a type that means nothing. -/
  | childType (label typeName : String)
  /-- The key of an attribute record is no text. -/
  | attributeName (label literal : String)
  /-- The value of an attribute record is neither text nor null. -/
  | attributeValue (key label typeName : String)
  /-- A tag list that is no list. -/
  | notATagList
  /-- A tag list that does not start with a name. -/
  | tagName (literal : String)
  /-- An entry of an attribute record in a tag list that is not text to text. -/
  | tagAttribute (key value name : String)
  /-- An item of a tag list of a type that means nothing. -/
  | tagContent (typeName : String)
  /-- A cause in the caller's words. -/
  | stated (message : String)
  deriving DecidableEq, Repr

namespace BuildCause

/-- The wording of a cause. -/
def message : BuildCause → String
  | elementName literal => "Element type must be a string, not " ++ literal
  | noAttributesAt label => "attributes are not supported at the " ++ label
  | childType label typeName => "unsupported child type to " ++ label ++ ": " ++ typeName
  | attributeName label literal =>
    "attribute names on " ++ label ++ " must be strings, not " ++ literal
  | attributeValue key label typeName =>
    "attribute " ++ key ++ " on " ++ label ++ " must be a string, not " ++ typeName
  | notATagList => "tag must be a list"
  | tagName literal => "first element in tag must be a string, not " ++ literal
  | tagAttribute key value name =>
    "invalid attribute " ++ key ++ "=" ++ value ++ " on <" ++ name ++ ">"
  | tagContent typeName => "unsupported content type " ++ typeName
  | stated message => message

end BuildCause

end Hypertext
