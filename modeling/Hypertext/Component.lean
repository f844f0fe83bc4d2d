import Hypertext.Content
import Hypertext.Text.Occurs

/-!
# Components

A component is a function from properties to content. An element type is applied to properties: a
tag name makes an element, whose attributes are the properties and whose content is the property
`children`; a component is called.

* `render` is `jsx`, which has the names `jsxs` and `jsx_dev` too. The key that it takes and does
  not use is left out.
* `Component.fragment` is the component `Fragment`.

Left out: components that depend on more than their properties.
-/

namespace Hypertext

/-- What can be rendered. -/
inductive ElementType where
  /-- An element by its name. -/
  | tag (name : String)
  /-- A component. -/
  | component (body : Value → Traced Value)
  /-- A value that is neither, of the named type. -/
  | other (typeName : String)

namespace Component

/-- The value of a property, null if there is none. -/
def property (name : String) (props : Record) : Value := (Record.find name props).getD .null

/-- Look for `children` among the items of a stream, which uses up the items looked at. -/
def search : List Step → Traced Bool
  | [] => pure false
  | .item v :: rest => if v.isKey "children" then pure true else search rest
  | .note e :: rest => do
    Traced.emit e
    search rest
  | .fail f :: _ => .fail f

/-- Properties that are no record are one piece of content, as long as nothing among them says that
there are children. -/
def looseElement (name : String) (props : Value) : Traced Node :=
  let plain (found : Bool) (content : List Value) : Traced Node :=
    if found then .fail (.misuse (.notARecord props.typeName))
    else Content.element (.str name) content []
  match props with
  | .str s => plain (Text.contains s "children") [props]
  | .list items | .tuple items => plain (items.any (Value.isKey "children")) [props]
  | .range _ _ => plain false [props]
  | .stream _ steps => do
    let found ← search steps
    plain found []
  | v => .fail (.misuse (.notAContainer v.typeName))

/-- An element with properties for attributes and content: the branch of `jsx` for a tag name. -/
def element (name : String) (props : Value) : Traced Node :=
  match props with
  | .record entries =>
    if Record.hasKey "children" entries then
      Content.element (.str name)
        [.record (Record.drop "children" entries), property "children" entries] []
    else Content.element (.str name) [props] []
  | v => looseElement name v

/-- The component that stands for the content it is given (`Fragment`). -/
def fragment (props : Value) : Traced Value :=
  match props with
  | .record entries => pure (property "children" entries)
  | v => .fail (.misuse (.notARecord v.typeName))

end Component

/-- Apply an element type to properties (`jsx`). -/
def render (type : ElementType) (props : Value) : Traced Value :=
  match type with
  | .tag name => do return .node (← Component.element name props)
  | .component body => body props
  | .other typeName => .fail (.misuse (.notCallable typeName))

end Hypertext
