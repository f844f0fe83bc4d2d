import Hypertext.Content

/-!
# The page skeleton

A page is a document type and an `html` element with a head and a body. The head holds the encoding,
the viewport, the title, a link for each style sheet and a deferred module for each script. Styles
and scripts are gone through while the head is built, so a failure on the way is one of the head's.

* `page` is `document`. Its two generators of links and scripts are streams, `Page.assets`.
* `PageOptions.ofArguments` gives `document` its arguments, with the defaults of those that are not
  given.
-/

namespace Hypertext

namespace Page

/-- An element with attributes only. -/
def bare (name : String) (keywords : List (String × Value)) : Node :=
  .element (.str name) (Content.putKeywords keywords []) []

/-- The link to a style sheet. -/
def stylesheet (address : Value) : Node :=
  bare "link" [("rel", .str "stylesheet"), ("href", address)]

/-- A script. -/
def script (address : Value) : Node :=
  bare "script" [("type", .str "module"), ("async", .str ""), ("defer", .str ""), ("src", address)]

/-- A stream with another node for each item. -/
def mapped (f : Value → Node) : Step → Step
  | .item v => .item (.node (f v))
  | s => s

/-- The nodes of addresses, as a stream. -/
def assets (f : Value → Node) (addresses : Value) : Except Fault Value :=
  match addresses.steps? with
  | some steps => .ok (.stream 0 (steps.map (mapped f)))
  | none => .error (.misuse (.notIterable addresses.typeName))

/-- What every head begins with. -/
def metas : List Value :=
  [.node (bare "meta" [("charset", .str "utf-8")]),
   .node (bare "meta" [("name", .str "viewport"),
     ("content", .str "width=device-width, initial-scale=1")])]

/-- An element without content is built from its keywords alone. -/
theorem element_nil (name : String) (keywords : List (String × Value)) :
    Content.element (.str name) [] keywords = pure (bare name keywords) := rfl

end Page

/-- What a page is made of besides its body's content. -/
structure PageOptions where
  styles : Value := .tuple []
  scripts : Value := .tuple []
  lang : Value := .str "en"
  /-- The keywords of the body. -/
  keywords : List (String × Value) := []

namespace PageOptions

/-- The names that are no attributes of the body when given as keywords. -/
def names : List String := ["styles", "scripts", "lang"]

/-- The value of an option: as given, or else from the keywords, but not from both. -/
def choose (name : String) (given : Option Value) (keywords : List (String × Value))
    (fallback : Value) : Except Misuse Value :=
  match given, keywords.lookup name with
  | some _, some _ => .error (.repeatedArgument name)
  | some v, none | none, some v => .ok v
  | none, none => .ok fallback

/-- Options from arguments of which some are given, and keywords, which may hold the others. -/
def ofArguments (styles scripts lang : Option Value) (keywords : List (String × Value)) :
    Except Misuse PageOptions := do
  let styles ← choose "styles" styles keywords (.tuple [])
  let scripts ← choose "scripts" scripts keywords (.tuple [])
  let lang ← choose "lang" lang keywords (.str "en")
  return ⟨styles, scripts, lang, keywords.filter fun k => !names.contains k.1⟩

end PageOptions

/-- A page with the given title and the given content in its body (`document`). -/
def page (title : Value) (body : List Value) (options : PageOptions) : Traced Node := do
  let titleNode ← Content.element (.str "title") [title] []
  let styles ← Traced.silent (Page.assets Page.stylesheet options.styles)
  let scripts ← Traced.silent (Page.assets Page.script options.scripts)
  let head ← Content.element (.str "head") (Page.metas ++ [.node titleNode, styles, scripts]) []
  let bodyNode ← Content.element (.str "body") body options.keywords
  let html ← Content.element (.str "html") [.node head, .node bodyNode] [("lang", options.lang)]
  Content.fragment [.node (.doctype (.str "html")), .node html]

end Hypertext
