import Hypertext.Page
import Hypertext.Proofs.Content.Spliced
import Hypertext.Proofs.Markup.Joined
import Hypertext.Proofs.Markup.RoundTrip
import Hypertext.Proofs.Record.Keyed

/-!
# What a page is written to

A page (`document`) builds its body under another name than a fragment and writes it below another
parent. Neither shows: content without records makes a page iff it makes a fragment, and the page
is written to a fixed text around what the fragment is written to.

* `write_below`: below a parent that escapes text, everything is written as at the top.
* `merged`: what keywords come to as attributes; `writeAll_textRecord` is the run of writes.
* `outcome_page`: the tree of a page, its head with one node for every address.
* `markup_pageNode`: the text that the tree is written to.
* **`page_around`**: a page and the fragment of its body.
-/

namespace Hypertext

open Markup Content

/-! ## Below a parent that escapes text -/

namespace Markup

variable {parent : Option String}

mutual

/-- **Below a parent that escapes text**, values are written as at the top. -/
theorem write_below (hp : EscapesText parent) : ∀ v : Value, v.write parent = v.write none
  | .node n => writeNode_below hp n
  | .null | .bool _ | .int _ | .float _ | .nan _ | .str _ | .bytes _ | .byteArray _ | .list _
  | .tuple _ | .record _ | .range _ _ | .opaqueObject _ | .component _ | .stream _ _
  | .error _ _ => rfl

theorem writeNode_below (hp : EscapesText parent) : ∀ n : Node, n.write parent = n.write none
  | .text data => by
    cases data with
    | str data => exact writeText_of_escapesText hp data
    | _ => rfl
  | .comment data => by cases data <;> rfl
  | .raw data => by cases data <;> rfl
  | .doctype name => by cases name <;> rfl
  | .element name a children => by cases name <;> rfl
  | .fragment children => by
    rw [Node.write, Node.write]
    exact writeAll_below hp children

theorem writeAll_below (hp : EscapesText parent) : ∀ vs : List Value,
    writeAll parent vs = writeAll none vs
  | [] => rfl
  | v :: rest => by rw [writeAll_cons, writeAll_cons, write_below hp v, writeAll_below hp rest]

end

end Markup

/-! ## Keywords as attributes -/

namespace Record

/-- The last value for `key`. -/
def lastFor (entries : Attributes) (key : String) : String :=
  (entries.reverse.lookup key).getD ""

/-- Entries merged by key: every key once, in the place of its first entry, with the value of its
last one. -/
def merged (entries : Attributes) : Attributes :=
  (entries.map Prod.fst).eraseDups.map fun key => (key, lastFor entries key)

example : merged [("a", "1"), ("b", "2"), ("a", "3"), ("c", ""), ("b", "4")] =
    [("a", "3"), ("b", "4"), ("c", "")] := by rfl

theorem textRecord_merged (entries : Attributes) : textRecord (merged entries) =
    keyed (fun key => .str (lastFor entries key)) (entries.map Prod.fst).eraseDups := by
  rw [textRecord, merged, List.map_map]
  rfl

/-- One more entry is one more write. -/
theorem merged_concat (entries : Attributes) (key value : String) :
    textRecord (merged (entries ++ [(key, value)])) =
      put key (.str value) (textRecord (merged entries)) := by
  have last (k : String) : lastFor (entries ++ [(key, value)]) k =
      if k = key then value else lastFor entries k := by
    rw [lastFor, lastFor, List.reverse_concat, List.lookup_cons]
    by_cases h : k = key
    · rw [if_pos h, beq_iff_eq.mpr h]
      rfl
    · rw [if_neg h, beq_eq_false_iff_ne.mpr h]
  have own : lastFor (entries ++ [(key, value)]) key = value := by rw [last, if_pos rfl]
  have others : ∀ k, k ≠ key → Value.str (lastFor (entries ++ [(key, value)]) k) =
      .str (lastFor entries k) := fun k hk => by rw [last, if_neg hk]
  have write := put_keyed (f := fun k => .str (lastFor entries k))
    (g := fun k => .str (lastFor (entries ++ [(key, value)]) k)) others
    (nodup_eraseDups (entries.map Prod.fst))
  rw [own] at write
  rw [textRecord_merged, textRecord_merged, write, List.map_append, List.map_singleton,
    eraseDups_concat]

/-- **A run of writes** without nulls leaves the merged entries. -/
theorem writeAll_textRecord (entries : Attributes) :
    writeAll [] (textRecord entries) = textRecord (merged entries) := by
  induction entries using List.reverseRecOn with
  | nil => rfl
  | append_singleton entries e ih =>
    obtain ⟨key, value⟩ := e
    have split : textRecord (entries ++ [(key, value)]) =
        textRecord entries ++ [(.str key, .str value)] := List.map_append
    rw [merged_concat, ← ih, split, writeAll_append]
    rfl

end Record

namespace Page

/-- Keywords with texts for values. -/
def textKeywords (keywords : List (String × String)) : List (String × Value) :=
  keywords.map fun k => (k.1, .str k.2)

/-- The attributes that keywords come to: the keys without the underscores around them, merged. -/
def keywordAttributes (keywords : List (String × String)) : Attributes :=
  Record.merged (keywords.map fun k => (keywordName k.1, k.2))

theorem putKeywords_textKeywords (keywords : List (String × String)) :
    putKeywords (textKeywords keywords) [] = textRecord (keywordAttributes keywords) := by
  have writes : keywordWrites (textKeywords keywords) =
      textRecord (keywords.map fun k => (keywordName k.1, k.2)) := by
    induction keywords with
    | nil => rfl
    | cons k keywords ih => exact congrArg ((.str (keywordName k.1), .str k.2) :: ·) ih
  rw [putKeywords_eq, writes, Record.writeAll_textRecord]
  rfl

/-! ## The tree of a page -/

/-- A node for each of some addresses. -/
def assetNodes (f : Value → Node) (addresses : List String) : List Value :=
  addresses.map fun s => .node (f (.str s))

/-- The head of a page. -/
def headNode (title : String) (styles scripts : List String) : Node :=
  .element (.str "head") [] (metas ++ [.node (.element (.str "title") [] [.ofText title])] ++
    assetNodes stylesheet styles ++ assetNodes script scripts)

/-- A page whose body has the given attributes and children. -/
def pageNode (title lang : String) (styles scripts : List String) (a : Record)
    (children : List Value) : Node :=
  .fragment [documentType, .node (.element (.str "html") [(.str "lang", .str lang)]
    [.node (headNode title styles scripts), .node (.element (.str "body") a children)])]

theorem assets_eq (f : Value → Node) {addresses : Value} {texts : List String}
    (h : addresses.steps? = some (texts.map fun s => .item (.str s))) :
    assets f addresses = .ok (.stream 0 ((assetNodes f texts).map .item)) := by
  rw [assets, h]
  show Except.ok (Value.stream 0 (List.map (mapped f) _)) = _
  rw [assetNodes, List.map_map, List.map_map]
  rfl

theorem lands_assetNodes {f : Value → Node} (hf : ∀ v, leafNodes (.node (f v)) = [.node (f v)])
    (texts : List String) : Lands (assetNodes f texts) (assetNodes f texts) := by
  have landed : Lands (assetNodes f texts) ((assetNodes f texts).flatMap leafNodes) :=
    lands_nodes (List.forall_mem_map.mpr fun s _ => ⟨_, rfl⟩)
  have leaves : (assetNodes f texts).flatMap leafNodes = assetNodes f texts := by
    rw [assetNodes, List.flatMap_map, List.flatMap_congr fun s _ => hf (.str s),
      ← List.map_eq_flatMap]
  rwa [leaves] at landed

/-- The streams of addresses are gone through while the head is built. -/
theorem outcome_head (title : String) (styles scripts : List String) :
    (Content.element (.str "head") (metas ++ [.node (.element (.str "title") [] [.ofText title]),
      .stream 0 ((assetNodes stylesheet styles).map .item),
      .stream 0 ((assetNodes script scripts).map .item)]) []).outcome =
        .ok (headNode title styles scripts) := by
  have front : Lands (metas ++ [.node (.element (.str "title") [] [.ofText title])])
      (metas ++ [.node (.element (.str "title") [] [.ofText title])]) := by
    refine lands_nodes fun v hv => ?_
    simp only [metas, List.cons_append, List.nil_append, List.mem_cons, List.not_mem_nil,
      or_false] at hv
    rcases hv with rfl | rfl | rfl <;> exact ⟨_, rfl⟩
  have links := (Uses.stream 0).lands (lands_assetNodes (f := stylesheet) (fun _ => rfl) styles)
  have modules := (Uses.stream 0).lands (lands_assetNodes (f := script) (fun _ => rfl) scripts)
  exact element_of_lands ((front.append links).append modules) "head" []

/-- **The tree of a page** whose body can be built. -/
theorem outcome_page {title lang : String} {body ns : List Value} {styles scripts : Value}
    {hrefs srcs : List String} {keywords : List (String × Value)}
    (hs : styles.steps? = some (hrefs.map fun s => .item (.str s)))
    (hs' : scripts.steps? = some (srcs.map fun s => .item (.str s)))
    (hb : (nodes body).outcome = .ok ns) :
    (page (.str title) body ⟨styles, scripts, .str lang, keywords⟩).outcome =
      .ok (pageNode title lang hrefs srcs (putKeywords keywords []) ns) := by
  have title : (Content.element (.str "title") [.str title] []).outcome =
      .ok (.element (.str "title") [] [.ofText title]) := rfl
  unfold page
  simp only [Traced.outcome_bind, Traced.outcome_silent, assets_eq _ hs, assets_eq _ hs', title,
    element_of_lands (lands_of_nodes hb)]
  simp only [bind, Except.bind, outcome_head]
  rfl

/-- A page that can be built has a body that can. -/
theorem exists_nodes_of_page {title : Value} {body : List Value} {options : PageOptions} {n : Node}
    (hr : records body = []) (h : (page title body options).outcome = .ok n) :
    ∃ ns, (nodes body).outcome = .ok ns := by
  unfold page at h
  simp only [Traced.outcome_bind] at h
  obtain ⟨_, -, h⟩ := exists_of_bind_ok h
  obtain ⟨_, -, h⟩ := exists_of_bind_ok h
  obtain ⟨_, -, h⟩ := exists_of_bind_ok h
  obtain ⟨_, -, h⟩ := exists_of_bind_ok h
  obtain ⟨bodyNode, hb, -⟩ := exists_of_bind_ok h
  exact exists_nodes_of_element hr hb

/-! ## The text of a page -/

/-- A link to a style sheet. -/
def stylesheetText (address : String) : String :=
  "<link rel=\"stylesheet\" href=\"" ++ Text.escapeAttribute address ++ "\">"

/-- A script. -/
def scriptText (address : String) : String :=
  "<script type=\"module\" async=\"\" defer=\"\" src=\"" ++ Text.escapeAttribute address ++
    "\">" ++ "</script>"

/-- What the head of a page holds. -/
def headContent (title : String) (styles scripts : List String) : String :=
  "<meta charset=\"utf-8\">" ++
    "<meta name=\"viewport\" content=\"width=device-width, initial-scale=1\">" ++
    ("<title>" ++ Text.escapeText title ++ "</title>") ++ String.join (styles.map stylesheetText) ++
    String.join (scripts.map scriptText)

/-- The head of a page. -/
def headText (title : String) (styles scripts : List String) : String :=
  "<head>" ++ headContent title styles scripts ++ "</head>"

/-- A page around the text of its body. -/
def pageText (title lang : String) (styles scripts : List String) (a : Attributes)
    (body : String) : String :=
  "<!DOCTYPE html>" ++ ("<html lang=\"" ++ Text.escapeAttribute lang ++ "\">" ++
    (headText title styles scripts ++ (openingTag "body" a ++ body ++ "</body>")) ++ "</html>")

/-- A tag from the value of its last attribute on. -/
theorem openingTag_concat {name key front : String} {a : Attributes}
    (h : "<" ++ name ++ writeAttributes a ++ " " ++ key ++ "=\"" = front) (value : String) :
    openingTag name (a ++ [(key, value)]) = front ++ Text.escapeAttribute value ++ "\">" := by
  have last : writeAttributes [(key, value)] =
      " " ++ key ++ "=\"" ++ Text.escapeAttribute value ++ "\"" := by
    simp [writeAttributes]
  have close : "\">" = "\"" ++ ">" := rfl
  have split : writeAttributes (a ++ [(key, value)]) =
      writeAttributes a ++ writeAttributes [(key, value)] := by
    simp [writeAttributes, String.join_append]
  rw [openingTag, split, last, close, ← h]
  simp only [String.append_assoc]

variable {parent : Option String}

theorem stylesheet_eq (address : String) : stylesheet (.str address) =
    .element (.str "link") (textRecord ([("rel", "stylesheet")] ++ [("href", address)])) [] := by
  have names : keywordName "rel" = "rel" ∧ keywordName "href" = "href" := by decide +kernel
  simp [stylesheet, bare, putKeywords, names, Record.put, Value.isKey, textRecord]

theorem script_eq (address : String) : script (.str address) =
    .element (.str "script") (textRecord
      ([("type", "module"), ("async", ""), ("defer", "")] ++ [("src", address)])) [] := by
  have names : keywordName "type" = "type" ∧ keywordName "async" = "async" ∧
      keywordName "defer" = "defer" ∧ keywordName "src" = "src" := by decide +kernel
  simp [script, bare, putKeywords, names, Record.put, Value.isKey, textRecord]

theorem write_stylesheet (address : String) :
    (Value.node (stylesheet (.str address))).write parent = .ok (stylesheetText address) := by
  have void : isVoid "link" = true := by decide +kernel
  have tag : openingTag "link" ([("rel", "stylesheet")] ++ [("href", address)]) =
      stylesheetText address := openingTag_concat (by decide +kernel) address
  rw [Value.write, stylesheet_eq, write_void void, tag]

/-- An element is written to its tags around what its children are written to. -/
theorem write_around {name opening closing : String} {a : Attributes} {children : List Value}
    {x : Except Fault String} (filled : isVoid name ≠ true) (ho : openingTag name a = opening)
    (hc : closingTag name = closing) (hx : writeAll (some name) children = x) :
    (Value.node (.element (.str name) (textRecord a) children)).write parent =
      x.map fun inner => opening ++ inner ++ closing := by
  rw [Value.write, write_element_eq (textAttributes?_textRecord a), if_neg filled, ho, hc, hx]
  cases x <;> rfl

theorem write_script (address : String) :
    (Value.node (script (.str address))).write parent = .ok (scriptText address) := by
  have filled : isVoid "script" ≠ true := by decide +kernel
  have opening : openingTag "script" ([("type", "module"), ("async", ""), ("defer", "")] ++
      [("src", address)]) = "<script type=\"module\" async=\"\" defer=\"\" src=\"" ++
        Text.escapeAttribute address ++ "\">" := openingTag_concat (by decide +kernel) address
  have closing : closingTag "script" = "</script>" := by decide +kernel
  rw [script_eq]
  exact (write_around filled opening closing rfl).trans
    (congrArg (fun text => Except.ok (text ++ "</script>")) String.append_empty)

theorem writeAll_assetNodes {f : Value → Node} {text : String → String}
    (hf : ∀ s, (Value.node (f (.str s))).write parent = .ok (text s)) (addresses : List String) :
    writeAll parent (assetNodes f addresses) = .ok (String.join (addresses.map text)) := by
  induction addresses with
  | nil => rfl
  | cons s addresses ih =>
    show writeAll parent (.node (f (.str s)) :: assetNodes f addresses) = _
    rw [writeAll_cons, hf, ih, ok_append_ok, List.map_cons, String.join_cons]

/-- The head is written whatever the title and the addresses are. -/
theorem write_headNode (title : String) (styles scripts : List String) :
    (Value.node (headNode title styles scripts)).write parent =
      .ok (headText title styles scripts) := by
  have filled : isVoid "title" ≠ true ∧ isVoid "head" ≠ true := by decide +kernel
  have opening : openingTag "title" [] = "<title>" ∧ openingTag "head" [] = "<head>" := by
    decide +kernel
  have closing : closingTag "title" = "</title>" ∧ closingTag "head" = "</head>" := by
    decide +kernel
  have front : writeAll (some "head") metas = .ok ("<meta charset=\"utf-8\">" ++
      "<meta name=\"viewport\" content=\"width=device-width, initial-scale=1\">") := by rfl
  have inside : writeAll (some "title") [.ofText title] = .ok (Text.escapeText title) := by
    have escapes : EscapesText (some "title") := escapesText_some (by decide +kernel)
    rw [writeAll_singleton]
    exact writeText_of_escapesText escapes title
  have titled : (Value.node (.element (.str "title") (textRecord []) [.ofText title])).write
      (some "head") = .ok ("<title>" ++ Text.escapeText title ++ "</title>") :=
    write_around filled.1 opening.1 closing.1 inside
  have all : writeAll (some "head") (metas ++
      [.node (.element (.str "title") (textRecord []) [.ofText title])] ++
      assetNodes stylesheet styles ++ assetNodes script scripts) =
        .ok (headContent title styles scripts) := by
    rw [writeAll_append, writeAll_append, writeAll_append, front, writeAll_singleton, titled,
      writeAll_assetNodes write_stylesheet, writeAll_assetNodes write_script]
    simp only [ok_append_ok]
    rfl
  exact write_around (a := []) filled.2 opening.2 closing.2 all

theorem ok_append_map (front head : String) (f g : String → String) (x : Except Fault String) :
    .ok front ++ (.ok head ++ x.map f).map g = x.map fun s => front ++ g (head ++ f s) := by
  cases x <;> rfl

/-- **The text of a page's tree** is that of its head and tags around what the children of the body
are written to, also at the top. -/
theorem markup_pageNode (title lang : String) (styles scripts : List String) (a : Attributes)
    (children : List Value) : (pageNode title lang styles scripts (textRecord a) children).markup =
      (writeAll none children).map (pageText title lang styles scripts a) := by
  have filled : isVoid "html" ≠ true ∧ isVoid "body" ≠ true := by decide +kernel
  have opening : openingTag "html" ([] ++ [("lang", lang)]) =
      "<html lang=\"" ++ Text.escapeAttribute lang ++ "\">" :=
    openingTag_concat (by decide +kernel) lang
  have closing : closingTag "html" = "</html>" ∧ closingTag "body" = "</body>" := by
    decide +kernel
  have doctype : documentType.write none = .ok "<!DOCTYPE html>" := by rfl
  have below : writeAll (some "body") children = writeAll none children :=
    writeAll_below (escapesText_some (by decide +kernel)) children
  have body : (Value.node (.element (.str "body") (textRecord a) children)).write (some "html") =
      (writeAll none children).map (openingTag "body" a ++ · ++ "</body>") :=
    write_around filled.2 rfl closing.2 below
  have inside : writeAll (some "html") [.node (headNode title styles scripts),
      .node (.element (.str "body") (textRecord a) children)] =
        .ok (headText title styles scripts) ++
          (writeAll none children).map (openingTag "body" a ++ · ++ "</body>") := by
    rw [writeAll_cons, writeAll_singleton, write_headNode, body]
  have html : (Value.node (.element (.str "html") (textRecord ([] ++ [("lang", lang)]))
      [.node (headNode title styles scripts),
        .node (.element (.str "body") (textRecord a) children)])).write none = _ :=
    write_around filled.1 opening closing.1 inside
  rw [Node.markup, pageNode, Node.write, writeAll_cons, writeAll_singleton, doctype]
  exact (congrArg _ html).trans (ok_append_map _ _ _ _ _)

/-! ## A page and the fragment of its body -/

/-- Options that are all given leave the keywords to the body. -/
theorem ofArguments_given {styles scripts lang : Value} {keywords : List (String × Value)}
    (hk : ∀ k ∈ keywords, k.1 ∉ PageOptions.names) :
    PageOptions.ofArguments (some styles) (some scripts) (some lang) keywords =
      .ok ⟨styles, scripts, lang, keywords⟩ := by
  have given : ∀ name ∈ PageOptions.names, ∀ v fallback : Value,
      PageOptions.choose name (some v) keywords fallback = .ok v := by
    intro name hn v fallback
    have absent : keywords.lookup name = none := by
      refine List.lookup_eq_none_iff.mpr fun k hm => bne_iff_ne.mpr ?_
      rintro rfl
      exact hk k hm hn
    simp only [PageOptions.choose, absent]
  have kept : (keywords.filter fun k => !PageOptions.names.contains k.1) = keywords :=
    List.filter_eq_self.mpr fun k hm => by simp [hk k hm]
  rw [PageOptions.ofArguments, given "styles" (by simp [PageOptions.names]),
    given "scripts" (by simp [PageOptions.names]), given "lang" (by simp [PageOptions.names]), kept]
  rfl

/-- **A page wraps what its body would be alone.** For content without records the page can be built
iff the fragment of its body can, and is written to the fragment's text with the page around it, or
fails in writing as the fragment does. -/
theorem page_around {title lang : String} {body : List Value} {styles scripts : Value}
    {hrefs srcs : List String} {keywords : List (String × String)} (hr : records body = [])
    (hs : styles.steps? = some (hrefs.map fun s => .item (.str s)))
    (hs' : scripts.steps? = some (srcs.map fun s => .item (.str s)))
    (hk : ∀ k ∈ keywords, k.1 ∉ PageOptions.names) :
    ∃ options, PageOptions.ofArguments (some styles) (some scripts) (some (.str lang))
        (textKeywords keywords) = .ok options ∧
      ((∃ n, (page (.str title) body options).outcome = .ok n) ↔
        ∃ m, (Content.fragment body).outcome = .ok m) ∧
      (∀ k ∈ keywords, Stripped k.1 (keywordName k.1)) ∧
      ∀ n, (page (.str title) body options).outcome = .ok n →
        n.markup = (writeFragment body).outcome.map
          (pageText title lang hrefs srcs (keywordAttributes keywords)) := by
  have free : ∀ k ∈ textKeywords keywords, k.1 ∉ PageOptions.names := List.forall_mem_map.mpr hk
  refine ⟨_, ofArguments_given free, ⟨fun ⟨n, hn⟩ => ?_, fun ⟨m, hm⟩ => ?_⟩,
    fun k _ => stripped_keywordName k.1, fun n hn => ?_⟩
  · obtain ⟨ns, hb⟩ := exists_nodes_of_page hr hn
    exact ⟨.fragment ns, by rw [outcome_fragment, hb]; rfl⟩
  · obtain ⟨ns, hb, -⟩ := exists_nodes_of_fragment hm
    exact ⟨_, outcome_page hs hs' hb⟩
  · obtain ⟨ns, hb⟩ := exists_nodes_of_page hr hn
    rw [outcome_page hs hs' hb] at hn
    rw [← Except.ok.inj hn, putKeywords_textKeywords, markup_pageNode, outcome_writeFragment, hb]
    rfl

/-- A body with an escape and a nested list. -/
def nestedBody : List Value := [.str "a<b", .list [.node (.comment (.str "c"))]]

/-- Keywords of which two come to the same key. -/
def collidingKeywords : List (String × String) := [("class_", "p"), ("id", "i"), ("_class", "q")]

theorem page_around_colliding : ∃ options n,
    PageOptions.ofArguments (some (.list [.str "/a?x=\"1\""])) (some (.tuple [.str "/m.js"]))
      (some (.str "e\"n")) (textKeywords collidingKeywords) = .ok options ∧
    (page (.str "T & <co>") nestedBody options).outcome = .ok n ∧
    n.markup = .ok ("<!DOCTYPE html><html lang=\"e&quot;n\"><head><meta charset=\"utf-8\">" ++
      "<meta name=\"viewport\" content=\"width=device-width, initial-scale=1\">" ++
      "<title>T &amp; &lt;co&gt;</title><link rel=\"stylesheet\" href=\"/a?x=&quot;1&quot;\">" ++
      "<script type=\"module\" async=\"\" defer=\"\" src=\"/m.js\"></script></head>" ++
      "<body class=\"q\" id=\"i\">a&lt;b<!--c--></body></html>") := by
  obtain ⟨options, given, built, -, written⟩ := @page_around "T & <co>" "e\"n" nestedBody
    (.list [.str "/a?x=\"1\""]) (.tuple [.str "/m.js"]) ["/a?x=\"1\""] ["/m.js"]
    collidingKeywords rfl rfl rfl (by decide +kernel)
  obtain ⟨n, hn⟩ := built.mpr ⟨_, rfl⟩
  have alone : (writeFragment nestedBody).outcome = .ok "a&lt;b<!--c-->" := by rfl
  refine ⟨options, n, given, hn, (written n hn).trans ((congrArg _ alone).trans ?_)⟩
  exact congrArg Except.ok (by decide +kernel)

end Page

end Hypertext
