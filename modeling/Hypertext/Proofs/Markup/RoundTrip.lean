import Hypertext.Proofs.Markup.Reader
import Hypertext.Proofs.Markup.Writing

/-!
# Markup can be read back

A forest is canonical if nothing in it is lost by writing it: no raw text and no fragments, plain
names and keys, no empty texts, and no two texts side by side. `read` gives back every canonical
forest from its markup. So the markup tells canonical forests apart, and what stands in a text or
in the value of an attribute comes out of the reader as a text or a value, whatever it looks like.

* `lex_node`, `lex_content`, `lex_forest`: the markup falls apart into the tokens of the tree.
* `build_node`, `build_forest`: the tokens of the tree are put together to the tree.
* **`read_markup`**: a canonical forest can be written, and is read back from what is written.
-/

namespace Hypertext.Markup

/-! ## Canonical forests -/

/-- Attributes that an opening tag can hold: their keys are plain and distinct. -/
structure CanonicalAttributes (a : Attributes) : Prop where
  keys : ∀ e ∈ a, IsKey e.1
  distinct : (a.map Prod.fst).Nodup

mutual

/-- A canonical node, where text is not kept as it is. -/
inductive CanonicalNode : Node → Prop where
  | text {data : String} : data ≠ "" → CanonicalNode (.text (.str data))
  | comment {data : String} : ¬ "-->".toList <:+: data.toList → CanonicalNode (.comment (.str data))
  | doctype {name : String} : '>' ∉ name.toList → CanonicalNode (.doctype (.str name))
  | element {name : String} {a : Attributes} {children : List Value} : IsName name →
      CanonicalAttributes a → CanonicalContent name children →
      CanonicalNode (.element (.str name) (textRecord a) children)

/-- What an element may hold: any element nothing, one that keeps its text a single harmless text,
and one that is neither void nor keeps its text a canonical forest. -/
inductive CanonicalContent : String → List Value → Prop where
  | none (name : String) : CanonicalContent name []
  | kept {name data : String} : isTextPreserving name = true → data ≠ "" →
      ¬ "<!--".toList <:+: data.toList → ¬ ("<" ++ name).toList <:+: data.toList →
      ¬ ("</" ++ name).toList <:+: data.toList →
      CanonicalContent name [.node (.text (.str data))]
  | plain {name : String} {children : List Value} : isVoid name = false →
      isTextPreserving name = false → CanonicalForest children → CanonicalContent name children

/-- Canonical nodes, no two texts side by side. -/
inductive CanonicalForest : List Value → Prop where
  | nil : CanonicalForest []
  | cons {n : Node} {rest : List Value} : CanonicalNode n →
      (isText n = true → beginsWithText rest = false) → CanonicalForest rest →
      CanonicalForest (.node n :: rest)

end

/-! ## The tokens of a tree -/

mutual

/-- The tokens of a value. -/
def valueTokens : Value → List Token
  | .node n => nodeTokens n
  | _ => []

/-- The tokens of a node: one for a leaf; an opening one and, unless the element is void, a closing
one for an element. -/
def nodeTokens : Node → List Token
  | .text (.str data) => [.text data]
  | .comment (.str data) => [.comment data]
  | .doctype (.str name) => [.doctype name]
  | .element (.str name) attributes children =>
    .opening name ((textAttributes? attributes).getD []) ::
      (if isVoid name then [] else tokens children ++ [.closing name])
  | _ => []

/-- The tokens of values, one after another. -/
def tokens : List Value → List Token
  | [] => []
  | v :: rest => valueTokens v ++ tokens rest

end

theorem textAttributes?_textRecord : ∀ a : Attributes, textAttributes? (textRecord a) = some a
  | [] => rfl
  | (key, value) :: a => by
    have ih := textAttributes?_textRecord a
    unfold textRecord at ih ⊢
    rw [List.map_cons, textAttributes?, ih]
    rfl

theorem bodyMode_of_isVoid {name : String} (h : isVoid name = true) : bodyMode name = .content := by
  have apart : ∀ n ∈ voidElements, bodyMode n = .content := by decide
  exact apart name (List.contains_iff_mem.mp h)

theorem nodeTokens_element (name : String) (a : Attributes) (children : List Value) :
    nodeTokens (.element (.str name) (textRecord a) children) =
      .opening name a :: (if isVoid name then [] else tokens children ++ [.closing name]) := by
  rw [nodeTokens, textAttributes?_textRecord]
  rfl

/-! ## From markup to tokens -/

theorem writeText_kept {name data : String} (hk : isTextPreserving name = true)
    (hc : ¬ "<!--".toList <:+: data.toList) (ho : ¬ ("<" ++ name).toList <:+: data.toList)
    (he : ¬ ("</" ++ name).toList <:+: data.toList) : writeText (some name) data = .ok data := by
  rw [← Text.contains_iff] at hc ho he
  have sound : violation? name data = none := by
    unfold violation?
    rw [if_neg hc, if_neg ho, if_neg he]
  unfold writeText
  simp [hk, sound]

theorem write_element {parent : Option String} {name : String} {a : Attributes}
    {children : List Value} {inner : String} (hv : isVoid name = false)
    (h : writeAll (some name) children = .ok inner) :
    (Node.element (.str name) (textRecord a) children).write parent =
      .ok (openingTag name a ++ inner ++ closingTag name) := by
  rw [Node.write, textAttributes?_textRecord]
  simp only [hv, h]
  rfl

theorem write_void {parent : Option String} {name : String} {a : Attributes}
    {children : List Value} (hv : isVoid name = true) :
    (Node.element (.str name) (textRecord a) children).write parent = .ok (openingTag name a) := by
  rw [Node.write, textAttributes?_textRecord]
  simp only [hv]
  rfl

mutual

/-- A node is cut into its tokens, whatever stands behind it; only behind a text, markup or the end
must follow. -/
theorem lex_node {parent : Option String} (hp : EscapesText parent) : ∀ {n : Node},
    CanonicalNode n → ∃ s, n.write parent = .ok s ∧
      (isText n = false → ∃ tail, s.toList = '<' :: tail) ∧
      ∀ rest, (isText n = true → Stops (· ≠ '<') rest) →
        lex .content (s.toList ++ rest) = (lex .content rest).map (nodeTokens n ++ ·)
  | .text (.str data), .text h => by
    refine ⟨Text.escapeText data, ?_, ?_, ?_⟩
    · rw [Node.write, writeText_of_escapesText hp]
    · rintro ⟨⟩
    · exact fun rest hr => lex_text h (hr rfl)
  | .comment (.str data), .comment h => by
    refine ⟨"<!--" ++ data ++ "-->", ?_, ?_, ?_⟩
    · rw [Node.write, writeComment, if_neg (by rwa [Text.contains_iff])]
    · exact fun _ => ⟨_, by rw [String.toList_append, String.toList_append]; rfl⟩
    · exact fun rest _ => lex_comment h rest
  | .doctype (.str name), .doctype h => by
    refine ⟨"<!DOCTYPE " ++ name ++ ">", ?_, ?_, ?_⟩
    · rw [Node.write]
    · exact fun _ => ⟨_, by rw [String.toList_append, String.toList_append]; rfl⟩
    · exact fun rest _ => lex_doctype h rest
  | .element (.str name) _ children, .element (a := a) hn ha hc => by
    have keys : ∀ e ∈ a, ∀ c ∈ e.1.toList, isNameChar c = true := fun e he => (ha.keys e he).2
    have opens : ∃ tail, (openingTag name a).toList = '<' :: tail := by simp [openingTag]
    by_cases hv : isVoid name = true
    · refine ⟨openingTag name a, write_void hv, fun _ => opens, fun rest _ => ?_⟩
      rw [lex_opening hn keys, bodyMode_of_isVoid hv, nodeTokens_element, if_pos hv]
    · rw [Bool.not_eq_true] at hv
      obtain ⟨inner, hw, hl⟩ := lex_content hn hc
      refine ⟨_, write_element hv hw, fun _ => ?_, fun rest _ => ?_⟩
      · obtain ⟨tail, ht⟩ := opens
        exact ⟨_, by rw [String.toList_append, String.toList_append, ht]; rfl⟩
      · simp only [String.toList_append, List.append_assoc]
        rw [lex_opening hn keys, hl, map_append_map, nodeTokens_element, hv]
        rfl

/-- What an element holds is cut up to its closing tag, in the mode that its opening tag leaves. -/
theorem lex_content {name : String} (hn : IsName name) : ∀ {children : List Value},
    CanonicalContent name children → ∃ s, writeAll (some name) children = .ok s ∧
      ∀ rest, lex (bodyMode name) (s.toList ++ ((closingTag name).toList ++ rest)) =
        (lex .content rest).map ((tokens children ++ [.closing name]) ++ ·)
  | [], .none _ => by
    refine ⟨"", rfl, fun rest => ?_⟩
    unfold bodyMode
    by_cases hk : isTextPreserving name = true
    · have empty : ¬ ("</" ++ name).toList <:+: "".toList := by simp
      rw [if_pos hk, lex_kept empty (hn.not_mem (by decide)) rest]
      rfl
    · rw [if_neg hk]
      exact lex_closing (hn.not_mem (by decide)) rest
  | [.node (.text (.str data))], .kept hk hd hc ho he => by
    refine ⟨data, ?_, fun rest => ?_⟩
    · simp only [writeAll, Value.write, Node.write, writeText_kept hk hc ho he]
      exact congrArg Except.ok (String.append_empty)
    · rw [bodyMode, if_pos hk, lex_kept he (hn.not_mem (by decide)) rest, if_neg hd]
      rfl
  | children, .plain hv hk hf => by
    have escapes : EscapesText (some name) := by
      rintro _ ⟨⟩
      exact hk
    obtain ⟨s, hw, -, hl⟩ := lex_forest escapes hf
    refine ⟨s, hw, fun rest => ?_⟩
    have stops : Stops (· ≠ '<') ((closingTag name).toList ++ rest) := by
      simpa [closingTag] using stops_cons (by decide) _
    rw [bodyMode, if_neg (by simp [hk]), hl _ stops, lex_closing (hn.not_mem (by decide)),
      map_append_map]

/-- A forest is cut into its tokens in front of markup or the end. -/
theorem lex_forest {parent : Option String} (hp : EscapesText parent) : ∀ {vs : List Value},
    CanonicalForest vs → ∃ s, writeAll parent vs = .ok s ∧
      (beginsWithText vs = false → Stops (· ≠ '<') s.toList) ∧
      ∀ rest, Stops (· ≠ '<') rest →
        lex .content (s.toList ++ rest) = (lex .content rest).map (tokens vs ++ ·)
  | [], .nil => by
    refine ⟨"", rfl, fun _ => by rintro _ ⟨⟩, fun rest _ => ?_⟩
    simp [tokens]
  | .node n :: vs, .cons hn apart hvs => by
    obtain ⟨first, hw, hs, hl⟩ := lex_node hp hn
    obtain ⟨others, hw', hs', hl'⟩ := lex_forest hp hvs
    refine ⟨first ++ others, ?_, fun hb => ?_, fun rest hr => ?_⟩
    · simp only [writeAll, Value.write, hw, hw']
      rfl
    · obtain ⟨tail, ht⟩ := hs hb
      rw [String.toList_append, ht]
      exact stops_cons (by decide) _
    · -- A text would run on into a text behind it, but two never stand side by side.
      have next : isText n = true → Stops (· ≠ '<') (others.toList ++ rest) :=
        fun ht => (hs' (apart ht)).append hr
      rw [String.toList_append, List.append_assoc, hl _ next, hl' rest hr, map_append_map]
      rfl

end

/-! ## From tokens to the tree -/

mutual

/-- The tokens of a node add the node to those read before, and leave the open elements. -/
theorem build_node : ∀ {n : Node}, CanonicalNode n →
    ∀ (ts : List Token) (nodes : List Value) (outer : List Opened),
      build (nodeTokens n ++ ts) nodes outer = build ts (nodes ++ [.node n]) outer
  | .text (.str _), .text _, ts, nodes, outer => by simp [nodeTokens, build]
  | .comment (.str _), .comment _, ts, nodes, outer => by simp [nodeTokens, build]
  | .doctype (.str _), .doctype _, ts, nodes, outer => by simp [nodeTokens, build]
  | .element (.str name) _ children, .element (a := a) _ _ hc, ts, nodes, outer => by
    rw [nodeTokens_element, List.cons_append, build]
    by_cases hv : isVoid name = true
    · have childless : children = [] := by
        cases hc with
        | none => rfl
        | kept hk => exact absurd (bodyMode_of_isVoid hv) (by simp [bodyMode, hk])
        | plain hn => exact absurd hv (by simp [hn])
      rw [if_pos hv, if_pos hv, childless]
      rfl
    · rw [if_neg hv, if_neg hv, List.append_assoc, build_content hc, List.nil_append,
        List.singleton_append, build, if_pos rfl]

theorem build_content {name : String} : ∀ {children : List Value}, CanonicalContent name children →
    ∀ (ts : List Token) (nodes : List Value) (outer : List Opened),
      build (tokens children ++ ts) nodes outer = build ts (nodes ++ children) outer
  | [], .none _, ts, nodes, outer => by simp [tokens]
  | [.node (.text (.str _))], .kept .., ts, nodes, outer => by
    simp [tokens, valueTokens, nodeTokens, build]
  | _, .plain _ _ hf, ts, nodes, outer => build_forest hf ts nodes outer

theorem build_forest : ∀ {vs : List Value}, CanonicalForest vs →
    ∀ (ts : List Token) (nodes : List Value) (outer : List Opened),
      build (tokens vs ++ ts) nodes outer = build ts (nodes ++ vs) outer
  | [], .nil, ts, nodes, outer => by simp [tokens]
  | .node n :: vs, .cons hn _ hvs, ts, nodes, outer => by
    rw [tokens, valueTokens, List.append_assoc, build_node hn, build_forest hvs,
      List.append_assoc, List.singleton_append]

end

/-! ## The round trip -/

theorem lex_markup {forest : List Value} (h : CanonicalForest forest) :
    ∃ s, (Node.fragment forest).markup = .ok s ∧ lex .content s.toList = some (tokens forest) := by
  have escapes : EscapesText none := by rintro _ ⟨⟩
  obtain ⟨s, hw, -, hl⟩ := lex_forest escapes h
  have ends := hl [] (by rintro _ ⟨⟩)
  rw [List.append_nil, lex_nil] at ends
  refine ⟨s, ?_, by simpa using ends⟩
  rw [Node.markup, Node.write, hw]

theorem build_tokens {forest : List Value} (h : CanonicalForest forest) :
    build (tokens forest) [] [] = some forest := by
  have := build_forest h [] [] []
  rwa [List.append_nil, List.nil_append] at this

/-- **Markup can be read back.** A canonical forest can be written; its markup falls apart into
exactly the tokens of the tree; the reader gives back the forest; and no other canonical forest has
the same markup. -/
theorem read_markup {forest : List Value} (h : CanonicalForest forest) :
    ∃ s, (Node.fragment forest).markup = .ok s ∧ lex .content s.toList = some (tokens forest) ∧
      read s = some forest ∧
      ∀ other, CanonicalForest other → (Node.fragment other).markup = .ok s → other = forest := by
  obtain ⟨s, hs, hl⟩ := lex_markup h
  refine ⟨s, hs, hl, ?_, fun other ho hm => ?_⟩
  · rw [read, hl, Option.bind_some, build_tokens h]
  · obtain ⟨s', hs', hl'⟩ := lex_markup ho
    obtain rfl : s = s' := Except.ok.inj (hm.symm.trans hs')
    have same : tokens other = tokens forest := Option.some.inj (hl'.symm.trans hl)
    have built := build_tokens ho
    rw [same, build_tokens h] at built
    exact (Option.some.inj built).symm

/-- A forest whose texts and values look like markup and like escapes. -/
def tangledForest : List Value :=
  [.node (.doctype (.str "html <")),
   .node (.element (.str "div") (textRecord [("title", "\"><br a=\"&quot;"), ("x-1", "")])
     [.node (.text (.str "</div>&amp;<!--")),
      .node (.comment (.str "</div>--")),
      .node (.element (.str "br") (textRecord [("id", "/>")]) []),
      .node (.element (.str "script") [] [.node (.text (.str "a < b && \"</div>\" -->"))]),
      .node (.element (.str "style") [] []),
      .node (.element (.str "b") [] [.node (.element (.str "b") [] [])])]),
   .node (.text (.str "&lt;"))]

/-- The forest as it is written. -/
def tangledMarkup : String :=
  "<!DOCTYPE html <><div title=\"&quot;><br a=&quot;&amp;quot;\" x-1=\"\">" ++
  "&lt;/div&gt;&amp;amp;&lt;!--<!--</div>----><br id=\"/>\">" ++
  "<script>a < b && \"</div>\" --></script><style></style><b><b></b></b></div>&amp;lt;"

theorem canonical_tangledForest : CanonicalForest tangledForest := by
  have attributes : CanonicalAttributes [("title", "\"><br a=\"&quot;"), ("x-1", "")] := by
    refine ⟨fun e he => ?_, by decide⟩
    simp only [List.mem_cons, List.not_mem_nil, or_false] at he
    rcases he with rfl | rfl
    · exact ⟨by decide, List.all_eq_true.mp rfl⟩
    · exact ⟨by decide, List.all_eq_true.mp rfl⟩
  have oneAttribute : CanonicalAttributes [("id", "/>")] := by
    refine ⟨fun e he => ?_, by decide⟩
    obtain rfl := List.mem_singleton.mp he
    exact ⟨by decide, List.all_eq_true.mp rfl⟩
  have noAttributes : CanonicalAttributes [] :=
    ⟨fun _ he => absurd he List.not_mem_nil, List.nodup_nil⟩
  have div : IsName "div" := ⟨'d', ['i', 'v'], rfl, rfl, List.all_eq_true.mp rfl⟩
  have br : IsName "br" := ⟨'b', ['r'], rfl, rfl, List.all_eq_true.mp rfl⟩
  have script : IsName "script" := ⟨'s', "cript".toList, rfl, rfl, List.all_eq_true.mp rfl⟩
  have style : IsName "style" := ⟨'s', "tyle".toList, rfl, rfl, List.all_eq_true.mp rfl⟩
  have b : IsName "b" := ⟨'b', [], rfl, rfl, List.all_eq_true.mp rfl⟩
  have comment : CanonicalNode (.comment (.str "</div>--")) := by
    refine .comment ?_
    rw [← Text.contains_iff]
    decide
  have code : CanonicalContent "script" [.node (.text (.str "a < b && \"</div>\" -->"))] := by
    refine .kept (by decide) (by decide) ?_ ?_ ?_
    all_goals
      rw [← Text.contains_iff]
      decide
  have bold : CanonicalForest [.node (.element (.str "b") [] [])] :=
    .cons (.element (a := []) b noAttributes (.none "b")) nofun .nil
  refine .cons (.doctype (by decide)) nofun ?_
  refine .cons (.element div attributes (.plain (by decide) (by decide) ?_)) nofun ?_
  · refine .cons (.text (by decide)) (fun _ => rfl) ?_
    refine .cons comment nofun ?_
    refine .cons (.element br oneAttribute (.none "br")) nofun ?_
    refine .cons (.element (a := []) script noAttributes code) nofun ?_
    refine .cons (.element (a := []) style noAttributes (.none "style")) nofun ?_
    exact .cons (.element (a := []) b noAttributes (.plain (by decide) (by decide) bold)) nofun .nil
  · exact .cons (.text (by decide)) (fun _ => rfl) .nil

theorem read_markup_tangled : CanonicalForest tangledForest ∧
    (Node.fragment tangledForest).markup.toOption = some tangledMarkup ∧
    read tangledMarkup = some tangledForest := by
  have written : (Node.fragment tangledForest).markup.toOption = some tangledMarkup := by
    decide +kernel
  obtain ⟨s, hs, -, hr, -⟩ := read_markup canonical_tangledForest
  obtain rfl : tangledMarkup = s := Option.some.inj (written.symm.trans (congrArg _ hs))
  exact ⟨canonical_tangledForest, written, hr⟩

end Hypertext.Markup
