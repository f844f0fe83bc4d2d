import Hypertext.Component
import Hypertext.Page
import Hypertext.Proofs.Layout.Alike
import Hypertext.Proofs.TagList.Typed

/-!
# Calls in a row

A program calls the library again and again, on nodes that earlier calls have yielded and on any
other values besides. A `Call` is one such call: of `text`, `comment`, `raw_html`, `doctype`,
`element`, `fragment`, `tag`, `document`, `jsx` with a tag name, or `prettify`. `Produced` says
what calls in a row have yielded by then. All of it is well typed: the library checks what it has
to, on every way in.

* `builds_page`, `builds_render`, `builds_layout`: pages, rendered tag names and layouts over
  well-typed nodes are well typed or refused.
* `Call.builds_run`: the step. A call on well-typed nodes yields well-typed nodes.
* `Produced.wellTyped`: the run, by induction on the calls.
* **`produced_wellTyped`**: calls in a row yield nothing but well-typed nodes, and none of these is
  refused in writing for what it is.
-/

namespace Hypertext

open Content

variable {F : Fault → Prop}

/-! ## Texts that may be missing -/

/-- A text or null. -/
def Value.isOptional : Value → Bool
  | .null | .str _ => true
  | _ => false

theorem isEntry_keywordWrites {keywords : List (String × Value)}
    (h : ∀ k ∈ keywords, k.2.isOptional = true) :
    ∀ e ∈ keywordWrites keywords, isEntry e = true := by
  intro e he
  obtain ⟨⟨key, v⟩, hm, hk⟩ := List.mem_filterMap.mp he
  have optional := h _ hm
  cases v with
  | null => cases hk
  | str value =>
    cases hk
    rfl
  | _ => cases optional

/-! ## Pages -/

namespace Page

theorem wellTyped_bare (name : String) {keywords : List (String × Value)}
    (h : ∀ k ∈ keywords, k.2.isOptional = true) : (bare name keywords).WellTyped := by
  unfold bare
  rw [putKeywords_eq]
  exact .element name (Record.texts_nil.writeAll (isEntry_keywordWrites h)) (List.forall_mem_nil _)

/-- The value can be gone through for addresses, which are texts or null. A stream of them raises
nothing but faults with `F`. -/
def Addresses (F : Fault → Prop) (v : Value) : Prop :=
  ∃ steps, v.steps? = some steps ∧ Step.All (fun u => u.isOptional = true) F steps

/-- The nodes of addresses, as they come. -/
theorem builds_assets {f : Value → Node} (hf : ∀ u, u.isOptional = true → (f u).WellTyped)
    {addresses : Value} (h : Addresses F addresses) :
    Builds F (Value.Over Node.WellTyped F) (assets f addresses) := by
  obtain ⟨steps, hs, all⟩ := h
  unfold assets
  rw [hs]
  refine .ok (.stream (fun v hv => ?_) fun g hg => ?_)
  · obtain ⟨s, hm, e⟩ := List.mem_map.mp hv
    cases s with
    | item u =>
      cases e
      exact .node (hf u (all.items u hm))
    | _ => cases e
  · obtain ⟨s, hm, e⟩ := List.mem_map.mp hg
    cases s with
    | fail g =>
      cases e
      exact all.fails _ hm
    | _ => cases e

theorem wellTyped_stylesheet {u : Value} (h : u.isOptional = true) : (stylesheet u).WellTyped := by
  refine wellTyped_bare _ ?_
  simp only [List.forall_mem_cons]
  exact ⟨rfl, h, List.forall_mem_nil _⟩

theorem wellTyped_script {u : Value} (h : u.isOptional = true) : (script u).WellTyped := by
  refine wellTyped_bare _ ?_
  simp only [List.forall_mem_cons]
  exact ⟨rfl, rfl, rfl, h, List.forall_mem_nil _⟩

theorem over_metas : ∀ v ∈ metas, v.Over Node.WellTyped F := by
  unfold metas
  simp only [List.forall_mem_cons]
  exact ⟨.node (wellTyped_bare _ (by decide)), .node (wellTyped_bare _ (by decide)),
    List.forall_mem_nil _⟩

end Page

/-- **A page of content over well-typed nodes** is well typed or refused. -/
theorem builds_page {title : Value} {body : List Value} {options : PageOptions}
    (ht : title.Over Node.WellTyped F) (hb : ∀ v ∈ body, v.Over Node.WellTyped F)
    (styles : Page.Addresses F options.styles) (scripts : Page.Addresses F options.scripts)
    (lang : options.lang.isOptional = true)
    (keywords : ∀ k ∈ options.keywords, k.2.isOptional = true) :
    Builds F Node.WellTyped (page title body options).outcome := by
  -- One call of the library after another, as the page makes them. The streams of links and scripts
  -- are content of the head, so their errors are the head's.
  have bare : ∀ e ∈ keywordWrites [], isEntry e = true := List.forall_mem_nil _
  unfold page
  refine (builds_element _ (List.forall_mem_singleton.mpr ht) bare).andThen fun titleNode ht => ?_
  refine Builds.andThen (Page.builds_assets (fun _ => Page.wellTyped_stylesheet) styles)
    fun links hl => ?_
  refine Builds.andThen (Page.builds_assets (fun _ => Page.wellTyped_script) scripts)
    fun modules hm => ?_
  have head : ∀ v ∈ Page.metas ++ [.node titleNode, links, modules], v.Over Node.WellTyped F := by
    simp only [List.forall_mem_append, List.forall_mem_cons]
    exact ⟨Page.over_metas, .node ht, hl, hm, List.forall_mem_nil _⟩
  refine (builds_element _ head bare).andThen fun headNode hh => ?_
  refine (builds_element _ hb (isEntry_keywordWrites keywords)).andThen fun bodyNode hbn => ?_
  have inner : ∀ v ∈ [Value.node headNode, .node bodyNode], v.Over Node.WellTyped F := by
    simp only [List.forall_mem_cons]
    exact ⟨.node hh, .node hbn, List.forall_mem_nil _⟩
  have langKeyword : ∀ k ∈ [("lang", options.lang)], k.2.isOptional = true :=
    List.forall_mem_singleton.mpr lang
  refine (builds_element _ inner (isEntry_keywordWrites langKeyword)).andThen fun html hhtml => ?_
  refine builds_fragment ?_
  simp only [List.forall_mem_cons]
  exact ⟨.node (.doctype "html"), .node hhtml, List.forall_mem_nil _⟩

/-! ## Tag names applied to properties -/

theorem Record.exists_of_find {key : String} {r : Record} {v : Value} (h : find key r = some v) :
    ∃ e ∈ r, e.2 = v := by
  induction r with
  | nil => cases h
  | cons e r ih =>
    obtain ⟨k, u⟩ := e
    rw [find] at h
    by_cases hk : k.isKey key = true
    · rw [if_pos hk] at h
      exact ⟨_, List.mem_cons_self, Option.some.inj h⟩
    · rw [if_neg hk] at h
      obtain ⟨e, he, rfl⟩ := ih h
      exact ⟨e, List.mem_cons_of_mem _ he, rfl⟩

/-- **A tag name applied to properties over well-typed nodes** gives a well-typed node or is
refused. -/
theorem builds_render (name : String) {props : Record}
    (h : (Value.record props).Over Node.WellTyped F) :
    Builds F Value.WellTyped (render (.tag name) (.record props)).outcome := by
  have element : Builds F Node.WellTyped (Component.element name (.record props)).outcome := by
    cases h with
    | record keys values =>
      rw [Component.element]
      by_cases hk : Record.hasKey "children" props = true
      · rw [if_pos hk]
        refine builds_element _ ?_ (List.forall_mem_nil _)
        simp only [List.forall_mem_cons]
        refine ⟨.record (fun e he => ?_) fun e he => ?_, ?_, List.forall_mem_nil _⟩
        · exact keys e (Record.mem_drop.mp he).1
        · exact values e (Record.mem_drop.mp he).1
        · unfold Component.property
          cases hf : Record.find "children" props with
          | none => exact .plain rfl
          | some v =>
            obtain ⟨e, he, rfl⟩ := Record.exists_of_find hf
            exact values e he
      · rw [if_neg hk]
        exact builds_element _ (List.forall_mem_singleton.mpr (.record keys values))
          (List.forall_mem_nil _)
    | plain hp => cases hp
  exact element.andThen fun n hn => .ok hn

/-! ## Layouts -/

theorem builds_ofNodes {vs : List Value} (h : ∀ v ∈ vs, v.WellTyped) (indent : String)
    (level : Int) :
    Builds F (fun rows => ∀ r ∈ rows, r.WellTyped) (Layout.ofNodes indent level vs).outcome := by
  obtain ⟨rows, hr⟩ := Layout.exists_lines h indent level
  rw [Layout.ofNodes, Traced.outcome_bind]
  show Builds _ _ (Layout.lines indent level vs).outcome
  rw [hr.outcome]
  exact .ok hr.wellTyped

/-- A value that can be laid out: a node, or something to go through. -/
def Value.isLayable (v : Value) : Bool :=
  match v with
  | .node _ => true
  | _ => v.steps?.isSome

/-- **A layout of content over well-typed nodes** is well typed or refused. -/
theorem builds_layout {input : Value} (h : input.Over Node.WellTyped F)
    (hi : input.isLayable = true) (indent : String) (level : Int) :
    Builds F (fun rows => ∀ r ∈ rows, r.WellTyped) (layout input indent level).outcome := by
  -- What is no node and no text is gone through, built as content at the root, and laid out.
  have through {steps : List Step} (hs : input.steps? = some steps) :
      Builds F (fun rows => ∀ r ∈ rows, r.WellTyped) (input.items >>= fun items =>
        Content.nodes items >>= Layout.ofNodes indent level).outcome := by
    have items : Builds F (fun vs => ∀ v ∈ vs, v.Over Node.WellTyped F) input.items.outcome := by
      unfold Value.items
      rw [hs]
      exact (h.steps hs).drain
    exact items.andThen fun vs hvs => (builds_nodes hvs).andThen fun ns hns =>
      builds_ofNodes hns indent level
  cases input with
  | node n =>
    have hn : n.WellTyped := by
      cases h with
      | node hn => exact hn
      | plain hp => cases hp
    rw [Layout.layout_node]
    exact builds_ofNodes (wellTyped_leafNodes hn) indent level
  | str s => exact builds_ofNodes (List.forall_mem_singleton.mpr (.text s)) indent level
  | bytes _ | byteArray _ | list _ | tuple _ | record _ | range _ _ | stream _ _ =>
    exact through rfl
  | _ => cases hi

/-! ## Calls -/

/-- A text, or null for none. -/
def Value.optional : Option String → Value
  | none => .null
  | some s => .str s

/-- Keywords whose values are texts or null. -/
abbrev Keywords := List (String × Option String)

/-- Keywords as the library is given them. -/
def Keywords.values (ks : Keywords) : List (String × Value) := ks.map fun k => (k.1, .optional k.2)

/-- One call of the library. -/
inductive Call where
  | text (data : String)
  | comment (data : String)
  | raw (data : String)
  | doctype (name : String)
  | element (name : Value) (content : List Value) (keywords : Keywords)
  | fragment (content : List Value)
  | tag (spec : Value)
  | page (title : Value) (body : List Value) (styles scripts : Value) (lang : Option String)
    (keywords : Keywords)
  | render (name : String) (props : Record)
  | layout (input : Value) (indent : String) (level : Int)

namespace Call

/-- What the call yields: one value, but as many as there are for a layout. -/
def run : Call → Traced (List Value)
  | text data => pure [.ofText data]
  | comment data => pure [.node (.comment (.str data))]
  | raw data => pure [.node (.raw (.str data))]
  | doctype name => pure [.node (.doctype (.str name))]
  | element name content keywords => do
    return [.node (← Content.element name content keywords.values)]
  | fragment content => do return [.node (← Content.fragment content)]
  | tag spec => do return [.node (← Hypertext.tag spec)]
  | page title body styles scripts lang keywords => do
    return [.node (← Hypertext.page title body ⟨styles, scripts, .optional lang, keywords.values⟩)]
  | render name props => do return [← Hypertext.render (.tag name) (.record props)]
  | layout input indent level => Hypertext.layout input indent level

/-- The call is on nodes with `P`, and the streams that it is given raise faults with `F` only.
Whatever else is asked of its arguments is that addresses can be gone through and are texts, and
that what is laid out is a node or can be gone through. -/
def Over (P : Node → Prop) (F : Fault → Prop) : Call → Prop
  | text _ | comment _ | raw _ | doctype _ => True
  | element _ content _ | fragment content => ∀ v ∈ content, v.Over P F
  | tag spec => spec.Over P F
  | page title body styles scripts _ _ =>
    title.Over P F ∧ (∀ v ∈ body, v.Over P F) ∧ Page.Addresses F styles ∧ Page.Addresses F scripts
  | render _ props => (Value.record props).Over P F
  | layout input _ _ => input.Over P F ∧ input.isLayable = true

theorem Over.mono {P Q : Node → Prop} {c : Call} (h : c.Over P F) (hPQ : ∀ n, P n → Q n) :
    c.Over Q F := by
  cases c with
  | text | comment | raw | doctype => trivial
  | element name content keywords => exact fun v hv => (h v hv).mono hPQ
  | fragment content => exact fun v hv => (h v hv).mono hPQ
  | tag spec => exact Value.Over.mono h hPQ
  | page title body styles scripts lang keywords =>
    obtain ⟨ht, hb, rest⟩ := h
    exact ⟨ht.mono hPQ, fun v hv => (hb v hv).mono hPQ, rest⟩
  | render name props => exact Value.Over.mono h hPQ
  | layout input indent level => exact ⟨h.1.mono hPQ, h.2⟩

end Call

theorem Value.isOptional_optional (o : Option String) : (Value.optional o).isOptional = true := by
  cases o <;> rfl

theorem Keywords.isOptional_values (ks : Keywords) :
    ∀ k ∈ ks.values, k.2.isOptional = true :=
  List.forall_mem_map.mpr fun k _ => Value.isOptional_optional k.2

/-- One node out of a call. -/
theorem Builds.single {x : Traced Node} (h : Builds F Node.WellTyped x.outcome) :
    Builds F (fun vs => ∀ v ∈ vs, v.WellTyped)
      (x >>= fun n => (pure [.node n] : Traced (List Value))).outcome :=
  h.andThen fun _ hn => .ok (List.forall_mem_singleton.mpr hn)

/-- **One call on well-typed nodes** yields well-typed nodes or is refused, unless a stream raises
something else. -/
theorem Call.builds_run {c : Call} (h : c.Over Node.WellTyped F) :
    Builds F (fun vs => ∀ v ∈ vs, v.WellTyped) c.run.outcome := by
  cases c with
  | text data => exact .ok (List.forall_mem_singleton.mpr (.text data))
  | comment data => exact .ok (List.forall_mem_singleton.mpr (.comment data))
  | raw data => exact .ok (List.forall_mem_singleton.mpr (.raw data))
  | doctype name => exact .ok (List.forall_mem_singleton.mpr (.doctype name))
  | element name content keywords =>
    exact (builds_element name h (isEntry_keywordWrites keywords.isOptional_values)).single
  | fragment content => exact (builds_fragment h).single
  | tag spec => exact (builds_tag h).single
  | page title body styles scripts lang keywords =>
    obtain ⟨ht, hb, hs, hj⟩ := h
    exact Builds.single <|
      builds_page ht hb hs hj (Value.isOptional_optional lang) keywords.isOptional_values
  | render name props =>
    exact (builds_render name h).andThen fun v hv => .ok (List.forall_mem_singleton.mpr hv)
  | layout input indent level => exact builds_layout h.1 h.2 indent level

/-- What calls in a row have yielded. The nodes that a call is on come from the calls before it;
what streams raise may be anything. -/
inductive Produced : List Value → Prop
  | start : Produced []
  | call {made yielded : List Value} (c : Call) (before : Produced made)
      (fits : c.Over (fun n => .node n ∈ made) fun _ => True) (h : c.run.outcome = .ok yielded) :
      Produced (made ++ yielded)

/-- **Calls in a row** yield well-typed nodes only. -/
theorem Produced.wellTyped {made : List Value} (h : Produced made) : ∀ v ∈ made, v.WellTyped := by
  induction h with
  | start => exact List.forall_mem_nil _
  | @call made yielded c _ fits h ih =>
    have step := c.builds_run (fits.mono fun n hn => ih _ hn)
    rw [h] at step
    cases step with
    | ok hy => exact List.forall_mem_append.mpr ⟨ih, hy⟩

/-- **Whatever is built from well-typed pieces can be written**, as far as its kind goes. Calls in
a row yield well-typed nodes only. A further call on these is refused with an error of building if
it does not, or lets through what a stream among its arguments has raised. A well-typed node always
has a layout, which is well typed again. And a well-typed node is written, unless a comment holds
its own end or a text does not fit the element around it. -/
theorem produced_wellTyped :
    (∀ made : List Value, Produced made →
      (∀ v ∈ made, v.WellTyped) ∧
      ∀ (c : Call) (F : Fault → Prop), c.Over (fun n => .node n ∈ made) F →
        Builds F (fun yielded => ∀ v ∈ yielded, v.WellTyped) c.run.outcome) ∧
    (∀ n : Node, n.WellTyped → ∀ (indent : String) (level : Int),
      ∃ rows, (layout (.node n) indent level).outcome = .ok rows ∧ ∀ r ∈ rows, r.WellTyped) ∧
    ∀ n : Node, n.WellTyped → Markup.Written n.markup := by
  refine ⟨fun made h => ⟨h.wellTyped, fun c F fits => ?_⟩, fun n hn indent level => ?_,
    fun n hn => Markup.write_wellTyped hn none⟩
  · exact c.builds_run (fits.mono fun n hn => h.wellTyped _ hn)
  · obtain ⟨rows, ho, hr⟩ := Layout.exists_layout hn indent level
    exact ⟨rows, ho, hr.wellTyped⟩

/-- A comment that cannot be written. -/
def loudComment : Node := .comment (.str "-->")

/-- A paragraph around it. -/
def loudParagraph : Node :=
  .element (.str "p") [(.str "class", .str "c")] [.node loudComment, .ofText "x"]

/-- The call that yields the paragraph. -/
def paragraphCall : Call :=
  .render "p" [(.str "children", .list [.node loudComment, .str "x"]), (.str "class", .str "c")]

/-- A call on the paragraph, whose content raises `f` half way. -/
def failingCall (f : Fault) : Call :=
  .element (.str "ul") [.stream 0 [.item (.node loudParagraph), .fail f]]
    [("id_", some "l"), ("lang", none)]

theorem produced_loudParagraph : Produced [.node loudComment, .node loudParagraph] := by
  have first : Produced [.node loudComment] := .call (.comment "-->") .start trivial rfl
  refine .call paragraphCall first (.record ?_ ?_) rfl
  · simp only [List.forall_mem_cons]
    exact ⟨.plain rfl, .plain rfl, List.forall_mem_nil _⟩
  · simp only [List.forall_mem_cons]
    refine ⟨.list ?_, .plain rfl, List.forall_mem_nil _⟩
    simp only [List.forall_mem_cons]
    exact ⟨.node List.mem_cons_self, .plain rfl, List.forall_mem_nil _⟩

theorem produced_wellTyped_paragraph :
    Produced [.node loudComment, .node loudParagraph] ∧
    (∀ v ∈ [Value.node loudComment, .node loudParagraph], v.WellTyped) ∧
    (∀ f, Builds (· = f) (fun yielded => ∀ v ∈ yielded, v.WellTyped) (failingCall f).run.outcome) ∧
    (failingCall (.build (.of (.stated "no")))).run.outcome =
      .error (.build ⟨.stated "no", [⟨"ul", [], 0⟩]⟩) ∧
    (failingCall .commentTerminator).run.outcome = .error .commentTerminator ∧
    (∃ rows, (layout (.node loudParagraph) "  " 1).outcome = .ok rows ∧
      ∀ r ∈ rows, r.WellTyped) ∧
    Markup.Written loudParagraph.markup ∧
    loudParagraph.markup = .error .commentTerminator := by
  obtain ⟨calls, layouts, written⟩ := produced_wellTyped
  obtain ⟨typed, further⟩ := calls _ produced_loudParagraph
  have paragraph : loudParagraph.WellTyped := typed _ (by simp)
  have fits (f : Fault) : (failingCall f).Over
      (fun n => .node n ∈ [Value.node loudComment, .node loudParagraph]) (· = f) := by
    refine List.forall_mem_singleton.mpr (.stream (fun v hv => ?_) fun g hg => ?_)
    · obtain rfl : v = .node loudParagraph := by simpa using hv
      exact .node (by simp)
    · simpa using hg
  exact ⟨produced_loudParagraph, typed, fun f => further _ _ (fits f), rfl, rfl,
    layouts loudParagraph paragraph "  " 1, written loudParagraph paragraph, by rfl⟩

end Hypertext
