import Hypertext.Markup
import Hypertext.Proofs.Text.Entity

/-!
# Reading markup back

A reader of the markup that `serialize_fragment` writes, as a total function on text. The library
has none; it is here to say that markup loses nothing. It goes in two passes. `lex` cuts the text
into tokens: it is a machine with a `Mode`, since inside a tag and inside an element that keeps its
text other rules hold than elsewhere. `build` puts the tokens together to nodes, on a stack of the
elements that are open. Neither looks at a tree.

* `upTo_append`: a piece of text is found in front of the first stop behind it.
* `lex_opening`, `lex_closing`, `lex_comment`, `lex_doctype`, `lex_text`, `lex_kept`: what `lex`
  makes of each kind of piece, whatever follows.
-/

namespace Hypertext.Markup

/-! ## The reader -/

/-- A piece of markup, with escapes undone. -/
inductive Token where
  | text (data : String)
  | comment (data : String)
  | doctype (name : String)
  | opening (name : String) (attributes : Attributes)
  | closing (name : String)
  deriving DecidableEq, Repr

/-- Where the reader is: between tags, inside an opening tag behind the attributes read so far, or
inside an element that keeps its text. -/
inductive Mode where
  | content
  | tag (name : String) (attributes : Attributes)
  | kept (name : String)
  deriving DecidableEq, Repr

/-- What a step gives: tokens, the mode to go on in, and the rest of the text. -/
abbrev Stepped := List Token × Mode × List Char

/-- A character of names and keys. -/
def isNameChar (c : Char) : Bool := c.isAlphanum || c = '-'

/-- The characters in front of the first `stop`, and those behind it. -/
def upTo (stop : List Char) : List Char → Option (List Char × List Char)
  | [] => none
  | c :: rest =>
    if stop.isPrefixOf (c :: rest) then some ([], (c :: rest).drop stop.length)
    else (upTo stop rest).map fun r => (c :: r.1, r.2)

/-- The mode behind an opening tag. -/
def bodyMode (name : String) : Mode := if isTextPreserving name then .kept name else .content

/-- A step between tags. -/
def contentStep : List Char → Option Stepped
  | '<' :: '!' :: '-' :: '-' :: rest => do
    let (data, rest) ← upTo "-->".toList rest
    return ([.comment (.ofList data)], .content, rest)
  | '<' :: '!' :: 'D' :: 'O' :: 'C' :: 'T' :: 'Y' :: 'P' :: 'E' :: ' ' :: rest => do
    let (name, rest) ← upTo ['>'] rest
    return ([.doctype (.ofList name)], .content, rest)
  | '<' :: '/' :: rest => do
    let (name, rest) ← upTo ['>'] rest
    return ([.closing (.ofList name)], .content, rest)
  | '<' :: rest =>
    some ([], .tag (.ofList (rest.takeWhile isNameChar)) [], rest.dropWhile isNameChar)
  | s =>
    let data := s.takeWhile (· ≠ '<')
    some ([.text (.ofList (Text.unescape Text.textPasses data))], .content, s.dropWhile (· ≠ '<'))

/-- A step inside an opening tag: the end of the tag, or one more attribute. -/
def tagStep (name : String) (a : Attributes) : List Char → Option Stepped
  | '>' :: rest => some ([.opening name a], bodyMode name, rest)
  | ' ' :: rest =>
    match rest.dropWhile isNameChar with
    | '=' :: '"' :: quoted => do
      let key := String.ofList (rest.takeWhile isNameChar)
      let (value, rest) ← upTo ['"'] quoted
      let value := String.ofList (Text.unescape Text.attributePasses value)
      return ([], .tag name (a ++ [(key, value)]), rest)
    | _ => none
  | _ => none

/-- A step inside an element that keeps its text: all of it, and the closing tag. -/
def keptStep (name : String) (s : List Char) : Option Stepped := do
  let (data, rest) ← upTo (closingTag name).toList s
  let text := if data = [] then [] else [Token.text (.ofList data)]
  return (text ++ [.closing name], .content, rest)

/-- One step of the reader. -/
def step : Mode → List Char → Option Stepped
  | .content, s => contentStep s
  | .tag name a, s => tagStep name a s
  | .kept name, s => keptStep name s

/-- The tokens of a text. Every step must get on, and the text must end between tags. -/
def lex (mode : Mode) (s : List Char) : Option (List Token) :=
  if mode = .content ∧ s = [] then some []
  else
    match step mode s with
    | none => none
    | some (ts, mode', rest) =>
      if _h : rest.length < s.length then (lex mode' rest).map (ts ++ ·) else none
termination_by s.length

/-- Attributes as a record. -/
def textRecord (a : Attributes) : Record := a.map fun e => (.str e.1, .str e.2)

/-- An element that is open, and the nodes in front of it. -/
structure Opened where
  name : String
  attributes : Attributes
  before : List Value

/-- The nodes of tokens. `nodes` are those read so far inside the innermost open element. -/
def build : List Token → List Value → List Opened → Option (List Value)
  | [], nodes, [] => some nodes
  | [], _, _ :: _ => none
  | .text data :: ts, nodes, open_ => build ts (nodes ++ [.node (.text (.str data))]) open_
  | .comment data :: ts, nodes, open_ => build ts (nodes ++ [.node (.comment (.str data))]) open_
  | .doctype name :: ts, nodes, open_ => build ts (nodes ++ [.node (.doctype (.str name))]) open_
  | .opening name a :: ts, nodes, open_ =>
    if isVoid name then
      build ts (nodes ++ [.node (.element (.str name) (textRecord a) [])]) open_
    else build ts [] (⟨name, a, nodes⟩ :: open_)
  | .closing name :: ts, nodes, o :: open_ =>
    if name = o.name then
      build ts (o.before ++ [.node (.element (.str o.name) (textRecord o.attributes) nodes)]) open_
    else none
  | .closing _ :: _, _, [] => none

/-- The nodes that a text stands for. -/
def read (s : String) : Option (List Value) := (lex .content s.toList).bind (build · [] [])

/-! ## Runs of characters -/

/-- The characters do not go on a run of `p`. -/
def Stops (p : Char → Bool) (rest : List Char) : Prop := ∀ c, rest.head? = some c → p c = false

theorem stops_cons {p : Char → Bool} {c : Char} (h : p c = false) (rest : List Char) :
    Stops p (c :: rest) := by
  rintro x ⟨⟩
  exact h

theorem Stops.append {p : Char → Bool} {piece rest : List Char} (hp : Stops p piece)
    (hr : Stops p rest) : Stops p (piece ++ rest) := by
  cases piece with
  | nil => exact hr
  | cons c _ => exact stops_cons (hp c rfl) _

variable {p : Char → Bool} {piece rest : List Char}

theorem takeWhile_run (h : ∀ c ∈ piece, p c = true) (hr : Stops p rest) :
    (piece ++ rest).takeWhile p = piece := by
  rw [List.takeWhile_append_of_pos h]
  cases rest with
  | nil => simp
  | cons c _ => simp [hr c rfl]

theorem dropWhile_run (h : ∀ c ∈ piece, p c = true) (hr : Stops p rest) :
    (piece ++ rest).dropWhile p = rest := by
  rw [List.dropWhile_append_of_pos h]
  cases rest with
  | nil => rfl
  | cons c _ => simp [hr c rfl]

/-- No proper beginning is an end. -/
def Borderless (stop : List Char) : Prop :=
  ∀ k, k <+: stop → k <:+ stop → k = [] ∨ k = stop

theorem borderless_of_head {c : Char} {tail : List Char} (h : c ∉ tail) :
    Borderless (c :: tail) := by
  intro k hpre hsuf
  rcases List.suffix_cons_iff.mp hsuf with rfl | hsuf
  · exact .inr rfl
  · rcases List.prefix_cons_iff.mp hpre with rfl | ⟨k, rfl, -⟩
    · exact .inl rfl
    · exact absurd (hsuf.subset List.mem_cons_self) h

theorem borderless_comment : Borderless "-->".toList := by
  intro k hpre hsuf
  rcases List.suffix_cons_iff.mp hsuf with rfl | hsuf
  · exact .inr rfl
  rcases List.suffix_cons_iff.mp hsuf with rfl | hsuf
  · exact absurd hpre (by decide)
  rcases List.suffix_cons_iff.mp hsuf with rfl | hsuf
  · exact absurd hpre (by decide)
  · exact .inl (List.suffix_nil.mp hsuf)

/-- **A piece ends where the first stop behind it begins**, if no stop stands in the piece. -/
theorem upTo_append {stop : List Char} (hb : Borderless stop) (hne : stop ≠ []) :
    ∀ {piece : List Char}, ¬ stop <:+: piece → ∀ rest : List Char,
      upTo stop (piece ++ (stop ++ rest)) = some (piece, rest)
  | [], _, rest => by
    obtain ⟨c, tail, rfl⟩ := List.exists_cons_of_ne_nil hne
    have here : (c :: tail).isPrefixOf (c :: (tail ++ rest)) = true :=
      List.isPrefixOf_iff_prefix.mpr (List.prefix_append _ _)
    rw [List.nil_append, List.cons_append, upTo, if_pos here, ← List.cons_append,
      List.drop_left]
  | c :: piece, h, rest => by
    have later : stop.isPrefixOf (c :: (piece ++ (stop ++ rest))) = false := by
      rw [Bool.eq_false_iff, ne_eq, List.isPrefixOf_iff_prefix, ← List.cons_append]
      intro here
      -- A stop that begins in the piece and ends behind it overlaps with the one there.
      rcases List.prefix_or_prefix_of_prefix here (List.prefix_append _ _) with hin | ⟨k, hk⟩
      · exact h hin.isInfix
      · rw [← hk, List.prefix_append_right_inj, hk] at here
        have hpre : k <+: stop := List.prefix_of_prefix_length_le here (List.prefix_append _ _)
          (by rw [← hk, List.length_append]; omega)
        rcases hb k hpre ⟨_, hk⟩ with rfl | rfl
        · rw [List.append_nil] at hk
          exact h (hk ▸ List.infix_rfl)
        · have := congrArg List.length hk
          rw [List.length_append, List.length_cons] at this
          omega
    have hrest : ¬ stop <:+: piece := fun hi => h (hi.trans (List.suffix_cons c piece).isInfix)
    rw [List.cons_append, upTo, if_neg (by rw [later]; exact Bool.false_ne_true),
      upTo_append hb hne hrest rest]
    rfl

theorem upTo_char {c : Char} {piece : List Char} (h : c ∉ piece) (rest : List Char) :
    upTo [c] (piece ++ c :: rest) = some (piece, rest) :=
  upTo_append (borderless_of_head List.not_mem_nil) (List.cons_ne_nil c [])
    (fun hi => h (hi.subset List.mem_cons_self)) rest

/-! ## Tokens -/

theorem lex_nil : lex .content [] = some [] := by
  rw [lex, if_pos ⟨rfl, rfl⟩]

theorem lex_step {mode mode' : Mode} {s rest : List Char} {ts : List Token}
    (h : step mode s = some (ts, mode', rest)) (hlt : rest.length < s.length) :
    lex mode s = (lex mode' rest).map (ts ++ ·) := by
  have hne : ¬(mode = .content ∧ s = []) := by
    rintro ⟨-, rfl⟩
    exact Nat.not_lt_zero _ hlt
  rw [lex, if_neg hne, h]
  exact dif_pos hlt

theorem map_append_map (ts us : List Token) (o : Option (List Token)) :
    (o.map (us ++ ·)).map (ts ++ ·) = o.map ((ts ++ us) ++ ·) := by
  cases o with
  | none => rfl
  | some _ => simp

theorem lex_comment {data : String} (h : ¬ "-->".toList <:+: data.toList) (rest : List Char) :
    lex .content (("<!--" ++ data ++ "-->").toList ++ rest) =
      (lex .content rest).map ([.comment data] ++ ·) := by
  apply lex_step
  · simp only [String.toList_append, List.append_assoc]
    show contentStep ('<' :: '!' :: '-' :: '-' :: (data.toList ++ ("-->".toList ++ rest))) = _
    rw [contentStep, upTo_append borderless_comment (by decide) h]
    simp
  · simp only [String.toList_append, List.length_append]
    have : 0 < "<!--".toList.length := by decide
    omega

theorem lex_doctype {name : String} (h : '>' ∉ name.toList) (rest : List Char) :
    lex .content (("<!DOCTYPE " ++ name ++ ">").toList ++ rest) =
      (lex .content rest).map ([.doctype name] ++ ·) := by
  apply lex_step
  · simp only [String.toList_append, List.append_assoc]
    show contentStep ('<' :: '!' :: 'D' :: 'O' :: 'C' :: 'T' :: 'Y' :: 'P' :: 'E' :: ' ' ::
      (name.toList ++ '>' :: rest)) = _
    rw [contentStep, upTo_char h]
    simp
  · simp only [String.toList_append, List.length_append]
    have : 0 < "<!DOCTYPE ".toList.length := by decide
    omega

theorem lex_closing {name : String} (h : '>' ∉ name.toList) (rest : List Char) :
    lex .content ((closingTag name).toList ++ rest) =
      (lex .content rest).map ([.closing name] ++ ·) := by
  unfold closingTag
  apply lex_step
  · simp only [String.toList_append, List.append_assoc]
    show contentStep ('<' :: '/' :: (name.toList ++ '>' :: rest)) = _
    rw [contentStep, upTo_char h]
    simp
  · simp only [String.toList_append, List.length_append]
    have : 0 < "</".toList.length := by decide
    omega

theorem lex_kept {name : String} {data : String} (h : ¬ ("</" ++ name).toList <:+: data.toList)
    (hn : '<' ∉ name.toList) (rest : List Char) :
    lex (.kept name) (data.toList ++ ((closingTag name).toList ++ rest)) =
      (lex .content rest).map
        (((if data = "" then [] else [Token.text data]) ++ [.closing name]) ++ ·) := by
  have stop : (closingTag name).toList = '<' :: '/' :: (name.toList ++ ['>']) := by
    simp [closingTag]
  have hb : Borderless (closingTag name).toList := by
    rw [stop]
    exact borderless_of_head (by simp [hn])
  have hin : ¬ (closingTag name).toList <:+: data.toList := by
    intro hi
    rw [closingTag, String.toList_append] at hi
    exact h ((List.prefix_append _ _).isInfix.trans hi)
  apply lex_step
  · show keptStep name _ = _
    rw [keptStep, upTo_append hb (by rw [stop]; exact List.cons_ne_nil _ _) hin]
    simp
  · rw [List.length_append, List.length_append, stop, List.length_cons]
    omega

theorem contentStep_text {s : List Char} (h : ∀ c, s.head? = some c → c ≠ '<') :
    contentStep s = some ([.text (.ofList (Text.unescape Text.textPasses
      (s.takeWhile (· ≠ '<'))))], .content, s.dropWhile (· ≠ '<')) := by
  cases s with
  | nil => rfl
  | cons c rest =>
    have hc := h c rfl
    unfold contentStep
    simp [hc]

theorem lex_text {data : String} (h : data ≠ "") {rest : List Char}
    (hr : Stops (· ≠ '<') rest) :
    lex .content ((Text.escapeText data).toList ++ rest) =
      (lex .content rest).map ([.text data] ++ ·) := by
  have inside : ∀ c ∈ (Text.escapeText data).toList, decide (c ≠ '<') = true := by
    rintro c hc
    rw [Text.toList_escapeText] at hc
    refine decide_eq_true fun e => ?_
    exact Text.not_mem_substitute (by decide) (by decide) data.toList (e ▸ hc)
  obtain ⟨c, tail, hs⟩ : ∃ c tail, (Text.escapeText data).toList = c :: tail := by
    refine List.exists_cons_of_ne_nil fun e => h ?_
    have := congrArg (Text.unescape Text.textPasses) e
    rw [Text.toList_escapeText, Text.unescape_substitute Text.coded_textPasses,
      Text.unescape] at this
    exact String.toList_eq_nil_iff.mp this
  have hc : c ≠ '<' := of_decide_eq_true (inside c (by rw [hs]; exact List.mem_cons_self))
  apply lex_step
  · rw [step, contentStep_text (by rw [hs]; rintro x ⟨⟩; exact hc), takeWhile_run inside hr,
      dropWhile_run inside hr, Text.toList_escapeText,
      Text.unescape_substitute Text.coded_textPasses, String.ofList_toList]
  · rw [hs, List.length_append, List.length_cons]
    omega

/-! ## Opening tags -/

/-- Letters of names and keys, and at least one. -/
def IsKey (s : String) : Prop := s ≠ "" ∧ ∀ c ∈ s.toList, isNameChar c = true

/-- A letter, then letters, digits and hyphens. -/
def IsName (s : String) : Prop :=
  ∃ c rest, s.toList = c :: rest ∧ c.isAlpha = true ∧ ∀ x ∈ rest, isNameChar x = true

theorem toList_writeAttributes_cons (key value : String) (a : Attributes) :
    (writeAttributes ((key, value) :: a)).toList =
      ' ' :: (key.toList ++ '=' :: '"' :: ((Text.escapeAttribute value).toList ++
        '"' :: (writeAttributes a).toList)) := by
  simp [writeAttributes, String.join_cons]

theorem step_attribute (name : String) {key : String}
    (h : ∀ c ∈ key.toList, isNameChar c = true)
    (before : Attributes) (value : String) (rest : List Char) :
    step (.tag name before) (' ' :: (key.toList ++ '=' :: '"' ::
      ((Text.escapeAttribute value).toList ++ '"' :: rest))) =
      some ([], .tag name (before ++ [(key, value)]), rest) := by
  have quoted : '"' ∉ (Text.escapeAttribute value).toList := by
    rw [Text.toList_escapeAttribute]
    exact Text.not_mem_substitute (by decide) (by decide) value.toList
  have stops := stops_cons (p := isNameChar) (c := '=') (by decide)
    ('"' :: ((Text.escapeAttribute value).toList ++ '"' :: rest))
  have hback : Text.unescape Text.attributePasses (Text.escapeAttribute value).toList =
      value.toList := by
    rw [Text.toList_escapeAttribute, Text.unescape_substitute Text.coded_attributePasses]
  rw [step, tagStep, dropWhile_run h stops, takeWhile_run h stops]
  simp only [upTo_char quoted, Option.bind_eq_bind, Option.bind_some, hback,
    String.ofList_toList]
  rfl

/-- **The attributes and the end of an opening tag**, behind those read before. -/
theorem lex_tag (name : String) : ∀ {a : Attributes},
    (∀ e ∈ a, ∀ c ∈ e.1.toList, isNameChar c = true) → ∀ (before : Attributes) (rest : List Char),
    lex (.tag name before) ((writeAttributes a).toList ++ '>' :: rest) =
      (lex (bodyMode name) rest).map ([.opening name (before ++ a)] ++ ·)
  | [], _, before, rest => by
    rw [List.append_nil]
    exact lex_step rfl (Nat.lt_add_one _)
  | (key, value) :: a, h, before, rest => by
    have hstep := step_attribute name (h (key, value) List.mem_cons_self) before value
      ((writeAttributes a).toList ++ '>' :: rest)
    have ih := lex_tag name (fun e he => h e (List.mem_cons_of_mem _ he))
      (before ++ [(key, value)]) rest
    rw [toList_writeAttributes_cons]
    simp only [List.cons_append, List.append_assoc]
    rw [lex_step hstep (by simp only [List.length_append, List.length_cons]; omega), ih,
      map_append_map, List.append_assoc]
    rfl

theorem IsName.isNameChar_of_mem {name : String} (h : IsName name) :
    ∀ c ∈ name.toList, isNameChar c = true := by
  obtain ⟨first, tail, hs, hfirst, htail⟩ := h
  rw [hs]
  rintro c hc
  rcases List.mem_cons.mp hc with rfl | hc
  · simp [isNameChar, Char.isAlphanum, hfirst]
  · exact htail c hc

theorem IsName.not_mem {name : String} (h : IsName name) {c : Char} (hc : isNameChar c = false) :
    c ∉ name.toList := by
  intro hm
  rw [h.isNameChar_of_mem c hm] at hc
  cases hc

theorem contentStep_opening {name : String} (h : IsName name) {rest : List Char}
    (hr : Stops isNameChar rest) :
    contentStep ('<' :: (name.toList ++ rest)) = some ([], .tag name [], rest) := by
  have inside := h.isNameChar_of_mem
  obtain ⟨c, tail, hs, hc, -⟩ := h
  have bang : c ≠ '!' := by
    rintro rfl
    exact absurd hc (by decide)
  have slash : c ≠ '/' := by
    rintro rfl
    exact absurd hc (by decide)
  have hstep : contentStep ('<' :: (name.toList ++ rest)) =
      some ([], .tag (.ofList ((name.toList ++ rest).takeWhile isNameChar)) [],
        (name.toList ++ rest).dropWhile isNameChar) := by
    rw [hs, List.cons_append]
    unfold contentStep
    simp [bang, slash]
  rw [hstep, takeWhile_run inside hr, dropWhile_run inside hr, String.ofList_toList]

theorem stops_writeAttributes (a : Attributes) (rest : List Char) :
    Stops isNameChar ((writeAttributes a).toList ++ '>' :: rest) := by
  cases a with
  | nil => exact stops_cons (by decide) rest
  | cons e a =>
    rw [toList_writeAttributes_cons]
    exact stops_cons (by decide) _

theorem lex_opening {name : String} (hn : IsName name) {a : Attributes}
    (ha : ∀ e ∈ a, ∀ c ∈ e.1.toList, isNameChar c = true) (rest : List Char) :
    lex .content ((openingTag name a).toList ++ rest) =
      (lex (bodyMode name) rest).map ([.opening name a] ++ ·) := by
  have split : (openingTag name a).toList ++ rest =
      '<' :: (name.toList ++ ((writeAttributes a).toList ++ '>' :: rest)) := by
    simp [openingTag]
  have hstep : step .content ('<' :: (name.toList ++ ((writeAttributes a).toList ++ '>' :: rest))) =
      some ([], .tag name [], (writeAttributes a).toList ++ '>' :: rest) :=
    contentStep_opening hn (stops_writeAttributes a rest)
  rw [split, lex_step hstep (by simp only [List.length_append, List.length_cons]; omega),
    lex_tag name ha, map_append_map]
  rfl

end Hypertext.Markup
