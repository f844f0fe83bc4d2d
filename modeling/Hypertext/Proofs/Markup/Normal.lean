import Hypertext.Proofs.Markup.WellTyped

/-!
# The normal form of a tree

Trees that differ only in how their content is cut up are written alike. The normal form of a tree
has no fragment inside it, nothing in a void element, and, wherever text is escaped, no empty text
and no two texts side by side. Inside an element that keeps its text, texts stay as they are cut:
each is checked on its own there, and two harmless ones can make a bad one.

* `Node.normal` is the normal form; `NormalRoot` says what it is to be one, without it.
* `writeAll_mergeTexts`: where text is escaped, adjacent texts can be written as one.
* `writeAll_normalPieces`: the pieces that a value comes to are written as the value is, below any
  parent. The induction is on the well-typed tree, and the parent goes through fragments unchanged.
* **`write_normal`**: a well-typed tree and its normal form are written alike, or fail alike.
-/

namespace Hypertext

namespace Markup

/-! ## Merging texts -/

/-- A text in front of values: it joins a text that stands there, and is left out if it is empty. -/
def joinText (s : String) : List Value → List Value
  | .node (.text (.str t)) :: rest => .ofText (s ++ t) :: rest
  | rest => if s = "" then rest else .ofText s :: rest

/-- Runs of texts become one text each, empty texts vanish. -/
def mergeTexts : List Value → List Value
  | [] => []
  | .node (.text (.str s)) :: rest => joinText s (mergeTexts rest)
  | v :: rest => v :: mergeTexts rest

/-- What an element holds in normal form, given its children one by one. -/
def normalContent (name : String) (pieces : List Value) : List Value :=
  if isVoid name then [] else if isTextPreserving name then pieces else mergeTexts pieces

end Markup

open Markup

mutual

/-- The normal form of a node. -/
def Node.normal : Node → Node
  | .element (.str name) a children =>
    .element (.str name) a (normalContent name (normalAll children))
  | .fragment children => .fragment (mergeTexts (normalAll children))
  | n => n

/-- The nodes in normal form that a child comes to: a fragment comes to those of its children. -/
def Value.normalPieces : Value → List Value
  | .node (.fragment children) => normalAll children
  | .node n => [.node n.normal]
  | v => [v]

/-- The nodes in normal form that children come to, one after another. -/
def normalAll : List Value → List Value
  | [] => []
  | v :: rest => v.normalPieces ++ normalAll rest

end

namespace Markup

/-! ## What normal is -/

/-- No text is empty, and no two texts stand side by side. -/
inductive Tidy : List Value → Prop
  | nil : Tidy []
  | cons {v : Value} {rest : List Value} (nonempty : v ≠ .ofText "")
      (apart : beginsWithText [v] = true → beginsWithText rest = false) (h : Tidy rest) :
      Tidy (v :: rest)

/-- A node in normal form, as it stands inside a tree: there are no fragments. -/
inductive Normal : Value → Prop
  | text (data : String) : Normal (.node (.text (.str data)))
  | comment (data : String) : Normal (.node (.comment (.str data)))
  | raw (data : String) : Normal (.node (.raw (.str data)))
  | doctype (name : String) : Normal (.node (.doctype (.str name)))
  | element {name : String} (a : Record) {children : List Value}
      (hv : isVoid name = true → children = [])
      (ht : isTextPreserving name = false → Tidy children) (hc : ∀ v ∈ children, Normal v) :
      Normal (.node (.element (.str name) a children))

/-- A tree in normal form: a fragment at the top holds nodes in normal form. -/
inductive NormalRoot : Node → Prop
  | node {n : Node} (h : Normal (.node n)) : NormalRoot n
  | fragment {children : List Value} (ht : Tidy children) (hc : ∀ v ∈ children, Normal v) :
      NormalRoot (.fragment children)

/-! ## Texts side by side are written as one -/

variable {parent : Option String}

theorem write_ofText (hp : EscapesText parent) (s : String) :
    (Value.ofText s).write parent = .ok (Text.escapeText s) :=
  writeText_of_escapesText hp s

theorem writeAll_joinText (hp : EscapesText parent) (s : String) (vs : List Value) :
    writeAll parent (joinText s vs) = .ok (Text.escapeText s) ++ writeAll parent vs := by
  unfold joinText
  split
  · rename_i t rest
    have joined := write_ofText hp (s ++ t)
    have second := write_ofText hp t
    rw [writeAll_cons, joined, Text.escapeText_append, ← ok_append_ok, append_assoc, ← second]
    rfl
  · by_cases hs : s = ""
    · rw [if_pos hs, hs]
      exact (ok_empty_append _).symm
    · rw [if_neg hs, writeAll_cons, write_ofText hp]

/-- **Where text is escaped, merging texts changes nothing of what is written.** -/
theorem writeAll_mergeTexts (hp : EscapesText parent) (vs : List Value) :
    writeAll parent (mergeTexts vs) = writeAll parent vs := by
  induction vs using mergeTexts.induct with
  | case1 => rfl
  | case2 s rest ih =>
    rw [mergeTexts, writeAll_joinText hp, ih, writeAll_cons]
    exact congrArg (· ++ _) (write_ofText hp s).symm
  | case3 v rest hv ih =>
    rw [mergeTexts, writeAll_cons, ih, writeAll_cons]
    exact hv

/-! ## A tree and its normal form are written alike -/

theorem writeAll_normalAll {vs : List Value}
    (h : ∀ v ∈ vs, writeAll parent v.normalPieces = v.write parent) :
    writeAll parent (normalAll vs) = writeAll parent vs := by
  induction vs with
  | nil => rfl
  | cons v vs ih =>
    rw [List.forall_mem_cons] at h
    rw [normalAll, writeAll_append, h.1, ih h.2, writeAll_cons]

/-- What an element holds can be written in normal form, unless the element is void. -/
theorem writeAll_normalContent {name : String} (hv : ¬ isVoid name = true) (pieces : List Value) :
    writeAll (some name) (normalContent name pieces) = writeAll (some name) pieces := by
  unfold normalContent
  rw [if_neg hv]
  by_cases hk : isTextPreserving name = true
  · rw [if_pos hk]
  · rw [if_neg hk]
    exact writeAll_mergeTexts (escapesText_some (by simpa using hk)) pieces

/-- **The pieces of a value are written as the value is**, below any parent. -/
theorem writeAll_normalPieces {v : Value} (h : v.WellTyped) (parent : Option String) :
    writeAll parent v.normalPieces = v.write parent := by
  induction h generalizing parent with
  | text data => exact writeAll_singleton _
  | comment data => exact writeAll_singleton _
  | raw data => exact writeAll_singleton _
  | doctype name => exact writeAll_singleton _
  | @element name a children ha _ ih =>
    have inner := writeAll_normalAll fun u hu => ih u hu (some name)
    obtain ⟨texts, ht⟩ := ha.exists_textAttributes
    rw [Value.normalPieces, writeAll_singleton, Node.normal, Value.write, Value.write,
      write_element_eq ht, write_element_eq ht]
    · by_cases hv : isVoid name = true
      · rw [if_pos hv, if_pos hv]
      · rw [if_neg hv, if_neg hv, writeAll_normalContent hv, inner]
    · simp
  | fragment _ ih =>
    rw [Value.normalPieces, Value.write, Node.write]
    exact writeAll_normalAll fun u hu => ih u hu parent

/-! ## The normal form is normal -/

theorem ofText_inj {s t : String} : Value.ofText s = .ofText t ↔ s = t := by
  simp [Value.ofText]

theorem Normal.beginsWithText_eq_false {v : Value} (h : Normal v)
    (ht : ∀ s, v ≠ .node (.text (.str s))) : beginsWithText [v] = false := by
  cases h with
  | text data => exact absurd rfl (ht data)
  | comment | raw | doctype | element => rfl

/-- A text does not begin what a text cannot join. -/
theorem beginsWithText_eq_false {vs : List Value} (hn : ∀ v ∈ vs, Normal v)
    (hs : ∀ s rest, vs ≠ .node (.text (.str s)) :: rest) : beginsWithText vs = false := by
  cases vs with
  | nil => rfl
  | cons v rest =>
    have hv : Normal v := hn v List.mem_cons_self
    have := hv.beginsWithText_eq_false fun s e => hs s rest (by rw [e])
    cases v <;> exact this

theorem mem_joinText {s : String} {vs : List Value} {v : Value} (h : v ∈ joinText s vs) :
    v ∈ vs ∨ ∃ t, v = .ofText t := by
  unfold joinText at h
  split at h
  · rename_i t rest
    rcases List.mem_cons.mp h with rfl | h
    · exact .inr ⟨s ++ t, rfl⟩
    · exact .inl (List.mem_cons_of_mem _ h)
  · split at h
    · exact .inl h
    · rcases List.mem_cons.mp h with rfl | h
      · exact .inr ⟨s, rfl⟩
      · exact .inl h

theorem normal_joinText {s : String} {vs : List Value} (h : ∀ v ∈ vs, Normal v) :
    ∀ v ∈ joinText s vs, Normal v := by
  intro v hv
  rcases mem_joinText hv with hm | ⟨t, rfl⟩
  · exact h v hm
  · exact .text t

theorem normal_mergeTexts {vs : List Value} (h : ∀ v ∈ vs, Normal v) :
    ∀ v ∈ mergeTexts vs, Normal v := by
  induction vs using mergeTexts.induct with
  | case1 => exact h
  | case2 s rest ih =>
    rw [mergeTexts]
    rw [List.forall_mem_cons] at h
    exact normal_joinText (ih h.2)
  | case3 v rest hv ih =>
    rw [List.forall_mem_cons] at h
    rw [mergeTexts, List.forall_mem_cons]
    · exact ⟨h.1, ih h.2⟩
    · exact hv

theorem tidy_joinText {s : String} {vs : List Value} (hn : ∀ v ∈ vs, Normal v) (ht : Tidy vs) :
    Tidy (joinText s vs) := by
  unfold joinText
  split
  · cases ht with
    | cons nonempty apart h =>
      refine .cons (fun e => nonempty ?_) apart h
      obtain ⟨-, rfl⟩ := String.append_eq_empty_iff.mp (ofText_inj.mp e)
      rfl
  · rename_i hs
    by_cases he : s = ""
    · rw [if_pos he]
      exact ht
    · rw [if_neg he]
      have plain := beginsWithText_eq_false hn fun t rest e => hs t rest e
      exact .cons (fun e => he (ofText_inj.mp e)) (fun _ => plain) ht

theorem tidy_mergeTexts {vs : List Value} (h : ∀ v ∈ vs, Normal v) : Tidy (mergeTexts vs) := by
  induction vs using mergeTexts.induct with
  | case1 => exact .nil
  | case2 s rest ih =>
    rw [List.forall_mem_cons] at h
    rw [mergeTexts]
    exact tidy_joinText (normal_mergeTexts h.2) (ih h.2)
  | case3 v rest hv ih =>
    rw [List.forall_mem_cons] at h
    rw [mergeTexts]
    · have plain := h.1.beginsWithText_eq_false hv
      exact .cons (fun e => hv "" e) (fun ht => absurd ht (by simp [plain])) (ih h.2)
    · exact hv

theorem normal_normalAll {vs : List Value} (h : ∀ v ∈ vs, ∀ u ∈ v.normalPieces, Normal u) :
    ∀ u ∈ normalAll vs, Normal u := by
  induction vs with
  | nil => exact List.forall_mem_nil _
  | cons v vs ih =>
    rw [List.forall_mem_cons] at h
    rw [normalAll, List.forall_mem_append]
    exact ⟨h.1, ih h.2⟩

/-- What an element holds in normal form: nothing if it is void, and else nodes in normal form,
which are tidy unless the element keeps its text. -/
theorem normal_normalContent (name : String) (a : Record) {pieces : List Value}
    (h : ∀ v ∈ pieces, Normal v) :
    Normal (.node (.element (.str name) a (normalContent name pieces))) := by
  unfold normalContent
  by_cases hv : isVoid name = true
  · rw [if_pos hv]
    exact .element a (fun _ => rfl) (fun _ => .nil) (List.forall_mem_nil _)
  · rw [if_neg hv]
    by_cases hk : isTextPreserving name = true
    · rw [if_pos hk]
      exact .element a (fun e => absurd e hv) (fun e => absurd hk (by simp [e])) h
    · rw [if_neg hk]
      exact .element a (fun e => absurd e hv) (fun _ => tidy_mergeTexts h) (normal_mergeTexts h)

/-- **The pieces of a well-typed value are in normal form.** -/
theorem normal_normalPieces {v : Value} (h : v.WellTyped) : ∀ u ∈ v.normalPieces, Normal u := by
  induction h with
  | text data => exact List.forall_mem_singleton.mpr (.text data)
  | comment data => exact List.forall_mem_singleton.mpr (.comment data)
  | raw data => exact List.forall_mem_singleton.mpr (.raw data)
  | doctype name => exact List.forall_mem_singleton.mpr (.doctype name)
  | @element name a children _ _ ih =>
    rw [Value.normalPieces, Node.normal]
    · exact List.forall_mem_singleton.mpr (normal_normalContent name a (normal_normalAll ih))
    · simp
  | fragment _ ih => exact normal_normalAll ih

theorem normalRoot_normal {n : Node} (h : n.WellTyped) : NormalRoot n.normal := by
  have pieces := normal_normalPieces h
  cases h with
  | fragment hc =>
    exact .fragment (tidy_mergeTexts pieces) (normal_mergeTexts pieces)
  | text | comment | raw | doctype | element =>
    exact .node (pieces _ List.mem_cons_self)

/-! ## Normal trees are left alone -/

theorem mergeTexts_of_tidy {vs : List Value} (h : Tidy vs) : mergeTexts vs = vs := by
  induction h with
  | nil => rfl
  | @cons v rest nonempty apart _ ih =>
    by_cases hv : ∃ s, v = .node (.text (.str s))
    · obtain ⟨s, rfl⟩ := hv
      rw [mergeTexts, ih]
      unfold joinText
      split
      · exact absurd (apart rfl) (by simp [beginsWithText, isText])
      · rw [if_neg fun e => nonempty (ofText_inj.mpr e)]
        rfl
    · rw [mergeTexts, ih]
      exact fun s e => hv ⟨s, e⟩

theorem normalAll_eq_self {vs : List Value} (h : ∀ v ∈ vs, v.normalPieces = [v]) :
    normalAll vs = vs := by
  induction vs with
  | nil => rfl
  | cons v vs ih =>
    rw [List.forall_mem_cons] at h
    rw [normalAll, h.1, ih h.2, List.singleton_append]

theorem normalPieces_of_normal {v : Value} (h : Normal v) : v.normalPieces = [v] := by
  induction h with
  | text | comment | raw | doctype => rfl
  | @element name a children hv ht _ ih =>
    have content : normalContent name (normalAll children) = children := by
      rw [normalAll_eq_self ih]
      unfold normalContent
      by_cases hv' : isVoid name = true
      · rw [if_pos hv', hv hv']
      · rw [if_neg hv']
        by_cases hk : isTextPreserving name = true
        · rw [if_pos hk]
        · rw [if_neg hk, mergeTexts_of_tidy (ht (by simpa using hk))]
    rw [Value.normalPieces, Node.normal, content]
    simp

/-- **A tree in normal form is its own normal form.** -/
theorem normal_of_normalRoot {n : Node} (h : NormalRoot n) : n.normal = n := by
  cases h with
  | fragment ht hc =>
    rw [Node.normal, normalAll_eq_self fun v hv => normalPieces_of_normal (hc v hv),
      mergeTexts_of_tidy ht]
  | node h =>
    have := normalPieces_of_normal h
    cases h with
    | text | comment | raw | doctype => rfl
    | element =>
      rw [Value.normalPieces] at this
      · injection this with this
        injection this
      · simp

/-! ## Writing factors through the normal form -/

/-- **A well-typed tree is written as its normal form is**: to the same markup, or with the same
fault. The normal form is normal, and a tree that is normal already is its own normal form. -/
theorem write_normal {n : Node} (h : n.WellTyped) :
    n.normal.markup = n.markup ∧ NormalRoot n.normal ∧ (NormalRoot n → n.normal = n) := by
  refine ⟨?_, normalRoot_normal h, normal_of_normalRoot⟩
  have pieces := writeAll_normalPieces h none
  cases h with
  | fragment hc =>
    rw [Node.normal, Node.markup, Node.write, writeAll_mergeTexts escapesText_none]
    exact pieces
  | text | comment | raw | doctype => rfl
  | element =>
    rw [Value.normalPieces, writeAll_singleton] at pieces
    · exact pieces
    · simp

/-- Texts that a fragment brings side by side, a void element with a bad comment in it, and two
harmless texts that would make a bad one together. -/
def scatteredTree : Node :=
  .fragment
    [.ofText "a", .node (.fragment [.ofText "", .node (.fragment [.ofText "<b"])]),
     .node (.element (.str "br") [(.str "id", .str "x")] [.node (.comment (.str "-->"))]),
     .node (.element (.str "script") []
       [.ofText "<!", .node (.fragment [.ofText "--", .ofText ""])])]

/-- The same tree in normal form. -/
def gatheredTree : Node :=
  .fragment
    [.ofText "a<b", .node (.element (.str "br") [(.str "id", .str "x")] []),
     .node (.element (.str "script") [] [.ofText "<!", .ofText "--", .ofText ""])]

theorem write_normal_scattered : scatteredTree.WellTyped ∧ scatteredTree.normal = gatheredTree ∧
    gatheredTree.markup = scatteredTree.markup ∧
    scatteredTree.markup.toOption = some "a&lt;b<br id=\"x\"><script><!--</script>" := by
  have typed : scatteredTree.WellTyped := by decide +kernel
  have gathered : scatteredTree.normal = gatheredTree := by rfl
  have written := (write_normal typed).1
  rw [gathered] at written
  exact ⟨typed, gathered, written, by decide +kernel⟩

end Markup

end Hypertext
