import Hypertext.Layout

/-!
# Content and its layout

* `lines_append`: nodes are laid out one by one.
* `contentLines_eq`: the layout of content is the layout of the nodes that are built from it.
-/

namespace Hypertext.Layout

open Content

variable (indent : String) (level : Int)

/-- **Nodes are laid out one by one.** -/
theorem lines_append : ∀ a b : List Value, lines indent level (a ++ b) = do
    let x ← lines indent level a
    let y ← lines indent level b
    return x ++ y
  | [], b => by simp [lines]
  | v :: a, b => by simp [lines, lines_append a b, ← List.append_assoc]

variable {indent level} in
theorem outcome_lines_append {xs ys rows others : List Value}
    (h : (lines indent level xs).outcome = .ok rows)
    (h' : (lines indent level ys).outcome = .ok others) :
    (lines indent level (xs ++ ys)).outcome = .ok (rows ++ others) := by
  simp only [lines_append, Traced.outcome_bind, h, h']
  rfl

variable {indent level} in
theorem outcome_lines_cons {v : Value} {vs row others : List Value}
    (h : (nodeLine indent level v).outcome = .ok row)
    (h' : (lines indent level vs).outcome = .ok others) :
    (lines indent level (v :: vs)).outcome = .ok (row ++ others) := by
  simp only [lines, Traced.outcome_bind, h, h']
  rfl

/-! ## What a finished progress says -/

theorem andThen_done {p : Progress} {next : Draft → Progress} {d : Draft}
    (h : p.andThen next = .done d) : ∃ m, p = .done m ∧ next m = .done d := by
  cases p with
  | done m => exact ⟨m, rfl, h⟩
  | stopped m f => cases h

theorem within_done {p : Progress} {site : Site} {i : Nat} {d : Draft}
    (h : p.within site i = .done d) : p = .done d := by
  cases p with
  | done m => exact h
  | stopped m f => cases f <;> cases h

/-! ## Content that was built without attributes -/

/-- From `d` to `d'` nodes were added whose lines are `rows`, and no attributes came in. -/
def Adds (d d' : Draft) (rows : Traced (List Value)) : Prop :=
  d'.attributes = none ∧ ∃ ns, d'.nodes = d.nodes ++ ns ∧ rows = lines indent level ns

variable {indent level}

theorem Adds.none {d : Draft} (hd : d.attributes = .none) : Adds indent level d d (pure []) :=
  ⟨hd, [], by simp, rfl⟩

theorem Adds.nodes {d : Draft} (hd : d.attributes = .none) (ns : List Value) :
    Adds indent level d (d.add ns) (lines indent level ns) :=
  ⟨hd, ns, rfl, rfl⟩

theorem Adds.append {d m d' : Draft} {x y : Traced (List Value)} (h : Adds indent level d m x)
    (h' : Adds indent level m d' y) :
    Adds indent level d d' (do return (← x) ++ (← y)) := by
  obtain ⟨-, ns, e, rfl⟩ := h
  obtain ⟨hd, ms, e', rfl⟩ := h'
  exact ⟨hd, ns ++ ms, by rw [e', e, List.append_assoc], (lines_append indent level ns ms).symm⟩

theorem lines_ofText (s : String) : lines indent level [.ofText s] =
    pure (line indent level (.ofText (Text.reindent s indent level))) := by
  simp [lines, nodeLine, Value.ofText, shape, reindent, Traced.silent, pure, bind,
    Traced.andThen]

theorem lines_node (n : Node) : lines indent level [.node n] = do
    return line indent level (.node (← shape indent level n)) := by
  simp [lines, nodeLine]

theorem appendRecord_done {site : Site} {es : List (Value × Value)} {d d' : Draft}
    (hd : d.attributes = none) : appendRecord site es d ≠ .done d' := by
  simp [appendRecord, hd, refuse]

theorem appendRange_done {site : Site} {a b : Int} {d d' : Draft}
    (h : appendRange site a b d = .done d') : d' = d := by
  unfold appendRange refuse at h
  split at h
  · cases h
  · exact (Progress.done.inj h).symm

theorem Adds.text {d : Draft} (hd : d.attributes = .none) (s : String) :
    Adds indent level d (d.add [.ofText s])
      (pure (line indent level (.ofText (Text.reindent s indent level)))) :=
  have h := Adds.nodes hd [.ofText s]
  lines_ofText s ▸ h

theorem refuse_ne_done {d d' : Draft} {cause : BuildCause} : refuse d cause ≠ .done d' := by
  simp [refuse]

theorem Adds.node {d : Draft} (hd : d.attributes = .none) (n : Node) :
    Adds indent level d (d.add [.node n]) (do
      return line indent level (.node (← shape indent level n))) :=
  have h := Adds.nodes hd [.node n]
  lines_node n ▸ h

mutual

theorem itemLines_adds (site : Site) (i : Nat) : ∀ (v : Value) {d d' : Draft},
    d.attributes = none → appendItem site i v d = .done d' →
    Adds indent level d d' (itemLines indent level v)
  | .null, d, d', hd, h => by
    cases h
    exact .none hd
  | .str s, d, d', hd, h => by
    cases h
    exact .text hd s
  | .node (.fragment cs), d, d', hd, h => by
    cases h
    exact .nodes hd cs
  | .node (.text t), d, d', hd, h => by
    cases h
    exact .node hd (.text t)
  | .node (.comment t), d, d', hd, h => by
    cases h
    exact .node hd (.comment t)
  | .node (.raw t), d, d', hd, h => by
    cases h
    exact .node hd (.raw t)
  | .node (.doctype t), d, d', hd, h => by
    cases h
    exact .node hd (.doctype t)
  | .node (.element n a c), d, d', hd, h => by
    cases h
    exact .node hd (.element n a c)
  | .list items, d, d', hd, h => contentLines_adds site 0 items hd (within_done h)
  | .tuple items, d, d', hd, h => contentLines_adds site 0 items hd (within_done h)
  | .stream _ steps, d, d', hd, h => streamLines_adds site 0 steps hd (within_done h)
  | .range a b, d, d', hd, h => by
    rw [appendRange_done (within_done h)]
    exact .none hd
  | .record es, d, d', hd, h => absurd h (appendRecord_done hd)
  | .bool b, d, d', hd, h => absurd h refuse_ne_done
  | .int n, d, d', hd, h => absurd h refuse_ne_done
  | .float t, d, d', hd, h => absurd h refuse_ne_done
  | .bytes os, d, d', hd, h => absurd h refuse_ne_done
  | .byteArray os, d, d', hd, h => absurd h refuse_ne_done
  | .nan _, d, d', hd, h => absurd h refuse_ne_done
  | .opaqueObject _, d, d', hd, h => absurd h refuse_ne_done
  | .component _, d, d', hd, h => absurd h refuse_ne_done
  | .error _ _, d, d', hd, h => absurd h refuse_ne_done

theorem contentLines_adds (site : Site) (i : Nat) : ∀ (vs : List Value) {d d' : Draft},
    d.attributes = none → appendItems site i vs d = .done d' →
    Adds indent level d d' (contentLines indent level vs)
  | [], d, d', hd, h => by
    cases h
    exact .none hd
  | v :: rest, d, d', hd, h => by
    obtain ⟨m, h1, h2⟩ := andThen_done h
    have first := itemLines_adds site i v hd h1
    exact first.append (contentLines_adds site (i + 1) rest first.1 h2)

theorem streamLines_adds (site : Site) (i : Nat) : ∀ (steps : List Step) {d d' : Draft},
    d.attributes = none → appendSteps site i steps d = .done d' →
    Adds indent level d d' (streamLines indent level steps)
  | [], d, d', hd, h => by
    cases h
    exact .none hd
  | .item v :: rest, d, d', hd, h => by
    obtain ⟨m, h1, h2⟩ := andThen_done h
    have first := itemLines_adds site i v hd h1
    exact first.append (streamLines_adds site (i + 1) rest first.1 h2)
  | .note e :: rest, d, d', hd, h => by
    have h' : appendSteps site i rest (d.note e) = .done d' := h
    have noted : (d.note e).attributes = none := hd
    have ⟨ha, ns, added, eq⟩ := streamLines_adds site i rest noted h'
    exact ⟨ha, ns, added, eq⟩
  | .fail f :: _, d, d', hd, h => nomatch h

end

/-- **The layout of content is the layout of the nodes that are built from it.** -/
theorem contentLines_eq {content ns : List Value} (h : (nodes content).outcome = .ok ns) :
    contentLines indent level content = lines indent level ns := by
  unfold nodes at h
  cases hp : appendItems .root 0 content (.ofNodes []) with
  | stopped d f => rw [hp] at h; cases h
  | done d =>
    rw [hp] at h
    have ⟨_, ms, e, hl⟩ : Adds indent level (.ofNodes []) d (contentLines indent level content) :=
      contentLines_adds .root 0 content rfl hp
    rw [hl]
    have : d.nodes = ns := Except.ok.inj h
    rw [← this, e]
    rfl

end Hypertext.Layout
