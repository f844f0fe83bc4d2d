import Mathlib.Data.List.ModifyLast
import Hypertext.Proofs.Content.Run

/-!
# Content behind other content

Content is built item by item, so what stands in front of it shows in two ways only: the nodes in
front come first, and positions at the top count the items in front. `Draft.behind` and
`Fault.later` say this of what is built and of what goes wrong.

* `appendItems_later`, `appendItems_behind`: adding items at a later position, and to a draft in
  which there is something already.
* `nodes_append`: content behind other content at the root.
-/

namespace Hypertext

/-! ## Later positions -/

/-- The same frame when `k` more items stand in front. -/
def Frame.later (k : Nat) (f : Frame) : Frame := { f with index := f.index + k }

/-- The same fault when `k` more items stand in front at the top: only the outermost frame counts
these. -/
def Fault.later (k : Nat) : Fault → Fault
  | .build e => .build { e with trail := e.trail.modifyLast (Frame.later k) }
  | f => f

/-- The same progress when `k` more items stand in front at the top. -/
def Progress.later (k : Nat) : Progress → Progress
  | done d => done d
  | stopped d f => stopped d (f.later k)

theorem Progress.within_later (site : Site) (i k : Nat) (p : Progress) :
    p.within site (i + k) = (p.within site i).later k := by
  cases p with
  | done d => rfl
  | stopped d f =>
    cases f with
    | build e =>
      simp only [within, later, Fault.later, BuildError.within, List.modifyLast_concat, Frame.later,
        Int.natCast_add]
    | _ => rfl

namespace Content

theorem appendItem_later (site : Site) (i k : Nat) (v : Value) (d : Draft) :
    appendItem site (i + k) v d = (appendItem site i v d).later k := by
  cases v with
  | list _ | tuple _ | stream _ _ | range _ _ => exact Progress.within_later site i k _
  | _ =>
    rw [appendItem_leaf rfl, appendItem_leaf rfl]
    cases refusal? site d.room _ <;> rfl

theorem appendItems_later (site : Site) (k : Nat) : ∀ (i : Nat) (vs : List Value) (d : Draft),
    appendItems site (i + k) vs d = (appendItems site i vs d).later k
  | _, [], _ => rfl
  | i, v :: rest, d => by
    rw [appendItems, appendItems, appendItem_later, Nat.add_right_comm]
    cases appendItem site i v d with
    | done m => exact appendItems_later site k (i + 1) rest m
    | stopped m f => rfl

theorem appendItems_append (site : Site) (ys : List Value) : ∀ (i : Nat) (xs : List Value)
    (d : Draft), appendItems site i (xs ++ ys) d =
      (appendItems site i xs d).andThen (appendItems site (i + xs.length) ys)
  | _, [], _ => rfl
  | i, x :: xs, d => by
    rw [List.cons_append, appendItems, appendItems, Progress.andThen_assoc, List.length_cons,
      Nat.add_comm xs.length, ← Nat.add_assoc]
    congr 1
    funext m
    exact appendItems_append site ys (i + 1) xs m

end Content

/-! ## Drafts with something in them -/

/-- The draft `d` behind what `front` has collected. The attributes are those of `d`. -/
def Draft.behind (front d : Draft) : Draft :=
  ⟨front.nodes ++ d.nodes, d.attributes, front.events ++ d.events⟩

/-- The same progress behind what `front` has collected. -/
def Progress.behind (front : Draft) : Progress → Progress
  | done d => done (front.behind d)
  | stopped d f => stopped (front.behind d) f

namespace Content

variable {site : Site}

theorem after_behind (front d : Draft) (s : Step) :
    (front.behind d).after s = front.behind (d.after s) := by
  cases s with
  | item v => simp only [Draft.after, Draft.take, Draft.behind, List.append_assoc]
  | note e => simp only [Draft.after, Draft.note, Draft.behind, List.append_assoc]
  | fail f => rfl

theorem runLeaf_behind (front d : Draft) (l : Leaf) :
    runLeaf site l (front.behind d) = (runLeaf site l d).behind front := by
  unfold runLeaf
  rw [after_behind, show (front.behind d).room = d.room from rfl]
  cases stepFault? site d.room l.step <;> rfl

theorem runLeaves_behind (front : Draft) : ∀ (ls : List Leaf) (d : Draft),
    runLeaves site ls (front.behind d) = (runLeaves site ls d).behind front
  | [], _ => rfl
  | l :: rest, d => by
    rw [runLeaves, runLeaves, runLeaf_behind]
    cases runLeaf site l d with
    | done m => exact runLeaves_behind front rest m
    | stopped m f => rfl

/-- **What is built already makes no difference** to items, but for coming first. -/
theorem appendItems_behind (front : Draft) (i : Nat) (vs : List Value) (d : Draft) :
    appendItems site i vs (front.behind d) = (appendItems site i vs d).behind front := by
  rw [appendItems_eq_runLeaves, appendItems_eq_runLeaves, runLeaves_behind]

/-- Room for attributes does not come up on the way, so the root is left as it was but for what is
in front. -/
theorem eq_behind_of_done {i : Nat} {vs : List Value} {d : Draft}
    (h : appendItems site i vs (.ofNodes []) = .done d) : d = d.behind (.ofNodes []) := by
  rw [appendItems_eq_runLeaves] at h
  have none : d.attributes = none := by
    rw [eq_afterAll_of_done h, afterAll_attributes]
    rfl
  simp only [Draft.behind, Draft.ofNodes, List.append_nil, ← none]

/-- **Content behind other content** at the root comes to the nodes of both. If it cannot be built,
the fault is that of the content in front, or else that of the content behind, whose positions
count the items in front. -/
theorem nodes_append (xs ys : List Value) : (nodes (xs ++ ys)).outcome =
    (nodes xs).outcome >>= fun front =>
      ((nodes ys).outcome.mapError (Fault.later xs.length)).map (front ++ ·) := by
  unfold nodes
  rw [appendItems_append]
  cases hx : appendItems .root 0 xs (.ofNodes []) with
  | stopped d f => rfl
  | done d =>
    have behind : appendItems .root (0 + xs.length) ys d =
        ((appendItems .root 0 ys (.ofNodes [])).later xs.length).behind d := by
      rw [eq_behind_of_done hx, appendItems_behind, appendItems_later, ← eq_behind_of_done hx]
    show (Progress.traced (appendItems .root (0 + xs.length) ys d) >>= _).outcome = _
    rw [behind]
    cases appendItems .root 0 ys (.ofNodes []) <;> rfl

end Content

end Hypertext
