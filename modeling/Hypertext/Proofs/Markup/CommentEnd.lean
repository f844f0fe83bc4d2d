import Hypertext.Proofs.Markup.Offence
import Hypertext.Proofs.Markup.Writing

/-!
# Where a comment ends

A comment is refused by `_serialize` for a `-->` in its data, so that it does not end before its
time. But a tokenizer that follows the HTML Standard knows more ends than that: `--!>` anywhere,
and a `>` or `->` right behind the opening. Comments with these are written, and what stands behind
them in the data is read as markup.

* `CommentState.next` is the step of such a tokenizer, `behindComment` its run.
* `CommentState.Reads` is what a state remembers of the characters read. It is the invariant:
  `reads_next` keeps it, and `due_iff` reads off it whether a closing bracket ends the comment.
* `rest_of_quiet`: the run up to the end of the comment, by induction on the characters.
* `behindComment_of_quiet`, `behindComment_of_endsEarly`: what is left behind a comment.
* `CommentIn` says where in the markup of a tree a comment stands. `write_commentIn`: it stands
  there; `exists_commentIn`: no comment that is written is left out.
* **`comment_ends`**: which comments of a tree end where they were written to end.
* `comment_ends_early`: one that does not.
-/

namespace Hypertext.Markup

/-! ## A tokenizer inside a comment -/

/-- The states of a tokenizer inside a comment, by their names in the HTML Standard. -/
inductive CommentState where
  | start
  | startDash
  | comment
  | lessThan
  | lessThanBang
  | lessThanBangDash
  | lessThanBangDashDash
  | endDash
  | ended
  | endBang

namespace CommentState

/-- Where the comment state goes with `c`. -/
def inComment (c : Char) : CommentState :=
  if c = '<' then .lessThan else if c = '-' then .endDash else .comment

/-- Where the comment end dash state goes with `c`. -/
def behindDash (c : Char) : CommentState := if c = '-' then .ended else inComment c

/-- Where the comment end state goes with `c`, if the comment does not end with it. -/
def behindDashes (c : Char) : Option CommentState :=
  if c = '>' then none
  else if c = '!' then some .endBang
  else if c = '-' then some .ended
  else some (inComment c)

/-- The state after `c`; there is none if the comment ends with it. A state that has no use for `c`
leaves it to another one. -/
def next (c : Char) : CommentState → Option CommentState
  | .start =>
    if c = '-' then some .startDash else if c = '>' then none else some (inComment c)
  | .startDash => if c = '-' then some .ended else if c = '>' then none else some (inComment c)
  | .comment => some (inComment c)
  | .lessThan =>
    if c = '!' then some .lessThanBang else if c = '<' then some .lessThan else some (inComment c)
  | .lessThanBang => if c = '-' then some .lessThanBangDash else some (inComment c)
  | .lessThanBangDash => if c = '-' then some .lessThanBangDashDash else some (behindDash c)
  | .lessThanBangDashDash => behindDashes c
  | .endDash => some (behindDash c)
  | .ended => behindDashes c
  | .endBang => if c = '-' then some .endDash else if c = '>' then none else some (inComment c)

/-- What is left of the characters behind the end of the comment, if it ends in them. -/
def rest : CommentState → List Char → Option (List Char)
  | _, [] => none
  | s, c :: cs =>
    match s.next c with
    | some s' => s'.rest cs
    | none => some cs

end CommentState

/-- What is left of the characters behind the comment that they begin with. -/
def behindComment : List Char → Option (List Char)
  | '<' :: '!' :: '-' :: '-' :: cs => CommentState.start.rest cs
  | _ => none

/-! ## What the states remember -/

/-- A closing bracket ends the comment if these are the characters read in it, the last one first.
-/
def Due (read : List Char) : Prop :=
  read = [] ∨ read = ['-'] ∨ ['-', '-'] <+: read ∨ ['!', '-', '-'] <+: read

namespace CommentState

/-- What a state says of the characters read, the last one first. -/
def Reads : CommentState → List Char → Prop
  | .start, read => read = []
  | .startDash, read => read = ['-']
  | .comment, read | .lessThan, read | .lessThanBang, read =>
    ∃ c before, read = c :: before ∧ c ≠ '-' ∧ ¬ ['!', '-', '-'] <+: read
  | .endDash, read | .lessThanBangDash, read => ∃ c before, read = '-' :: c :: before ∧ c ≠ '-'
  | .ended, read | .lessThanBangDashDash, read => ['-', '-'] <+: read
  | .endBang, read => ['!', '-', '-'] <+: read

/-- A closing bracket ends the comment in this state. -/
def closable : CommentState → Bool
  | .start | .startDash | .ended | .lessThanBangDashDash | .endBang => true
  | _ => false

theorem next_eq_none_iff (s : CommentState) (c : Char) :
    s.next c = none ↔ c = '>' ∧ s.closable = true := by
  cases s <;> grind [next, behindDashes, closable]

/-- **The state knows when a closing bracket is due.** -/
theorem due_iff {s : CommentState} {read : List Char} (h : s.Reads read) :
    Due read ↔ s.closable = true := by
  unfold Due
  cases s with
  | start | startDash | ended | lessThanBangDashDash | endBang =>
    simp only [Reads] at h
    simp [closable, h]
  | comment | lessThan | lessThanBang =>
    obtain ⟨c, before, rfl, hc, hb⟩ := h
    simp [closable, hc, hc.symm] at hb ⊢
    exact hb
  | endDash | lessThanBangDash =>
    obtain ⟨c, before, rfl, hc⟩ := h
    simp [closable, hc.symm]

/-- The comment state takes a dash only behind something else than a dash, and an exclamation mark
only where no two dashes stand before it. -/
theorem reads_inComment {read : List Char} {c : Char}
    (hd : c = '-' → ∃ x before, read = x :: before ∧ x ≠ '-')
    (hb : c = '!' → ¬ ['-', '-'] <+: read) : (inComment c).Reads (c :: read) := by
  unfold inComment
  by_cases hl : c = '<'
  · rw [if_pos hl]
    exact ⟨c, read, rfl, by simp [hl], by simp [hl]⟩
  · rw [if_neg hl]
    by_cases hc : c = '-'
    · rw [if_pos hc]
      obtain ⟨x, before, hr, hx⟩ := hd hc
      exact ⟨x, before, by rw [hc, hr], hx⟩
    · rw [if_neg hc]
      refine ⟨c, read, rfl, hc, fun hp => ?_⟩
      rw [List.cons_prefix_cons] at hp
      exact hb hp.1.symm hp.2

theorem reads_behindDash {read : List Char} {c : Char}
    (h : ∃ x before, read = '-' :: x :: before ∧ x ≠ '-') : (behindDash c).Reads (c :: read) := by
  obtain ⟨x, before, rfl, hx⟩ := h
  unfold behindDash
  by_cases hc : c = '-'
  · rw [if_pos hc, hc]
    exact ⟨x :: before, rfl⟩
  · rw [if_neg hc]
    exact reads_inComment (fun e => absurd e hc) fun _ => by simp [hx.symm]

theorem reads_behindDashes {read : List Char} {c : Char} {s : CommentState}
    (h : ['-', '-'] <+: read) (hs : behindDashes c = some s) : s.Reads (c :: read) := by
  obtain ⟨before, rfl⟩ := h
  unfold behindDashes at hs
  by_cases hc : c = '>'
  · rw [if_pos hc] at hs
    cases hs
  · rw [if_neg hc] at hs
    by_cases hb : c = '!'
    · rw [if_pos hb] at hs
      cases hs
      exact ⟨before, by rw [hb]; rfl⟩
    · rw [if_neg hb] at hs
      by_cases hd : c = '-'
      · rw [if_pos hd] at hs
        cases hs
        exact ⟨'-' :: before, by rw [hd]; rfl⟩
      · rw [if_neg hd] at hs
        cases hs
        exact reads_inComment (fun e => absurd e hd) fun e => absurd e hb

/-- **A step keeps in mind what has been read.** -/
theorem reads_next {s s' : CommentState} {read : List Char} {c : Char} (h : s.Reads read)
    (hs : s.next c = some s') : s'.Reads (c :: read) := by
  cases s with
  | start => grind [next, Reads, reads_inComment]
  | startDash => grind [next, Reads, reads_inComment]
  | comment => grind [next, Reads, reads_inComment]
  | lessThan => grind [next, Reads, reads_inComment]
  | lessThanBang => grind [next, Reads, reads_inComment]
  | lessThanBangDash => grind [next, Reads, reads_behindDash]
  | endDash =>
    cases hs
    exact reads_behindDash h
  | lessThanBangDashDash => exact reads_behindDashes h hs
  | ended => exact reads_behindDashes h hs
  | endBang =>
    obtain ⟨before, rfl⟩ := h
    grind [next, Reads, reads_inComment]

/-- **The comment ends with the first closing bracket that is due.** -/
theorem rest_of_quiet {s : CommentState} {read : List Char} (h : s.Reads read) {body : List Char}
    (quiet : ∀ p q, body = p ++ '>' :: q → ¬ Due (p.reverse ++ read))
    (due : Due (body.reverse ++ read)) (after : List Char) :
    s.rest (body ++ '>' :: after) = some after := by
  induction body generalizing s read with
  | nil =>
    have closes : s.next '>' = none := (s.next_eq_none_iff '>').mpr ⟨rfl, (due_iff h).mp due⟩
    rw [List.nil_append, rest, closes]
  | cons c body ih =>
    have goesOn : ∃ s', s.next c = some s' := by
      refine Option.ne_none_iff_exists'.mp fun e => ?_
      obtain ⟨rfl, closable⟩ := (s.next_eq_none_iff c).mp e
      exact quiet [] body rfl ((due_iff h).mpr closable)
    obtain ⟨s', hs⟩ := goesOn
    rw [List.cons_append, rest, hs]
    refine ih (reads_next h hs) (fun p q e => ?_) ?_
    · have := quiet (c :: p) q (by rw [e, List.cons_append])
      rwa [List.reverse_cons, List.append_assoc, List.singleton_append] at this
    · rwa [List.reverse_cons, List.append_assoc, List.singleton_append] at due

end CommentState

/-! ## Comments by their data -/

/-- The data has an end of the comment in it that no comment is refused for. -/
def EndsEarly (data : String) : Prop :=
  ['>'] <+: data.toList ∨ ['-', '>'] <+: data.toList ∨ Occurs "--!>" data

instance (part s : String) : Decidable (Occurs part s) := decidable_of_iff _ occurs_iff

instance (data : String) : Decidable (EndsEarly data) :=
  inferInstanceAs (Decidable (_ ∨ _ ∨ _))

/-- Where the data has no `-->` in it, the closing brackets in it that are due are its early ends.
-/
theorem exists_due_iff {data : String} (hd : ¬ Occurs "-->" data) :
    (∃ p q, data.toList = p ++ '>' :: q ∧ Due p.reverse) ↔ EndsEarly data := by
  constructor
  · rintro ⟨p, q, e, due⟩
    unfold EndsEarly
    rw [Occurs, e] at hd ⊢
    rcases due with due | due | ⟨before, due⟩ | ⟨before, due⟩
    · obtain rfl : p = [] := List.reverse_eq_nil_iff.mp due
      exact .inl ⟨q, rfl⟩
    · obtain rfl : p = ['-'] := List.reverse_eq_iff.mp due
      exact .inr (.inl ⟨q, rfl⟩)
    · obtain rfl := List.reverse_eq_iff.mp due.symm
      exact absurd ⟨before.reverse, q, by simp⟩ hd
    · obtain rfl := List.reverse_eq_iff.mp due.symm
      exact .inr (.inr ⟨before.reverse, q, by simp⟩)
  · rintro (⟨q, e⟩ | ⟨q, e⟩ | ⟨before, q, e⟩)
    · exact ⟨[], q, e.symm, .inl rfl⟩
    · exact ⟨['-'], q, e.symm, .inr (.inl rfl)⟩
    · exact ⟨before ++ ['-', '-', '!'], q, by simp [← e], .inr (.inr (.inr (by simp)))⟩

/-- Of the closing brackets that end the comment, one is the first. -/
theorem exists_first_due {s p q : List Char} (e : s = p ++ '>' :: q) (due : Due p.reverse) :
    ∃ p q, s = p ++ '>' :: q ∧ Due p.reverse ∧
      ∀ p' q', p = p' ++ '>' :: q' → ¬ Due p'.reverse := by
  by_cases earlier : ∃ p' q', p = p' ++ '>' :: q' ∧ Due p'.reverse
  · obtain ⟨p', q', hp, due'⟩ := earlier
    have next : s = p' ++ '>' :: (q' ++ '>' :: q) := by
      rw [e, hp, List.append_assoc, List.cons_append]
    exact exists_first_due next due'
  · exact ⟨p, q, e, due, fun p' q' hp due' => earlier ⟨p', q', hp, due'⟩⟩
termination_by p.length
decreasing_by
  rw [hp, List.length_append, List.length_cons]
  omega

/-- The dashes of a terminator have no closing bracket before them but those of the data. -/
theorem eq_append_of_terminator {data p q : List Char}
    (e : data ++ ['-', '-'] = p ++ '>' :: q) : ∃ q', data = p ++ '>' :: q' := by
  rcases List.append_eq_append_iff.mp e with ⟨middle, -, hm⟩ | ⟨middle, hp, hm⟩
  · have : '>' ∈ ['-', '-'] := by
      rw [hm]
      simp
    simp at this
  · cases middle with
    | nil => simp at hm
    | cons c middle =>
      obtain ⟨rfl, -⟩ := List.cons.inj hm
      exact ⟨middle, hp⟩

theorem behindComment_eq {body : List Char} (due : Due body.reverse)
    (quiet : ∀ p q, body = p ++ '>' :: q → ¬ Due p.reverse) (after : List Char) :
    behindComment ("<!--".toList ++ (body ++ '>' :: after)) = some after := by
  have opened : CommentState.start.Reads [] := rfl
  exact CommentState.rest_of_quiet opened (by simpa using quiet) (by simpa using due) after

/-- **A comment without an early end** ends at the terminator behind its data. -/
theorem behindComment_of_quiet {data : String} (hd : ¬ Occurs "-->" data) (he : ¬ EndsEarly data)
    (after : List Char) :
    behindComment ("<!--".toList ++ data.toList ++ "-->".toList ++ after) = some after := by
  have markup : "<!--".toList ++ data.toList ++ "-->".toList ++ after =
      "<!--".toList ++ ((data.toList ++ ['-', '-']) ++ '>' :: after) := by simp
  rw [markup]
  refine behindComment_eq (.inr (.inr (.inl (by simp)))) (fun p q e due => he ?_) after
  obtain ⟨q', hq⟩ := eq_append_of_terminator e
  exact (exists_due_iff hd).mp ⟨p, q', hq, due⟩

/-- **A comment with an early end** leaves part of its data behind. -/
theorem behindComment_of_endsEarly {data : String} (hd : ¬ Occurs "-->" data) (he : EndsEarly data)
    (after : List Char) : ∃ head tail, data.toList = head ++ '>' :: tail ∧
      behindComment ("<!--".toList ++ data.toList ++ "-->".toList ++ after) =
        some (tail ++ "-->".toList ++ after) := by
  obtain ⟨p, q, e, due⟩ := (exists_due_iff hd).mpr he
  obtain ⟨head, tail, e, due, quiet⟩ := exists_first_due e due
  have markup : "<!--".toList ++ data.toList ++ "-->".toList ++ after =
      "<!--".toList ++ (head ++ '>' :: (tail ++ "-->".toList ++ after)) := by simp [e]
  exact ⟨head, tail, e, markup ▸ behindComment_eq due quiet _⟩

/-! ## The comments of a tree -/

mutual

/-- The value, written below `parent`, has a comment with this data behind the markup `before` and
in front of `after`. -/
inductive CommentIn (data : String) : Option String → Value → String → String → Prop
  | here (parent : Option String) : CommentIn data parent (.node (.comment (.str data))) "" ""
  | element {parent : Option String} {name before after : String} {a : Record} {texts : Attributes}
      {children : List Value} (ha : textAttributes? a = some texts) (hv : isVoid name = false)
      (h : CommentAmong data (some name) children before after) :
      CommentIn data parent (.node (.element (.str name) a children))
        (openingTag name texts ++ before) (after ++ closingTag name)
  | fragment {parent : Option String} {before after : String} {children : List Value}
      (h : CommentAmong data parent children before after) :
      CommentIn data parent (.node (.fragment children)) before after

/-- The same of values that are written one after another. -/
inductive CommentAmong (data : String) : Option String → List Value → String → String → Prop
  | first {parent : Option String} {v : Value} {rest : List Value} {before after others : String}
      (h : CommentIn data parent v before after) (hr : writeAll parent rest = .ok others) :
      CommentAmong data parent (v :: rest) before (after ++ others)
  | later {parent : Option String} {v : Value} {rest : List Value} {before after s : String}
      (hv : v.write parent = .ok s) (h : CommentAmong data parent rest before after) :
      CommentAmong data parent (v :: rest) (s ++ before) after

end

theorem CommentIn.cast {data before before' after after' : String} {parent : Option String}
    {v : Value} (h : CommentIn data parent v before after) (hb : before = before')
    (ha : after = after') : CommentIn data parent v before' after' :=
  hb ▸ ha ▸ h

mutual

/-- **A comment stands where it is said to**, if it is not refused. -/
theorem write_commentIn {data before after : String} {parent : Option String} {v : Value} :
    CommentIn data parent v before after →
      v.write parent = .ok before ++ writeComment data ++ .ok after
  | .here parent => by
    rw [ok_empty_append, append_ok_empty]
    rfl
  | .element ha hv h => by
    rw [Value.write, write_element_eq ha, if_neg (by simp [hv]), writeAll_commentAmong h,
      ← ok_append_ok, ← ok_append_ok]
    simp only [append_assoc]
  | .fragment h => by
    rw [Value.write, Node.write, writeAll_commentAmong h]

theorem writeAll_commentAmong {data before after : String} {parent : Option String}
    {vs : List Value} : CommentAmong data parent vs before after →
      writeAll parent vs = .ok before ++ writeComment data ++ .ok after
  | .first h hr => by
    rw [writeAll_cons, write_commentIn h, hr, ← ok_append_ok]
    simp only [append_assoc]
  | .later hv h => by
    rw [writeAll_cons, hv, writeAll_commentAmong h, ← ok_append_ok]
    simp only [append_assoc]

end

mutual

/-- **Every comment on the walk has its place** in what is written. -/
theorem exists_commentIn {data s : String} {parent : Option String} {x : Visit} : ∀ {v : Value},
    v.write parent = .ok s → x ∈ v.visits parent → x.value = .node (.comment (.str data)) →
    ∃ before after, CommentIn data parent v before after
  | .node n, h, hx, hd => by
    rw [Value.visits, List.mem_cons] at hx
    rcases hx with rfl | hx
    · cases hd
      exact ⟨"", "", .here parent⟩
    · exact exists_commentInside h hx hd

theorem exists_commentInside {data s : String} {parent : Option String} {x : Visit} :
    ∀ {n : Node}, n.write parent = .ok s → x ∈ n.visitsInside parent →
    x.value = .node (.comment (.str data)) →
    ∃ before after, CommentIn data parent (.node n) before after
  | .element (.str name) a children, h, hx, hd => by
    rw [Node.visitsInside] at hx
    cases ha : textAttributes? a with
    | none =>
      rw [Node.write, ha] at h
      cases h
    | some texts =>
      by_cases hv : isVoid name = true
      · simp [hv] at hx
      · rw [write_element_eq ha, if_neg hv] at h
        obtain ⟨front, _, hf, -, -⟩ := exists_of_append_ok h
        obtain ⟨_, inner, -, hi, -⟩ := exists_of_append_ok hf
        have inside : x ∈ visitsAll (some name) children := by
          split at hx
          · exact hx
          · cases hx
        obtain ⟨before, after, hc⟩ := exists_commentAmong hi inside hd
        exact ⟨_, _, .element ha (by simpa using hv) hc⟩
  | .fragment children, h, hx, hd => by
    obtain ⟨before, after, hc⟩ := exists_commentAmong h hx hd
    exact ⟨before, after, .fragment hc⟩

theorem exists_commentAmong {data s : String} {parent : Option String} {x : Visit} :
    ∀ {vs : List Value}, writeAll parent vs = .ok s → x ∈ visitsAll parent vs →
    x.value = .node (.comment (.str data)) →
    ∃ before after, CommentAmong data parent vs before after
  | v :: rest, h, hx, hd => by
    obtain ⟨first, others, hv, hr, -⟩ := exists_of_append_ok h
    rw [visitsAll, List.mem_append] at hx
    rcases hx with hx | hx
    · obtain ⟨before, after, hc⟩ := exists_commentIn hv hx hd
      exact ⟨before, _, .first hc hr⟩
    · obtain ⟨before, after, hc⟩ := exists_commentAmong hr hx hd
      exact ⟨_, after, .later hv hc⟩

end

/-! ## Comments that end where they should -/

theorem writeComment_eq_ok_iff {data s : String} :
    writeComment data = .ok s ↔ ¬ Occurs "-->" data ∧ s = "<!--" ++ data ++ "-->" := by
  unfold writeComment
  rw [← occurs_iff]
  split
  · rename_i h
    simp [h]
  · rename_i h
    simp [h, eq_comm]

/-- **Which comments end where they were written to end.** Every comment on the walk has its place
in what a tree is written to, and no `-->` in its data. A tokenizer that reads on from that place
ends the comment at the terminator that was written, unless the data begins with `>` or `->` or has
`--!>` in it. Then the comment ends in its data, and the rest of the data is read as markup. -/
theorem comment_ends {v : Value} {s : String} (h : v.write none = .ok s) :
    (∀ x ∈ v.visits none, ∀ data, x.value = .node (.comment (.str data)) →
      ∃ before after, CommentIn data none v before after) ∧
    ∀ data before after, CommentIn data none v before after →
      s = before ++ ("<!--" ++ data ++ "-->") ++ after ∧ ¬ Occurs "-->" data ∧
      (¬ EndsEarly data →
        behindComment ("<!--" ++ data ++ "-->" ++ after).toList = some after.toList) ∧
      (EndsEarly data → ∃ head tail, data = head ++ ">" ++ tail ∧
        behindComment ("<!--" ++ data ++ "-->" ++ after).toList =
          some (tail ++ "-->" ++ after).toList) := by
  refine ⟨fun x hx data hd => exists_commentIn h hx hd, fun data before after hc => ?_⟩
  rw [write_commentIn hc] at h
  obtain ⟨front, _, hf, ha, rfl⟩ := exists_of_append_ok h
  obtain ⟨_, comment, hb, hw, rfl⟩ := exists_of_append_ok hf
  cases ha
  cases hb
  obtain ⟨hd, rfl⟩ := writeComment_eq_ok_iff.mp hw
  refine ⟨rfl, hd, fun quiet => ?_, fun early => ?_⟩
  · simp only [String.toList_append]
    exact behindComment_of_quiet hd quiet after.toList
  · obtain ⟨head, tail, e, hl⟩ := behindComment_of_endsEarly hd early after.toList
    refine ⟨String.ofList head, String.ofList tail, ?_, ?_⟩
    · rw [← String.toList_inj, e]
      simp
    · simpa only [String.toList_append, String.toList_ofList] using hl

/-- Two comments: one that is full of dashes and brackets, and one that ends in its data. -/
def commentPair : Node :=
  .element (.str "p") [] [.node (.comment (.str "- > <!--!")),
    .node (.fragment [.ofText "x", .node (.comment (.str "->b"))])]

/-- The two comments as they are written. -/
def commentPairMarkup : String := "<p><!--- > <!--!-->x<!--->b--></p>"

theorem comment_ends_pair :
    (Value.node commentPair).write none = .ok commentPairMarkup ∧
    CommentIn "- > <!--!" none (.node commentPair) "<p>" "x<!--->b--></p>" ∧
    ¬ EndsEarly "- > <!--!" ∧
    behindComment "<!--- > <!--!-->x<!--->b--></p>".toList = some "x<!--->b--></p>".toList ∧
    CommentIn "->b" none (.node commentPair) "<p><!--- > <!--!-->x" "</p>" ∧ EndsEarly "->b" ∧
    ∃ head tail, "->b" = head ++ ">" ++ tail ∧
      behindComment "<!--->b--></p>".toList = some (tail ++ "-->" ++ "</p>").toList := by
  have written : (Value.node commentPair).write none = .ok commentPairMarkup := by rfl
  have quiet : ¬ EndsEarly "- > <!--!" := by decide
  have early : EndsEarly "->b" := by decide
  have first : CommentIn "- > <!--!" none (.node commentPair) "<p>" "x<!--->b--></p>" :=
    (CommentIn.element rfl rfl (.first (.here _) rfl)).cast rfl rfl
  have second : CommentIn "->b" none (.node commentPair) "<p><!--- > <!--!-->x" "</p>" :=
    (CommentIn.element rfl rfl
      (.later rfl (.first (.fragment (.later rfl (.first (.here _) rfl))) rfl))).cast rfl rfl
  obtain ⟨-, places⟩ := comment_ends written
  obtain ⟨-, -, ends, -⟩ := places _ _ _ first
  obtain ⟨-, -, -, breaks⟩ := places _ _ _ second
  exact ⟨written, first, quiet, ends quiet, second, early, breaks early⟩

/-- A comment can end in its data: what stands behind the `--!>` is read as markup. -/
theorem comment_ends_early :
    (Node.element (.str "div") [] [.node (.comment (.str "a --!> b"))]).markup =
      .ok "<div><!--a --!> b--></div>" ∧
    CommentIn "a --!> b" none
      (.node (.element (.str "div") [] [.node (.comment (.str "a --!> b"))])) "<div>" "</div>" ∧
    behindComment "<!--a --!> b--></div>".toList = some " b--></div>".toList ∧
    behindComment "<!--a --!> b--></div>".toList ≠ some "</div>".toList := by
  refine ⟨rfl, ?_, by decide, by decide⟩
  exact (CommentIn.element rfl rfl (.first (.here _) rfl)).cast rfl rfl

end Hypertext.Markup
