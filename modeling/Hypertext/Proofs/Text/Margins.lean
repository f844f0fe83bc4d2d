import Hypertext.Proofs.Text.Breaks

/-!
# Margins in a text

`_indent_text` puts margins into a text, here as `reindent`. A margin that holds no line break
leaves the line breaks of a text where they are: it adds none, and the one in front of it still
ends its run, since what follows is the margin or what followed before. So lines that have been
moved in are moved in again at the same places, and the characters to be taken away to undo it are
found at these places too.

* `behindBreaks_behindBreaks`: a margin in front of a margin, by induction on the line breaks.
* `lines_reindent`: what becomes of each line, `movedLines`.
* `dropMargins_behindBreaks`: margins put in and taken away.
* **`reindent_adds_up`**: levels add up, and nothing is lost.
-/

namespace Hypertext.Text

variable {m s : List Char}

/-! ## Places of margins -/

theorem head?_append_of_not_mem (hm : '\n' ∉ m) (h : s.head? ≠ some '\n') :
    (m ++ s).head? ≠ some '\n' := by
  cases m with
  | nil => exact h
  | cons c m =>
    rintro ⟨⟩
    exact hm List.mem_cons_self

/-- **A line break that ends a run ends it still** when there is a margin behind it. -/
theorem head?_margin (hm : '\n' ∉ m) (h : s.head? ≠ some '\n') :
    (m ++ behindBreaks m s).head? ≠ some '\n' :=
  head?_append_of_not_mem hm (by rwa [head?_behindBreaks])

/-- Anything else stays what it is, too. -/
theorem other_behindBreaks {c : Char} (h : ¬ (c = '\n' ∧ s.head? ≠ some '\n')) :
    ¬ (c = '\n' ∧ (behindBreaks m s).head? ≠ some '\n') := by
  rwa [head?_behindBreaks]

/-! ## Margins in front of margins -/

theorem behindBreaks_append (hm : '\n' ∉ m) (n s : List Char) :
    behindBreaks n (m ++ s) = m ++ behindBreaks n s := by
  induction m with
  | nil => rfl
  | cons c m ih =>
    rw [List.mem_cons, not_or] at hm
    rw [List.cons_append, behindBreaks_other fun h => hm.1 h.1.symm, ih hm.2]
    rfl

/-- **Lines moved in twice** are moved in by both margins, the later one in front. -/
theorem behindBreaks_behindBreaks (hm : '\n' ∉ m) (n s : List Char) :
    behindBreaks n (behindBreaks m s) = behindBreaks (n ++ m) s := by
  induction s using breaks_induction with
  | nil => rfl
  | ending rest h ih =>
    rw [behindBreaks_ending h, behindBreaks_ending h, behindBreaks_ending (head?_margin hm h),
      behindBreaks_append hm, ih, List.append_assoc]
  | other c rest h ih =>
    rw [behindBreaks_other h, behindBreaks_other h, behindBreaks_other (other_behindBreaks h), ih]

/-- **No line break is added.** -/
theorem count_behindBreaks (hm : '\n' ∉ m) (s : List Char) :
    (behindBreaks m s).count '\n' = s.count '\n' := by
  induction s using breaks_induction with
  | nil => rfl
  | ending rest h ih =>
    rw [behindBreaks_ending h, List.count_cons_self, List.count_cons_self, List.count_append,
      List.count_eq_zero_of_not_mem hm, Nat.zero_add, ih]
  | other c rest h ih => rw [behindBreaks_other h, List.count_cons, List.count_cons, ih]

/-! ## Lines -/

/-- The lines of a text. There is one more than there are line breaks. -/
def lines (s : String) : List (List Char) := s.toList.splitOn '\n'

/-- Lines behind the first one, moved in by `m`. A blank line stays blank, unless it is the last. -/
def movedLines (m : List Char) : List (List Char) → List (List Char)
  | [] => []
  | line :: rest => (if line = [] ∧ rest ≠ [] then [] else m ++ line) :: movedLines m rest

variable {first : List Char} {later : List (List Char)}

theorem exists_splitOn (s : List Char) : ∃ first later, s.splitOn '\n' = first :: later :=
  List.exists_cons_of_ne_nil (List.splitOn_ne_nil '\n' s)

theorem splitOn_break (s : List Char) : ('\n' :: s).splitOn '\n' = [] :: s.splitOn '\n' :=
  List.splitOn_append_cons_self_of_not_mem List.not_mem_nil s

theorem splitOn_other {c : Char} (hc : c ≠ '\n') (h : s.splitOn '\n' = first :: later) :
    (c :: s).splitOn '\n' = (c :: first) :: later := by
  rw [List.splitOn_cons_eq_if_modifyHead, h, if_neg fun e => hc (beq_iff_eq.mp e)]
  rfl

theorem splitOn_append (hm : '\n' ∉ m) (h : s.splitOn '\n' = first :: later) :
    (m ++ s).splitOn '\n' = (m ++ first) :: later := by
  induction m with
  | nil => exact h
  | cons c m ih =>
    rw [List.mem_cons, not_or] at hm
    exact splitOn_other (Ne.symm hm.1) (ih hm.2)

/-- A text begins with a line break iff its first line is blank and not the only one. -/
theorem head?_eq_newline_iff (h : s.splitOn '\n' = first :: later) :
    s.head? = some '\n' ↔ first = [] ∧ later ≠ [] := by
  cases s with
  | nil =>
    cases h
    simp
  | cons c rest =>
    obtain ⟨line, more, hr⟩ := exists_splitOn rest
    by_cases hc : c = '\n'
    · rw [hc, splitOn_break, hr] at h
      cases h
      simp [hc]
    · rw [splitOn_other hc hr] at h
      cases h
      simp [hc]

theorem splitOn_behindBreaks (hm : '\n' ∉ m) (h : s.splitOn '\n' = first :: later) :
    (behindBreaks m s).splitOn '\n' = first :: movedLines m later := by
  induction s using breaks_induction generalizing first later with
  | nil =>
    cases h
    rfl
  | ending rest last ih =>
    obtain ⟨line, more, hr⟩ := exists_splitOn rest
    rw [splitOn_break, hr] at h
    cases h
    rw [behindBreaks_ending last, splitOn_break, splitOn_append hm (ih hr), movedLines,
      if_neg fun blank => last ((head?_eq_newline_iff hr).mpr blank)]
  | other c rest last ih =>
    obtain ⟨line, more, hr⟩ := exists_splitOn rest
    rw [behindBreaks_other last]
    by_cases hc : c = '\n'
    · -- Another line break follows, so the line between them is blank.
      have blank := (head?_eq_newline_iff hr).mp (not_not.mp fun next => last ⟨hc, next⟩)
      rw [hc, splitOn_break, hr] at h
      cases h
      rw [hc, splitOn_break, ih hr, movedLines, if_pos blank, blank.1]
    · rw [splitOn_other hc hr] at h
      cases h
      exact splitOn_other hc (ih hr)

theorem getElem?_movedLines {ls : List (List Char)} {i : Nat} (h : ls[i]? = some [])
    (hi : i + 1 < ls.length) : (movedLines m ls)[i]? = some [] := by
  induction ls generalizing i with
  | nil => cases h
  | cons line rest ih =>
    rw [List.length_cons, Nat.add_lt_add_iff_right] at hi
    cases i with
    | zero =>
      have blank : line = [] := Option.some.inj h
      rw [movedLines, if_pos ⟨blank, List.ne_nil_of_length_pos hi⟩]
      rfl
    | succ i => exact ih h hi

/-! ## Margins taken away -/

/-- What is left of a text when its next `k` characters are taken away, and from there on `n` behind
every line break that no other line break follows. -/
def dropMargins (n : Nat) : Nat → List Char → List Char
  | _, [] => []
  | k + 1, _ :: rest => dropMargins n k rest
  | 0, c :: rest => c :: dropMargins n (if c = '\n' ∧ rest.head? ≠ some '\n' then n else 0) rest

/-- A text less `n` characters behind every line break that no other line break follows. -/
def outdent (s : String) (n : Nat) : String := String.ofList (dropMargins n 0 s.toList)

theorem dropMargins_append (n : Nat) (m s : List Char) :
    dropMargins n m.length (m ++ s) = dropMargins n 0 s := by
  induction m with
  | nil => rfl
  | cons c m ih => exact ih

/-- **Margins are found again** where they were put. -/
theorem dropMargins_behindBreaks (hm : '\n' ∉ m) (s : List Char) :
    dropMargins m.length 0 (behindBreaks m s) = s := by
  induction s using breaks_induction with
  | nil => rfl
  | ending rest h ih =>
    rw [behindBreaks_ending h, dropMargins, if_pos ⟨rfl, head?_margin hm h⟩, dropMargins_append, ih]
  | other c rest h ih =>
    rw [behindBreaks_other h, dropMargins, if_neg (other_behindBreaks h), ih]

/-! ## Texts moved in -/

variable {indent data : String}

theorem newline_not_mem_margin (hi : '\n' ∉ indent.toList) (level : Int) :
    '\n' ∉ (margin indent level).toList :=
  fun hm => hi (mem_of_mem_margin hm)

/-- **What becomes of the lines** of a text that is moved in: the first one is the same, and so is
every blank one but the last. -/
theorem lines_reindent (hi : '\n' ∉ indent.toList) (h : lines data = first :: later) (level : Int) :
    lines (reindent data indent level) =
      first :: movedLines (margin indent level).toList later := by
  rw [lines, toList_reindent]
  exact splitOn_behindBreaks (newline_not_mem_margin hi level) h

theorem getElem?_lines_reindent (hi : '\n' ∉ indent.toList) (level : Int) {i : Nat}
    (h : (lines data)[i]? = some []) (hl : i + 1 < (lines data).length) :
    (lines (reindent data indent level))[i]? = some [] := by
  obtain ⟨first, later, hd⟩ : ∃ first later, lines data = first :: later := exists_splitOn _
  rw [lines_reindent hi hd]
  rw [hd] at h hl
  cases i with
  | zero => exact h
  | succ i => exact getElem?_movedLines h (Nat.lt_of_succ_lt_succ hl)

/-- Margins of two levels are one margin. -/
theorem reindent_reindent (hi : '\n' ∉ indent.toList) {a b : Int} (ha : 0 ≤ a) (hb : 0 ≤ b)
    (data : String) :
    reindent (reindent data indent a) indent b = reindent data indent (a + b) := by
  rw [← String.toList_inj, toList_reindent, toList_reindent, toList_reindent,
    behindBreaks_behindBreaks (newline_not_mem_margin hi a), ← String.toList_append,
    ← margin_add indent hb ha, Int.add_comm]

theorem outdent_reindent (hi : '\n' ∉ indent.toList) (level : Int) (data : String) :
    outdent (reindent data indent level) (indent.length * level.toNat) = data := by
  rw [outdent, toList_reindent, ← length_margin, ← String.length_toList,
    dropMargins_behindBreaks (newline_not_mem_margin hi level), String.ofList_toList]

/-- **Moving lines in adds up and loses nothing.** If the indent holds no line break, moving the
lines of a text in to one level and then to another moves them in to the sum of both. There are as
many line breaks as before, every blank line stays blank unless the text ends with it, and taking
the length of the margin away behind every line break that no other line break follows gives the
text back. -/
theorem reindent_adds_up (hi : '\n' ∉ indent.toList) {a b : Int} (ha : 0 ≤ a) (hb : 0 ≤ b)
    (data : String) :
    reindent (reindent data indent a) indent b = reindent data indent (a + b) ∧
    (reindent data indent a).toList.count '\n' = data.toList.count '\n' ∧
    (∀ i, (lines data)[i]? = some [] → i + 1 < (lines data).length →
      (lines (reindent data indent a))[i]? = some []) ∧
    outdent (reindent data indent a) (indent.length * a.toNat) = data := by
  refine ⟨reindent_reindent hi ha hb data, ?_, ?_, outdent_reindent hi a data⟩
  · rw [toList_reindent, count_behindBreaks (newline_not_mem_margin hi a)]
  · exact fun _ => getElem?_lines_reindent hi a

/-- Runs of line breaks at both ends and in the middle. -/
def gapsSample : String := "\na\n\n\nb\n"

theorem reindent_adds_up_gaps :
    '\n' ∉ "\t ".toList ∧ (0 : Int) ≤ 1 ∧ (0 : Int) ≤ 2 ∧
    (reindent (reindent gapsSample "\t " 1) "\t " 2 = reindent gapsSample "\t " (1 + 2) ∧
    (reindent gapsSample "\t " 1).toList.count '\n' = gapsSample.toList.count '\n' ∧
    (∀ i, (lines gapsSample)[i]? = some [] → i + 1 < (lines gapsSample).length →
      (lines (reindent gapsSample "\t " 1))[i]? = some []) ∧
    outdent (reindent gapsSample "\t " 1) ("\t ".length * (1 : Int).toNat) = gapsSample) ∧
    lines gapsSample = [[], ['a'], [], [], ['b'], []] ∧
    reindent gapsSample "\t " 1 = "\n\t a\n\n\n\t b\n\t " ∧
    outdent "\n\t a\n\n\n\t b\n\t " 2 = gapsSample := by
  have solid : '\n' ∉ "\t ".toList := by decide
  exact ⟨solid, by decide, by decide, reindent_adds_up solid (by decide) (by decide) gapsSample,
    by decide, by decide, by decide⟩

end Hypertext.Text
