import Mathlib.Data.List.Nodup
import Mathlib.Data.List.Perm.Basic
import Hypertext.Proofs.Content.Leaves

/-!
# What is left of a sequence of writes

Attributes come about by writing entries one after another: a value goes to its key's place, or to
the end if the key has none; a null takes the key away. `LastWrites` says what is left of a sequence
of writes without going through it: every key has the value of its last write, a key whose last
write is null is absent, no key comes twice, and the keys stand in the order in which they came in
for good.

* `mem_put`, `keys_put`, `mem_drop`, `keys_drop`: what single writes do to entries and keys.
* `LastWrites.write`, `LastWrites.writeAll`: one write preserves it, and so does a run.
* `LastWrites.unique`: it determines the entries and their order.
-/

namespace Hypertext.Record

/-! ## Single writes -/

theorem hasKey_iff {key : String} {r : Record} :
    hasKey key r = true ↔ Value.str key ∈ r.map Prod.fst := by
  unfold hasKey
  rw [List.any_eq_true, List.mem_map]
  constructor
  · rintro ⟨e, he, hk⟩
    exact ⟨e, he, isKey_iff.mp hk⟩
  · rintro ⟨e, he, hk⟩
    exact ⟨e, he, isKey_iff.mpr hk⟩

theorem keys_put (key : String) (value : Value) (r : Record) : (put key value r).map Prod.fst =
    if hasKey key r then r.map Prod.fst else r.map Prod.fst ++ [.str key] := by
  induction r with
  | nil => rfl
  | cons e r ih =>
    obtain ⟨k, v⟩ := e
    unfold put
    by_cases hk : k.isKey key = true
    · simp [hasKey, hk]
    · simp only [hk, hasKey, List.any_cons, Bool.false_or] at ih ⊢
      by_cases hr : (r.any fun e => e.1.isKey key) = true
      · simp [hr, ih]
      · simp [hr, ih]

/-- A key that is new comes in at the end. -/
theorem put_of_not_mem {key : String} {r : Record} (h : Value.str key ∉ r.map Prod.fst)
    (value : Value) : put key value r = r ++ [(.str key, value)] := by
  induction r with
  | nil => rfl
  | cons e r ih =>
    rw [List.map_cons, List.mem_cons, not_or] at h
    rw [put, if_neg fun hk => h.1 (isKey_iff.mp hk).symm, ih h.2, List.cons_append]

theorem nodup_keys_put {key : String} {value : Value} {r : Record} (h : (r.map Prod.fst).Nodup) :
    ((put key value r).map Prod.fst).Nodup := by
  rw [keys_put]
  by_cases hk : hasKey key r = true
  · rwa [if_pos hk]
  · rw [if_neg hk]
    rw [hasKey_iff] at hk
    refine List.nodup_append.mpr ⟨h, List.nodup_singleton _, ?_⟩
    intro k hmem l hl
    rw [List.mem_singleton] at hl
    rintro rfl
    exact hk (hl ▸ hmem)

theorem mem_put {key : String} {value : Value} {r : Record} (h : (r.map Prod.fst).Nodup)
    {e : Value × Value} :
    e ∈ put key value r ↔ e = (.str key, value) ∨ (e ∈ r ∧ e.1 ≠ .str key) := by
  induction r with
  | nil => simp [put]
  | cons x r ih =>
    obtain ⟨k, v⟩ := x
    rw [List.map_cons, List.nodup_cons] at h
    unfold put
    by_cases hk : k.isKey key = true
    · obtain rfl := isKey_iff.mp hk
      rw [if_pos hk, List.mem_cons, List.mem_cons]
      constructor
      · rintro (rfl | he)
        · exact .inl rfl
        · exact .inr ⟨.inr he, fun hk => h.1 (List.mem_map.mpr ⟨e, he, hk⟩)⟩
      · rintro (rfl | ⟨rfl | he, hne⟩)
        · exact .inl rfl
        · exact absurd rfl hne
        · exact .inr he
    · have other : k ≠ .str key := fun e => hk (isKey_iff.mpr e)
      rw [if_neg hk, List.mem_cons, ih h.2, List.mem_cons]
      constructor
      · rintro (rfl | rfl | ⟨he, hne⟩)
        · exact .inr ⟨.inl rfl, other⟩
        · exact .inl rfl
        · exact .inr ⟨.inr he, hne⟩
      · rintro (rfl | ⟨rfl | he, hne⟩)
        · exact .inr (.inl rfl)
        · exact .inl rfl
        · exact .inr (.inr ⟨he, hne⟩)

theorem mem_drop {key : String} {r : Record} {e : Value × Value} :
    e ∈ drop key r ↔ e ∈ r ∧ e.1 ≠ .str key := by
  unfold drop
  rw [List.mem_filter, Bool.not_eq_true', Bool.eq_false_iff, ne_eq, isKey_iff]

theorem keys_drop_sublist (key : String) (r : Record) :
    ((drop key r).map Prod.fst).Sublist (r.map Prod.fst) :=
  List.filter_sublist.map _

/-! ## What a sequence of writes comes to -/

/-- `v` is the value of the last entry for `k`. -/
def Last (E : Record) (k v : Value) : Prop :=
  ∃ i : Nat, E[i]? = some (k, v) ∧ ∀ (j : Nat) (w : Value), i < j → E[j]? ≠ some (k, w)

/-- `k` comes in for good at position `i`: it gets a value there, is not taken away any more, and
did not have one right before. -/
structure Enters (E : Record) (k : Value) (i : Nat) : Prop where
  written : ∃ v, E[i]? = some (k, v) ∧ v ≠ .null
  kept : ∀ j : Nat, i < j → E[j]? ≠ some (k, .null)
  first : ∀ (j : Nat) (w : Value), j < i → E[j]? = some (k, w) → w ≠ .null →
    ∃ m, j < m ∧ m < i ∧ E[m]? = some (k, .null)

/-- The entries `a` are what the writes `E` leave behind. -/
structure LastWrites (E a : Record) : Prop where
  mem : ∀ k v, (k, v) ∈ a ↔ Last E k v ∧ v ≠ .null
  distinct : (a.map Prod.fst).Nodup
  enters : ∀ k ∈ a.map Prod.fst, ∃ i, Enters E k i
  order : (a.map Prod.fst).Pairwise fun k l => ∃ i j, Enters E k i ∧ Enters E l j ∧ i < j

/-! ### One more entry -/

variable {E : Record} {k l v : Value} {i : Nat}

theorem getElem?_snoc {e x : Value × Value} :
    (E ++ [e])[i]? = some x ↔ E[i]? = some x ∨ (i = E.length ∧ x = e) := by
  rcases Nat.lt_trichotomy i E.length with h | rfl | h
  · rw [List.getElem?_append_left h]
    simp [Nat.ne_of_lt h]
  · simp [eq_comm]
  · have outside : (E ++ [e]).length ≤ i := by
      rw [List.length_append, List.length_singleton]
      omega
    rw [List.getElem?_eq_none outside, List.getElem?_eq_none (Nat.le_of_lt h)]
    simp [Nat.ne_of_gt h]

theorem lt_length_of_getElem? {x : Value × Value} (h : E[i]? = some x) : i < E.length :=
  (List.getElem?_eq_some_iff.mp h).1

theorem last_snoc_self {w : Value} : Last (E ++ [(k, v)]) k w ↔ w = v := by
  constructor
  · rintro ⟨i, hi, hlast⟩
    rcases getElem?_snoc.mp hi with h | ⟨-, h⟩
    · exact absurd (getElem?_snoc.mpr (.inr ⟨rfl, rfl⟩)) (hlast _ v (lt_length_of_getElem? h))
    · exact congrArg Prod.snd h
  · rintro rfl
    refine ⟨E.length, getElem?_snoc.mpr (.inr ⟨rfl, rfl⟩), fun j w hj h => ?_⟩
    have := lt_length_of_getElem? h
    simp at this
    omega

theorem last_snoc_of_ne {w : Value} (h : l ≠ k) : Last (E ++ [(k, v)]) l w ↔ Last E l w := by
  have same (j : Nat) (u : Value) : (E ++ [(k, v)])[j]? = some (l, u) ↔ E[j]? = some (l, u) := by
    rw [getElem?_snoc, or_iff_left]
    rintro ⟨-, e⟩
    exact h (congrArg Prod.fst e)
  unfold Last
  simp only [ne_eq, same]

/-- Of the entries for a key, if there are any, one is the last. -/
theorem exists_last {j : Nat} {w : Value} (h : E[j]? = some (k, w)) :
    ∃ i u, j ≤ i ∧ E[i]? = some (k, u) ∧ ∀ (m : Nat) (x : Value), i < m → E[m]? ≠ some (k, x) := by
  -- Induction on the number of entries behind `j`.
  by_cases later : ∃ m x, j < m ∧ E[m]? = some (k, x)
  · obtain ⟨m, x, hm, hx⟩ := later
    have := lt_length_of_getElem? hx
    obtain ⟨i, u, hi, rest⟩ := exists_last hx
    exact ⟨i, u, by omega, rest⟩
  · exact ⟨j, w, Nat.le_refl j, h, fun m x hm hx => later ⟨m, x, hm, hx⟩⟩
termination_by E.length - j

theorem Enters.lt_length (h : Enters E k i) : i < E.length := by
  obtain ⟨v, hv, -⟩ := h.written
  exact lt_length_of_getElem? hv

/-- A key comes in for good at one position only. -/
theorem Enters.unique {j : Nat} (hi : Enters E k i) (hj : Enters E k j) : i = j := by
  have not_before {i j : Nat} (hi : Enters E k i) (hj : Enters E k j) : ¬ i < j := by
    intro h
    obtain ⟨v, hv, hn⟩ := hi.written
    obtain ⟨m, hm, -, hnull⟩ := hj.first i v h hv hn
    exact hi.kept m hm hnull
  have := not_before hi hj
  have := not_before hj hi
  omega

/-- A further entry leaves a key where it came in, unless it takes the key away. -/
theorem Enters.snoc (h : Enters E k i) (hl : l ≠ k ∨ v ≠ .null) : Enters (E ++ [(l, v)]) k i := by
  obtain ⟨u, hu, hn⟩ := h.written
  refine ⟨⟨u, getElem?_snoc.mpr (.inl hu), hn⟩, fun j hj hnull => ?_, fun j w hj hw hn => ?_⟩
  · rcases getElem?_snoc.mp hnull with hnull | ⟨-, e⟩
    · exact h.kept j hj hnull
    · rw [Prod.mk.injEq] at e
      exact hl.elim (fun hl => hl e.1.symm) fun hv => hv e.2.symm
  · have hlen := h.lt_length
    rcases getElem?_snoc.mp hw with hw | ⟨rfl, -⟩
    · obtain ⟨m, hm, hmi, hnull⟩ := h.first j w hj hw hn
      exact ⟨m, hm, hmi, getElem?_snoc.mpr (.inl hnull)⟩
    · omega

/-- A key that has no value comes in with the next one. -/
theorem enters_length (absent : ∀ w, Last E k w → w = .null) (hv : v ≠ .null) :
    Enters (E ++ [(k, v)]) k E.length := by
  refine ⟨⟨v, getElem?_snoc.mpr (.inr ⟨rfl, rfl⟩), hv⟩, fun j hj hnull => ?_,
    fun j w hj hw hn => ?_⟩
  · have := lt_length_of_getElem? hnull
    simp at this
    omega
  · rcases getElem?_snoc.mp hw with hw | ⟨rfl, -⟩
    · obtain ⟨i, u, hji, hi, hlast⟩ := exists_last hw
      obtain rfl : u = .null := absent u ⟨i, hi, hlast⟩
      have : j ≠ i := by
        rintro rfl
        rw [hw] at hi
        exact hn (congrArg Prod.snd (Option.some.inj hi))
      have := lt_length_of_getElem? hi
      exact ⟨i, by omega, by omega, getElem?_snoc.mpr (.inl hi)⟩
    · omega

/-! ### One more write -/

variable {a : Record}

theorem lastWrites_nil : LastWrites [] [] := by
  refine ⟨fun k v => ⟨nofun, ?_⟩, List.nodup_nil, List.forall_mem_nil _, .nil⟩
  rintro ⟨⟨i, hi, -⟩, -⟩
  cases hi

theorem LastWrites.drop (h : LastWrites E a) (key : String) :
    LastWrites (E ++ [(.str key, .null)]) (Record.drop key a) := by
  have others : ∀ l ∈ (Record.drop key a).map Prod.fst, l ≠ .str key := by
    intro l hl
    obtain ⟨e, he, rfl⟩ := List.mem_map.mp hl
    exact (mem_drop.mp he).2
  have stays {l : Value} {i : Nat} (hl : l ∈ (Record.drop key a).map Prod.fst)
      (hi : Enters E l i) : Enters (E ++ [(.str key, .null)]) l i :=
    hi.snoc (.inl fun e => others l hl e.symm)
  refine ⟨fun k v => ?_, h.distinct.sublist (keys_drop_sublist key a), fun l hl => ?_, ?_⟩
  · rw [mem_drop, h.mem]
    by_cases hk : k = .str key
    · subst hk
      rw [last_snoc_self]
      constructor
      · rintro ⟨-, hne⟩
        exact absurd rfl hne
      · rintro ⟨rfl, hne⟩
        exact absurd rfl hne
    · rw [last_snoc_of_ne hk]
      exact and_iff_left hk
  · obtain ⟨i, hi⟩ := h.enters l ((keys_drop_sublist key a).mem hl)
    exact ⟨i, stays hl hi⟩
  · refine List.Pairwise.imp_of_mem ?_ (h.order.sublist (keys_drop_sublist key a))
    rintro k l hk hl ⟨i, j, hi, hj, hij⟩
    exact ⟨i, j, stays hk hi, stays hl hj, hij⟩

/-- A key that is not left comes in with its next value, behind all that came in before. -/
theorem LastWrites.comesIn (h : LastWrites E a) {key : String} (hk : hasKey key a ≠ true)
    (hv : v ≠ .null) : Enters (E ++ [(.str key, v)]) (.str key) E.length := by
  refine enters_length (fun w hw => ?_) hv
  by_contra hne
  have left : (Value.str key, w) ∈ a := (h.mem _ w).mpr ⟨hw, hne⟩
  exact hk (hasKey_iff.mpr (List.mem_map.mpr ⟨_, left, rfl⟩))

theorem LastWrites.put (h : LastWrites E a) (key : String) (hv : v ≠ .null) :
    LastWrites (E ++ [(.str key, v)]) (Record.put key v a) := by
  have stays {l : Value} {i : Nat} (hi : Enters E l i) : Enters (E ++ [(.str key, v)]) l i :=
    hi.snoc (.inr hv)
  have kept : (a.map Prod.fst).Pairwise fun k l =>
      ∃ i j, Enters (E ++ [(.str key, v)]) k i ∧ Enters (E ++ [(.str key, v)]) l j ∧ i < j := by
    refine h.order.imp ?_
    rintro k l ⟨i, j, hi, hj, hij⟩
    exact ⟨i, j, stays hi, stays hj, hij⟩
  refine ⟨fun k w => ?_, nodup_keys_put h.distinct, fun l hl => ?_, ?_⟩
  · rw [mem_put h.distinct, h.mem]
    by_cases hk : k = .str key
    · subst hk
      rw [last_snoc_self]
      constructor
      · rintro (e | ⟨-, hne⟩)
        · rw [Prod.mk.injEq] at e
          exact ⟨e.2, e.2 ▸ hv⟩
        · exact absurd rfl hne
      · rintro ⟨rfl, -⟩
        exact .inl rfl
    · rw [last_snoc_of_ne hk]
      constructor
      · rintro (e | ⟨hw, -⟩)
        · exact absurd (congrArg Prod.fst e) hk
        · exact hw
      · exact fun hw => .inr ⟨hw, hk⟩
  · rw [keys_put] at hl
    by_cases hk : hasKey key a = true
    · rw [if_pos hk] at hl
      obtain ⟨i, hi⟩ := h.enters l hl
      exact ⟨i, stays hi⟩
    · rw [if_neg hk, List.mem_append, List.mem_singleton] at hl
      rcases hl with hl | rfl
      · obtain ⟨i, hi⟩ := h.enters l hl
        exact ⟨i, stays hi⟩
      · exact ⟨E.length, h.comesIn hk hv⟩
  · rw [keys_put]
    by_cases hk : hasKey key a = true
    · rwa [if_pos hk]
    · rw [if_neg hk, List.pairwise_append]
      refine ⟨kept, List.pairwise_singleton _ _, fun k hmem l hl => ?_⟩
      rw [List.mem_singleton] at hl
      obtain ⟨i, hi⟩ := h.enters k hmem
      exact ⟨i, E.length, stays hi, hl ▸ h.comesIn hk hv, hi.lt_length⟩

/-- **One more entry** under a text key changes what is left as one more write does. -/
theorem LastWrites.write (h : LastWrites E a) (key : String) (v : Value) :
    LastWrites (E ++ [(.str key, v)]) (a.write (.str key, v)) := by
  by_cases hv : v = .null
  · subst hv
    exact h.drop key
  · have written : a.write (.str key, v) = Record.put key v a := by
      cases v with
      | null => exact absurd rfl hv
      | _ => rfl
    rw [written]
    exact h.put key hv

/-- Every key is a text. -/
def TextKeys (E : Record) : Prop := ∀ e ∈ E, ∃ key, e.1 = .str key

/-- **A run of writes** leaves what its entries come to, behind those written before. -/
theorem LastWrites.writeAll (h : LastWrites E a) {more : Record} (ht : TextKeys more) :
    LastWrites (E ++ more) (a.writeAll more) := by
  induction more generalizing E a with
  | nil => rwa [List.append_nil]
  | cons e more ih =>
    obtain ⟨k, v⟩ := e
    obtain ⟨⟨key, rfl⟩, rest⟩ := List.forall_mem_cons.mp ht
    have := ih (h.write key v) rest
    rwa [List.append_assoc] at this

/-! ## Nothing else is left -/

/-- **What is left is determined by the writes**, the order included. -/
theorem LastWrites.unique {b : Record} (ha : LastWrites E a) (hb : LastWrites E b) : a = b := by
  have same : ∀ e, e ∈ a ↔ e ∈ b := fun (k, v) => (ha.mem k v).trans (hb.mem k v).symm
  have perm : a.Perm b :=
    (List.perm_ext_iff_of_nodup (.of_map _ ha.distinct) (.of_map _ hb.distinct)).mpr same
  refine perm.eq_of_pairwise ?_ (List.pairwise_map.mp ha.order) (List.pairwise_map.mp hb.order)
  rintro e f - - ⟨i, j, hi, hj, hij⟩ ⟨i', j', hi', hj', hij'⟩
  obtain rfl := hi.unique hj'
  obtain rfl := hj.unique hi'
  omega

end Hypertext.Record
