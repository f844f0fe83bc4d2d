import Mathlib.Data.List.Induction
import Mathlib.Data.List.Nodup
import Hypertext.Record

/-!
# Records listed by their keys

What a sequence of writes comes to can be said without going through it: a list of keys, each in the
place of its first arrival, and a value for each key.

* `eraseDups_concat`, `nodup_eraseDups`: the keys of a sequence with one more.
* `put_keyed`: one more write to a record that is listed by its keys.
-/

namespace Hypertext.Record

theorem eraseDups_concat (keys : List String) (key : String) : (keys ++ [key]).eraseDups =
    if key ∈ keys.eraseDups then keys.eraseDups else keys.eraseDups ++ [key] := by
  have split : (keys ++ [key]).eraseDups =
      keys.eraseDups ++ ([key].removeAll keys).eraseDups := List.eraseDups_append
  rw [split]
  by_cases h : key ∈ keys.eraseDups
  · rw [if_pos h]
    simp [List.removeAll, List.mem_eraseDups.mp h]
  · have new : key ∉ keys := fun hm => h (List.mem_eraseDups.mpr hm)
    have kept : [key].removeAll keys = [key] := by simp [List.removeAll, new]
    rw [if_neg h, kept]
    rfl

theorem nodup_eraseDups (keys : List String) : keys.eraseDups.Nodup := by
  induction keys using List.reverseRecOn with
  | nil => exact List.nodup_nil
  | append_singleton keys key ih =>
    rw [eraseDups_concat]
    by_cases h : key ∈ keys.eraseDups
    · rwa [if_pos h]
    · rw [if_neg h]
      refine List.nodup_append.mpr ⟨ih, List.nodup_singleton _, fun k hk l hl => ?_⟩
      rw [List.mem_singleton] at hl
      rintro rfl
      exact h (hl ▸ hk)

/-- The entries of a record whose keys are listed. -/
def keyed (f : String → Value) (keys : List String) : Record :=
  keys.map fun key => (.str key, f key)

theorem find_keyed {key : String} (f : String → Value) (keys : List String) :
    Record.find key (keyed f keys) = if key ∈ keys then some (f key) else none := by
  induction keys with
  | nil => rfl
  | cons k keys ih =>
    show Record.find key ((.str k, f k) :: keyed f keys) = _
    by_cases h : k = key
    · subst h
      simp [Record.find, Value.isKey]
    · simp [Record.find, Value.isKey, h, ih, Ne.symm h]

/-- Writing changes the value of its own key only, which comes in at the end if it is new. -/
theorem put_keyed {key : String} {f g : String → Value} (hg : ∀ k, k ≠ key → g k = f k)
    {keys : List String} (hd : keys.Nodup) : Record.put key (g key) (keyed f keys) =
      keyed g (if key ∈ keys then keys else keys ++ [key]) := by
  have same : ∀ ks : List String, key ∉ ks → keyed f ks = keyed g ks := fun ks h =>
    List.map_congr_left fun k hk => by
      rw [hg k fun e => h (e ▸ hk)]
  induction keys with
  | nil => rfl
  | cons k keys ih =>
    obtain ⟨hk, hd⟩ := List.nodup_cons.mp hd
    show Record.put key (g key) ((.str k, f k) :: keyed f keys) = _
    by_cases h : k = key
    · subst h
      rw [Record.put, if_pos (by simp [Value.isKey]), if_pos List.mem_cons_self, same keys hk]
      rfl
    · rw [Record.put, if_neg (by simp [Value.isKey, h]), ih hd, ← hg k h]
      by_cases hm : key ∈ keys
      · simp [hm, keyed]
      · simp [hm, keyed, Ne.symm h]

end Hypertext.Record
