import Hypertext.Value

/-!
# Records

A record is a `dict`, and any other mapping: it lists its entries in the order in which the keys
first came in. Attributes are written under text keys: `put` on a key that is present keeps the
key's place and changes its value; `drop` forgets the key (`pop`), so that a later `put` sends it
to the end.

* `find_put`, `find_drop`: what the two operations do to a look-up.
-/

namespace Hypertext

/-- The value is the text `key`. -/
def Value.isKey (key : String) : Value → Bool
  | .str s => s == key
  | _ => false

/-- Entries in the order of their keys' first arrival. -/
abbrev Record := List (Value × Value)

namespace Record

/-- Give `key` the value `value`, in the key's place if it has one and at the end otherwise. -/
def put (key : String) (value : Value) : Record → Record
  | [] => [(.str key, value)]
  | (k, v) :: rest => if k.isKey key then (k, value) :: rest else (k, v) :: put key value rest

/-- Forget `key`. -/
def drop (key : String) (r : Record) : Record := r.filter fun e => !e.1.isKey key

/-- The value of `key`. -/
def find (key : String) : Record → Option Value
  | [] => none
  | (k, v) :: rest => if k.isKey key then some v else find key rest

/-- There is an entry for `key`. -/
def hasKey (key : String) (r : Record) : Bool := r.any fun e => e.1.isKey key

theorem isKey_iff {key : String} {v : Value} : v.isKey key = true ↔ v = .str key := by
  cases v <;> simp [Value.isKey]

theorem find_put (key : String) (value : Value) (k : String) : ∀ r : Record,
    find k (put key value r) = if key = k then some value else find k r
  | [] => by simp [put, find, Value.isKey]
  | (k', v) :: rest => by
    have ih := find_put key value k rest
    have h1 := @isKey_iff key k'
    have h2 := @isKey_iff k k'
    grind [put, find]

theorem find_drop (key k : String) : ∀ r : Record,
    find k (drop key r) = if key = k then none else find k r
  | [] => by simp [drop, find]
  | (k', v) :: rest => by
    have ih := find_drop key k rest
    have h1 := @isKey_iff key k'
    have h2 := @isKey_iff k k'
    grind [drop, find]

end Record

end Hypertext
