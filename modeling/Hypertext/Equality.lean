import Hypertext.Value
import Hypertext.Number

/-!
# Equality and digests

Two nodes are equal when they are of one kind and their fields are equal; the order of entries in a
record or among attributes does not count. Numbers of all types are compared by value. What has an
identity equals itself only.

The digest of a node forgets its kind and its attributes: it is the tuple of the other fields, with
every child replaced by its own digest. Lists, records and mutable bytes have none.

* `Value.same`, `Node.same`: equality, for nodes field by field, as their data classes have it.
* `Value.digest`, `Node.digest`: what `hash` depends on. The attributes of an `Element` are declared
  with `hash=False`. `Node.sameDigest` compares digests.

Left out: the hash function itself. Unequal digests are taken to have unequal hashes.
-/

namespace Hypertext

open Text (Decimal)

/-! ## Equality -/

namespace Value

/-- The number that a value is, if it is a finite one. -/
def number? : Value → Option Number
  | .bool b => some (.ofInt (if b then 1 else 0))
  | .int i => some (.ofInt i)
  | .float text => (Decimal.ofText? text).map .nearest
  | _ => none

/-- How many numbers are in a range. -/
def rangeLength (start stop : Int) : Nat := (stop - start).toNat

/-- Equality of numbers. Floats that are not finite are told apart by their texts. -/
def sameNumber (a b : Value) : Bool :=
  match a.number?, b.number? with
  | some x, some y => x.same y
  | none, none =>
    match a, b with
    | .float x, .float y => x == y
    | _, _ => false
  | _, _ => false

/-- Equality of values that hold no others. -/
def sameScalar : Value → Value → Bool
  | .null, .null => true
  | .str a, .str b => a == b
  | .bytes a, .bytes b | .bytes a, .byteArray b | .byteArray a, .bytes b
  | .byteArray a, .byteArray b => a == b
  | .range a b, .range c d =>
    rangeLength a b == rangeLength c d && (rangeLength a b == 0 || a == c)
  | .nan a, .nan b => a == b
  | .opaqueObject a, .opaqueObject b => a == b
  | .component a, .component b => a == b
  | .stream a _, .stream b _ => a == b
  | .error a _, .error b _ => a == b
  | a, b => a.sameNumber b

end Value

mutual

/-- The two values are equal. -/
def Value.same : Value → Value → Bool
  | .list a, .list b => sameAll a b
  | .tuple a, .tuple b => sameAll a b
  | .record a, .record b => a.length == b.length && covered a b
  | .node a, .node b => a.same b
  | a, b => a.sameScalar b
  termination_by structural a => a

/-- The two nodes are equal. -/
def Node.same : Node → Node → Bool
  | .text a, .text b => a.same b
  | .comment a, .comment b => a.same b
  | .raw a, .raw b => a.same b
  | .doctype a, .doctype b => a.same b
  | .element n a c, .element n' a' c' =>
    n.same n' && (a.length == a'.length && covered a a') && sameAll c c'
  | .fragment c, .fragment c' => sameAll c c'
  | _, _ => false
  termination_by structural a => a

/-- The values are equal one by one. -/
def sameAll : List Value → List Value → Bool
  | [], [] => true
  | a :: as, b :: bs => a.same b && sameAll as bs
  | _, _ => false
  termination_by structural as => as

/-- Each of the entries has an equal among the others. -/
def covered : List (Value × Value) → List (Value × Value) → Bool
  | [], _ => true
  | (k, v) :: rest, others => others.any (fun o => k.same o.1 && v.same o.2) && covered rest others
  termination_by structural as => as

end

/-! ## Digests -/

/-- The bytes of a number, the lowest first. -/
def lowFirst : Nat → Nat → List UInt8
  | 0, _ => []
  | width + 1, n => UInt8.ofNat n :: lowFirst width (n / 256)

/-- The bytes that a text is digested by: each character takes as many as the widest one needs, of
one, two and four. -/
def textOctets (s : String) : List UInt8 :=
  let top := s.toList.foldl (fun m c => max m c.toNat) 0
  let width := if top < 0x100 then 1 else if top < 0x10000 then 2 else 4
  s.toList.flatMap fun c => lowFirst width c.toNat

namespace Value

/-- The digest of bytes. No bytes are digested as zero is. -/
def octetsDigest (octets : List UInt8) : Value :=
  if octets.isEmpty then .int 0 else .bytes octets

/-- The digest of a number. -/
def numberDigest (n : Number) : Value := .int n.residue

/-- The digest of a range: its length, its start if it has one, and its step if it takes one. -/
def rangeDigest (start stop : Int) : Value :=
  let size (i : Int) : Value := numberDigest (.ofInt i)
  match rangeLength start stop with
  | 0 => .tuple [size 0, .null, .null]
  | 1 => .tuple [size 1, size start, .null]
  | n => .tuple [size n, size start, size 1]

/-- The digest of a value that holds no others. Infinities have digests of their own. -/
def scalarDigest : Value → Value
  | .str s => octetsDigest (textOctets s)
  | .bytes octets => octetsDigest octets
  | .range start stop => rangeDigest start stop
  | .float "inf" => .int 314159
  | .float "-inf" => .int (-314159)
  | v => (v.number?.map numberDigest).getD v

end Value

mutual

/-- What a value's hash depends on. -/
def Value.digest : Value → Except Misuse Value
  | .byteArray octets => .error (.notHashable (Value.byteArray octets).typeName)
  | .list items => .error (.notHashable (Value.list items).typeName)
  | .record entries => .error (.notHashable (Value.record entries).typeName)
  | .tuple items => do return .tuple (← digests items)
  | .node n => n.digest
  | v => .ok v.scalarDigest

/-- What a node's hash depends on: its name, payload and children, but neither its kind nor its
attributes. -/
def Node.digest : Node → Except Misuse Value
  | .text v => do return .tuple [← v.digest]
  | .comment v => do return .tuple [← v.digest]
  | .raw v => do return .tuple [← v.digest]
  | .doctype v => do return .tuple [← v.digest]
  | .element name _ children => do return .tuple [← name.digest, .tuple (← digests children)]
  | .fragment children => do return .tuple [.tuple (← digests children)]

/-- The digests of several values. -/
def digests : List Value → Except Misuse (List Value)
  | [] => .ok []
  | v :: rest => do
    let first ← v.digest
    let others ← digests rest
    return first :: others

end

/-- The two nodes have equal digests. -/
def Node.sameDigest (a b : Node) : Except Misuse Bool := do
  let x ← a.digest
  let y ← b.digest
  return x.same y

end Hypertext
