import Cbor.Bytes

/-!
# Data items

The data model: what one CBOR item says, apart from how it was spelled on the wire.  Text is
kept as raw bytes, since a text string is not checked to be UTF-8, and floats are kept as bit
patterns, so that equality tells NaN payloads and the two zeros apart.
-/

namespace Cbor

/--
One data item.  `negative magnitude` is `-magnitude`; the entries of a `map` are keyed by the
raw bytes of text strings and stand in ascending order of their keys.
-/
inductive Item where
  | unsigned (number : UInt64)
  | negative (magnitude : UInt64)
  | bytes (content : Bytes)
  | text (content : Bytes)
  | array (items : List Item)
  | map (entries : List (Bytes × Item))
  | tagged (tag : UInt64) (content : Item)
  | bool (truth : Bool)
  | null
  | undefined
  | single (bits : UInt32)
  | double (bits : UInt64)
  deriving Repr, Inhabited

namespace Item

/-! ## Equality -/

mutual

/-- Decides equality of items, floats by their bits. -/
def same : Item → Item → Bool
  | .unsigned m, .unsigned n => m == n
  | .negative m, .negative n => m == n
  | .bytes a, .bytes b => a == b
  | .text a, .text b => a == b
  | .array xs, .array ys => sameItems xs ys
  | .map xs, .map ys => sameEntries xs ys
  | .tagged s x, .tagged t y => s == t && same x y
  | .bool a, .bool b => a == b
  | .null, .null => true
  | .undefined, .undefined => true
  | .single a, .single b => a == b
  | .double a, .double b => a == b
  | _, _ => false

def sameItems : List Item → List Item → Bool
  | [], [] => true
  | x :: xs, y :: ys => same x y && sameItems xs ys
  | _, _ => false

def sameEntries : List (Bytes × Item) → List (Bytes × Item) → Bool
  | [], [] => true
  | (k, x) :: xs, (l, y) :: ys => k == l && same x y && sameEntries xs ys
  | _, _ => false

end

mutual

theorem same_iff : ∀ x y : Item, same x y = true ↔ x = y
  | .array xs, y => by cases y <;> simp [same, sameItems_iff xs]
  | .map xs, y => by cases y <;> simp [same, sameEntries_iff xs]
  | .tagged _ x, y => by cases y <;> simp [same, same_iff x]
  | .unsigned _, y | .negative _, y | .bytes _, y | .text _, y | .bool _, y
  | .null, y | .undefined, y | .single _, y | .double _, y => by cases y <;> simp [same]

theorem sameItems_iff : ∀ xs ys : List Item, sameItems xs ys = true ↔ xs = ys
  | [], ys => by cases ys <;> simp [sameItems]
  | x :: xs, ys => by cases ys <;> simp [sameItems, same_iff x, sameItems_iff xs]

theorem sameEntries_iff : ∀ xs ys : List (Bytes × Item), sameEntries xs ys = true ↔ xs = ys
  | [], ys => by cases ys <;> simp [sameEntries]
  | (k, x) :: xs, ys => by
      cases ys <;> simp [sameEntries, same_iff x, sameEntries_iff xs, Prod.ext_iff]

end

instance : DecidableEq Item := fun x y => decidable_of_iff _ (same_iff x y)

/-! ## Views -/

def kindName : Item → String
  | .unsigned _ => "Unsigned Integer"
  | .negative _ => "Negative Integer"
  | .bytes _ => "Byte String"
  | .text _ => "Text String"
  | .array _ => "List"
  | .map _ => "Map"
  | .tagged _ _ => "Tag"
  | .bool _ => "Boolean"
  | .null => "Null"
  | .undefined => "Undefined"
  | .single _ => "Float32"
  | .double _ => "Float64"

def toInt? : Item → Option Int
  | .unsigned number => some number.toNat
  | .negative magnitude => some (-(magnitude.toNat : Int))
  | _ => none

def content? : Item → Option Bytes
  | .bytes content | .text content => some content
  | _ => none

def isNull : Item → Bool
  | .null => true
  | _ => false

end Item

end Cbor
