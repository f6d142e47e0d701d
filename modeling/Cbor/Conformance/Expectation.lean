import Cbor.Item.Entries
import Cbor.Json
import Cbor.Text.Described
import Cbor.Text.Utf8

/-!
# Expectations

The recorded form of an item.  It keeps floats as bit patterns and a negative integer as the
argument of its head; text is read as UTF-8, so that different items may have one form.
-/

namespace Cbor

/-- The entries of a `map` stand in ascending order of their keys. -/
inductive Expectation where
  | unsigned (number : UInt64)
  /-- The negative integer `-1 - argument`. -/
  | negative (argument : UInt64)
  | bytes (content : Bytes)
  | text (content : Text)
  | array (items : List Expectation)
  | map (entries : List (Text × Expectation))
  | tagged (tag : UInt64) (content : Expectation)
  | bool (truth : Bool)
  | null
  | undefined
  | single (bits : UInt32)
  | double (bits : UInt64)
  deriving Repr, Inhabited

namespace Expectation

/-! ## Equality -/

mutual

def same : Expectation → Expectation → Bool
  | .unsigned m, .unsigned n => m == n
  | .negative m, .negative n => m == n
  | .bytes a, .bytes b => a == b
  | .text a, .text b => a == b
  | .array xs, .array ys => sameItems xs ys
  | .map xs, .map ys => sameEntries xs ys
  | .tagged s x, .tagged t y => s == t && same x y
  | .bool a, .bool b => a == b
  | .null, .null => true
  | .undefined, .undefined => true
  | .single a, .single b => a == b
  | .double a, .double b => a == b
  | _, _ => false

def sameItems : List Expectation → List Expectation → Bool
  | [], [] => true
  | x :: xs, y :: ys => same x y && sameItems xs ys
  | _, _ => false

def sameEntries : List (Text × Expectation) → List (Text × Expectation) → Bool
  | [], [] => true
  | (k, x) :: xs, (l, y) :: ys => k == l && same x y && sameEntries xs ys
  | _, _ => false

end

mutual

theorem same_iff : ∀ x y : Expectation, same x y = true ↔ x = y
  | .array xs, y => by cases y <;> simp [same, sameItems_iff xs]
  | .map xs, y => by cases y <;> simp [same, sameEntries_iff xs]
  | .tagged _ x, y => by cases y <;> simp [same, same_iff x]
  | .unsigned _, y | .negative _, y | .bytes _, y | .text _, y | .bool _, y
  | .null, y | .undefined, y | .single _, y | .double _, y => by cases y <;> simp [same]

theorem sameItems_iff : ∀ xs ys : List Expectation, sameItems xs ys = true ↔ xs = ys
  | [], ys => by cases ys <;> simp [sameItems]
  | x :: xs, ys => by cases ys <;> simp [sameItems, same_iff x, sameItems_iff xs]

theorem sameEntries_iff : ∀ xs ys : List (Text × Expectation), sameEntries xs ys = true ↔ xs = ys
  | [], ys => by cases ys <;> simp [sameEntries]
  | (k, x) :: xs, ys => by
      cases ys <;> simp [sameEntries, same_iff x, sameEntries_iff xs, Prod.ext_iff]

end

instance : DecidableEq Expectation := fun x y => decidable_of_iff _ (same_iff x y)

/-! ## The form of an item -/

mutual

/-- The recorded form of an item.  Keys that become one text keep the value of the last of them. -/
def ofItem : Item → Expectation
  | .unsigned number => .unsigned number
  | .negative magnitude => .negative (magnitude - 1)
  | .bytes content => .bytes content
  | .text content => .text (Utf8.lossy content)
  | .array items => .array (ofItems items)
  | .map entries => .map (Entries.ofPairs (ofEntries entries))
  | .tagged tag content => .tagged tag (ofItem content)
  | .bool truth => .bool truth
  | .null => .null
  | .undefined => .undefined
  | .single bits => .single bits
  | .double bits => .double bits

def ofItems : List Item → List Expectation
  | [] => []
  | item :: items => ofItem item :: ofItems items

def ofEntries : List (Bytes × Item) → List (Text × Expectation)
  | [] => []
  | (key, value) :: entries => (Utf8.lossy key, ofItem value) :: ofEntries entries

end

theorem ofEntries_eq_map (entries : List (Bytes × Item)) :
    ofEntries entries = entries.map fun entry => (Utf8.lossy entry.1, ofItem entry.2) := by
  induction entries with
  | nil => rfl
  | cons entry entries ih => simp [ofEntries, ih]

/-! ## Description -/

def applied (name : String) (argument : Text) : Text :=
  name.toList ++ '(' :: argument ++ [')']

mutual

def describe : Expectation → Text
  | .unsigned number => applied "Uint" (Text.ofNat number.toNat)
  | .negative argument => applied "Negint" (Text.ofNat argument.toNat)
  | .bytes content =>
      applied "ByteString"
        ('[' :: Text.join ", ".toList (content.map fun byte => Text.ofNat byte.toNat) ++ [']'])
  | .text content => applied "String" (Text.described content)
  | .array items => applied "List" ('[' :: Text.join ", ".toList (describeItems items) ++ [']'])
  | .map entries =>
      applied "Map" ('{' :: Text.join ", ".toList (describeEntries entries) ++ ['}'])
  | .tagged tag content =>
      applied "Tag"
        ("ExpectTag \x7b id: ".toList ++ Text.ofNat tag.toNat ++ ", value: ".toList ++
          describe content ++ " \x7d".toList)
  | .bool true => applied "Bool" "true".toList
  | .bool false => applied "Bool" "false".toList
  | .null => applied "Null" "Empty".toList
  | .undefined => applied "Undefined" "Empty".toList
  | .single bits => applied "Float32" (Text.ofNat bits.toNat)
  | .double bits => applied "Float64" (Text.ofNat bits.toNat)

def describeItems : List Expectation → List Text
  | [] => []
  | item :: items => describe item :: describeItems items

def describeEntries : List (Text × Expectation) → List Text
  | [] => []
  | (key, value) :: entries =>
      (Text.described key ++ ": ".toList ++ describe value) :: describeEntries entries

end

end Expectation

end Cbor
