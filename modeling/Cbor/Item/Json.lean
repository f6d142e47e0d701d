import Cbor.Item.Entries
import Cbor.Json.Written
import Cbor.Text.Base64Url
import Cbor.Text.Utf8

/-!
# Items in JSON

The JSON that comes nearest to an item.  Byte strings become base64 texts, tags are dropped, and
what has no JSON value is null.
-/

namespace Cbor

namespace Json

def ofDouble (bits : UInt64) : Json :=
  match FloatValue.ofBits .double bits.toNat with
  | .nan | .infinite _ => .null
  | _ => .double bits

/-- The negative integer of a magnitude; one beyond 2^63 becomes the nearest double. -/
def ofMagnitude (magnitude : UInt64) : Json :=
  if magnitude.toNat ≤ UInt64.size / 2 then .integer (-(magnitude.toNat : Int))
  else .double (UInt64.ofNat (FloatFormat.double.negated (FloatFormat.double.ofNat magnitude.toNat)))

end Json

namespace Item

mutual

/-- The JSON of an item.  Keys that become one text keep the value of the last of them. -/
def toJson : Item → Json
  | .unsigned number => .integer number.toNat
  | .negative magnitude => .ofMagnitude magnitude
  | .bytes content => .string (Base64Url.encode content)
  | .text content => .string (Utf8.lossy content)
  | .array items => .array (itemsToJson items)
  | .map entries => .object (Entries.ofPairs (entriesToJson entries))
  | .tagged _ content => toJson content
  | .bool truth => .bool truth
  | .null | .undefined => .null
  | .single bits => .ofDouble (UInt64.ofNat (FloatFormat.single.widen .double bits.toNat))
  | .double bits => .ofDouble bits

def itemsToJson : List Item → List Json
  | [] => []
  | item :: items => toJson item :: itemsToJson items

def entriesToJson : List (Bytes × Item) → List (Text × Json)
  | [] => []
  | (key, value) :: entries => (Utf8.lossy key, toJson value) :: entriesToJson entries

end

theorem entriesToJson_eq_map (entries : List (Bytes × Item)) :
    entriesToJson entries = entries.map fun entry => (Utf8.lossy entry.1, toJson entry.2) := by
  induction entries with
  | nil => rfl
  | cons entry entries ih => simp [entriesToJson, ih]

end Item

end Cbor
