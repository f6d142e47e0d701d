import Cbor.Text

/-!
# JSON trees

JSON values.  An object keeps its members as they stand, repeated names included.
-/

namespace Cbor

inductive Json where
  | null
  | bool (truth : Bool)
  | integer (value : Int)
  /-- A number that is no 64-bit integer, as the bits of a double. -/
  | double (bits : UInt64)
  | string (text : Text)
  | array (elements : List Json)
  | object (members : List (Text × Json))
  deriving Repr, Inhabited

inductive JsonFault where
  | early
  | malformed
  /-- The text is JSON up to here, but of another shape. -/
  | mismatched
  deriving DecidableEq, Repr

namespace JsonFault

def category : JsonFault → Text
  | .early => "eof".toList
  | .malformed => "syntax".toList
  | .mismatched => "data".toList

end JsonFault

end Cbor
