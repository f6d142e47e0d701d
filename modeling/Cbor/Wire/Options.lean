import Cbor.Json.Shape
import Cbor.Wire.Item

/-!
# Options in JSON

The decoding options as an object with the member `max_depth`, which takes its default where it
is missing.
-/

namespace Cbor.Options

def toJson (options : Options) : Json :=
  .object [("max_depth".toList, .integer options.maxDepth.toNat)]

def maxDepthField : Json.Field (Option UInt64) where
  name := "max_depth".toList
  isSet := Option.isSome
  read := fun _ text => do
    let (depth, text) ← Json.readNatural UInt64.size text
    .ok (some (UInt64.ofNat depth), text)

def read : Json.Reader Options :=
  Json.readStructure true [maxDepthField] none fun depth =>
    some { maxDepth := depth.getD ({} : Options).maxDepth }

def parse (text : Text) : Except JsonFault Options := Json.whole read text

end Cbor.Options
