import Cbor.Text

/-!
# Decoding errors

Why bytes are not an item.  Every cause has one text.
-/

namespace Cbor

inductive DecodeError where
  | argumentTooShort (width : Nat)
  | invalidInfo (info : Nat)
  /-- A float of `width` bits is cut. -/
  | incompleteFloat (width : Nat)
  | contentTooShort (length : Nat)
  | expectedBreak
  | unexpectedChunkType (major : Nat)
  | nestedIndefiniteChunk
  | unexpectedEnd
  | unexpectedKeyType (major : Nat)
  | inChunk (cause : DecodeError)
  | negativeOverflow
  | depthExceeded (limit : Nat)
  deriving DecidableEq, Repr, Inhabited

namespace DecodeError

def message : DecodeError → Text
  | .argumentTooShort width =>
      "arg len ".toList ++ Text.ofNat width ++ " greater than remaining buf len".toList
  | .invalidInfo info => "unexpected minor value ".toList ++ Text.ofNat info
  | .incompleteFloat width =>
      "incomplete float".toList ++ Text.ofNat width ++ " at end of buf".toList
  | .contentTooShort length =>
      "slice len ".toList ++ Text.ofNat length ++ " greater than remaining buf len".toList
  | .expectedBreak => "expected break marker".toList
  | .unexpectedChunkType major =>
      "unexpected major type ".toList ++ Text.ofNat major ++ " in indefinite slice".toList
  | .nestedIndefiniteChunk => "nested indefinite slice".toList
  | .unexpectedEnd => "unexpected end of payload".toList
  | .unexpectedKeyType major =>
      "unexpected major type ".toList ++ Text.ofNat major ++ " for map key".toList
  | .inChunk cause => "decode subslice: ".toList ++ cause.message
  | .negativeOverflow => "negative integer magnitude exceeds 64 bits".toList
  | .depthExceeded limit =>
      "maximum nesting depth ".toList ++ Text.ofNat limit ++ " exceeded".toList

def innermost : DecodeError → DecodeError
  | .inChunk cause => cause.innermost
  | error => error

end DecodeError

end Cbor
