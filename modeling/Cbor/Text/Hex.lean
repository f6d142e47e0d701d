import Cbor.Text.Blank
import Cbor.Text.Described
import Cbor.Text.Utf8

/-!
# Hexadecimal

Two digits for each byte, the high one first.  Digits are written in lower case and read in
either case.
-/

namespace Cbor

/-- Why a text is not hexadecimal; positions count the bytes of its UTF-8 form. -/
inductive HexError where
  | oddLength
  | invalidDigit (byte : UInt8) (position : Nat)
  deriving DecidableEq, Repr

namespace HexError

/-- The faulty byte is shown as a Latin-1 character. -/
def message : HexError → Text
  | .oddLength => "Odd number of digits".toList
  | .invalidDigit byte position =>
      "Invalid character '".toList ++ Text.describeChar '\'' (Char.ofNat byte.toNat) ++
        "' at position ".toList ++ Text.ofNat position

end HexError

namespace Hex

def encode (bytes : Bytes) : Text :=
  bytes.flatMap fun byte => [Text.hexDigit (byte.toNat / 16), Text.hexDigit (byte.toNat % 16)]

def digit? (code : Nat) : Option Nat :=
  if 0x30 ≤ code ∧ code ≤ 0x39 then some (code - 0x30)
  else if 0x41 ≤ code ∧ code ≤ 0x46 then some (code - 0x41 + 10)
  else if 0x61 ≤ code ∧ code ≤ 0x66 then some (code - 0x61 + 10)
  else none

def readPairs (position : Nat) (found : Bytes) : Bytes → Except HexError Bytes
  | [] => .ok found.reverse
  | [_] => .error .oddLength
  | first :: second :: rest =>
      match digit? first.toNat, digit? second.toNat with
      | none, _ => .error (.invalidDigit first position)
      | some _, none => .error (.invalidDigit second (position + 1))
      | some high, some low => readPairs (position + 2) (UInt8.ofNat (16 * high + low) :: found) rest

def decode (text : Text) : Except HexError Bytes :=
  let digits := Utf8.encode text
  if digits.length % 2 = 0 then readPairs 0 [] digits else .error .oddLength

def decodeSpaced (text : Text) : Except HexError Bytes := decode (Text.withoutBlanks text)

end Hex

end Cbor
