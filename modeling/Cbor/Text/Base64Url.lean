import Cbor.Bytes
import Cbor.Text

/-!
# Base64 for URLs

Three bytes are four digits of six bits each.  Digits that would hold no bits are left out.
-/

namespace Cbor.Base64Url

def digit (number : Nat) : Char :=
  if number < 26 then Char.ofNat ('A'.toNat + number)
  else if number < 52 then Char.ofNat ('a'.toNat + (number - 26))
  else if number < 62 then Char.ofNat ('0'.toNat + (number - 52))
  else if number = 62 then '-'
  else '_'

def digits : (count : Nat) → Nat → Text
  | 0, _ => []
  | count + 1, number => digits count (number / 64) ++ [digit (number % 64)]

/-- The digits of groups of three bytes, in reverse order. -/
def encodeOnto (found : Text) : Bytes → Text
  | [] => found
  | [a] => (digits 2 (a.toNat * 16)).reverse ++ found
  | [a, b] => (digits 3 ((a.toNat * 256 + b.toNat) * 4)).reverse ++ found
  | a :: b :: c :: rest =>
      encodeOnto ((digits 4 ((a.toNat * 256 + b.toNat) * 256 + c.toNat)).reverse ++ found) rest

def encode (bytes : Bytes) : Text := (encodeOnto [] bytes).reverse

end Cbor.Base64Url
