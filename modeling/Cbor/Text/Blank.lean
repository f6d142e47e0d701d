import Cbor.Text

/-!
# Blank characters

The characters with the White_Space property.
-/

namespace Cbor.Text

def isBlank (c : Char) : Bool :=
  let code := c.toNat
  (0x09 ≤ code && code ≤ 0x0D) || code == 0x20 || code == 0x85 || code == 0xA0 ||
    code == 0x1680 || (0x2000 ≤ code && code ≤ 0x200A) || code == 0x2028 || code == 0x2029 ||
    code == 0x202F || code == 0x205F || code == 0x3000

def withoutBlanks (text : Text) : Text := text.filter fun c => !isBlank c

end Cbor.Text
