/-!
# Texts

Texts as lists of characters, and the small pieces they are written from.
-/

namespace Cbor

abbrev Text := List Char

namespace Text

def ofNat (number : Nat) : Text := Nat.toDigits 10 number

def ofInt : Int → Text
  | .ofNat number => ofNat number
  | .negSucc predecessor => '-' :: ofNat (predecessor + 1)

def hexDigit (number : Nat) : Char := Nat.digitChar number

def hexNat (width number : Nat) : Text :=
  let digits := Nat.toDigits 16 number
  List.replicate (width - digits.length) '0' ++ digits

def quoted (spell : Char → Text) (text : Text) : Text :=
  '"' :: text.flatMap spell ++ ['"']

def join (separator : Text) : List Text → Text
  | [] => []
  | first :: rest => first ++ rest.flatMap (separator ++ ·)

def because (message cause : Text) : Text := message ++ ": ".toList ++ cause

def occursIn (part text : Text) : Bool :=
  match text with
  | [] => part.isEmpty
  | c :: rest => part.isPrefixOf (c :: rest) || occursIn part rest

def isControl (c : Char) : Bool := c.toNat < 0x20 || (0x7F ≤ c.toNat && c.toNat < 0xA0)

end Text

end Cbor
