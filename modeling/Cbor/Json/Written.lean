import Cbor.Decimal.Layout
import Cbor.Json

/-!
# Written JSON

The text of a JSON tree: on one line without blanks, or with every element and member on a line
of its own, indented by two spaces a level.
-/

namespace Cbor.Json

/-- Doubles are positional from 0.00001 up to below 10^16; a tie goes to the even digit. -/
def layout : Decimal.Layout where
  tie := .even
  plainFrom := -5
  plainBelow := 16
  plusSign := true

def spell (c : Char) : Text :=
  match c with
  | '"' => ['\\', '"']
  | '\\' => ['\\', '\\']
  | '\n' => ['\\', 'n']
  | '\r' => ['\\', 'r']
  | '\t' => ['\\', 't']
  | '\x08' => ['\\', 'b']
  | '\x0C' => ['\\', 'f']
  | c => if c.toNat < 0x20 then '\\' :: 'u' :: Text.hexNat 4 c.toNat else [c]

def writtenString (text : Text) : Text := Text.quoted spell text

def writtenDouble (bits : UInt64) : Text :=
  (layout.finite? (FloatValue.ofBits .double bits.toNat)).getD "null".toList

mutual

def compact : Json → Text
  | .null => "null".toList
  | .bool true => "true".toList
  | .bool false => "false".toList
  | .integer value => Text.ofInt value
  | .double bits => writtenDouble bits
  | .string text => writtenString text
  | .array elements => '[' :: Text.join [','] (compactElements elements) ++ [']']
  | .object members => '{' :: Text.join [','] (compactMembers members) ++ ['}']

def compactElements : List Json → List Text
  | [] => []
  | element :: elements => compact element :: compactElements elements

def compactMembers : List (Text × Json) → List Text
  | [] => []
  | (name, value) :: members =>
      (writtenString name ++ ':' :: compact value) :: compactMembers members

end

def lineStart (level : Nat) : Text := '\n' :: List.replicate (2 * level) ' '

def block (opening closing : Char) (level : Nat) : List Text → Text
  | [] => [opening, closing]
  | parts =>
      opening :: lineStart (level + 1) ++ Text.join (',' :: lineStart (level + 1)) parts ++
        lineStart level ++ [closing]

mutual

/-- The text over several lines; the first of them is at `level` already. -/
def prettyAt : (level : Nat) → Json → Text
  | _, .null => "null".toList
  | _, .bool true => "true".toList
  | _, .bool false => "false".toList
  | _, .integer value => Text.ofInt value
  | _, .double bits => writtenDouble bits
  | _, .string text => writtenString text
  | level, .array elements => block '[' ']' level (prettyElements (level + 1) elements)
  | level, .object members => block '{' '}' level (prettyMembers (level + 1) members)

def prettyElements : (level : Nat) → List Json → List Text
  | _, [] => []
  | level, element :: elements => prettyAt level element :: prettyElements level elements

def prettyMembers : (level : Nat) → List (Text × Json) → List Text
  | _, [] => []
  | level, (name, value) :: members =>
      (writtenString name ++ ':' :: ' ' :: prettyAt level value) :: prettyMembers level members

end

def pretty (json : Json) : Text := prettyAt 0 json

end Cbor.Json
