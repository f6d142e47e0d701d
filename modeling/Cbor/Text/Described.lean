import Cbor.Text
import Cbor.Text.Visible

/-!
# Described texts

The spelling of characters in messages that describe a text: what does not show is written as its
code point between braces.
-/

namespace Cbor.Text

def describeChar (quote : Char) (c : Char) : Text :=
  match c with
  | '\x00' => ['\\', '0']
  | '\t' => ['\\', 't']
  | '\n' => ['\\', 'n']
  | '\r' => ['\\', 'r']
  | c =>
      if c = quote || c = '\\' then ['\\', c]
      else if isVisible c then [c]
      else ['\\', 'u', '{'] ++ hexNat 0 c.toNat ++ ['}']

def described (text : Text) : Text := quoted (describeChar '"') text

end Cbor.Text
