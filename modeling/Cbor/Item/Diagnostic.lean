import Cbor.Decimal.Layout
import Cbor.Item
import Cbor.Text.Hex

/-!
# Diagnostic text

The human-readable text of an item, on one line.  A float shows the fewest digits that read back
in its own width.
-/

namespace Cbor

namespace Diagnostic

/-- Floats are positional from 0.0001 up to below 10^16; a tie goes away from zero. -/
def layout : Decimal.Layout where
  tie := .up
  plainFrom := -4
  plainBelow := 16
  plusSign := false

/-- A character of a text string: control characters are escaped, all others but the quotation
mark and the backslash stand for themselves. -/
def spell (c : Char) : Text :=
  match c with
  | '"' => ['\\', '"']
  | '\\' => ['\\', '\\']
  | '\n' => ['\\', 'n']
  | '\r' => ['\\', 'r']
  | '\t' => ['\\', 't']
  | c => if Text.isControl c then '\\' :: 'u' :: Text.hexNat 4 c.toNat else [c]

def string (content : Bytes) : Text := Text.quoted spell (Utf8.lossy content)

def float (format : FloatFormat) (bits : Nat) : Text :=
  match FloatValue.ofBits format bits with
  | .infinite false => "Infinity".toList
  | .infinite true => "-Infinity".toList
  | x => (layout.finite? x).getD "NaN".toList

end Diagnostic

namespace Item

mutual

def diagnostic : Item → Text
  | .unsigned number => Text.ofNat number.toNat
  | .negative magnitude => '-' :: Text.ofNat magnitude.toNat
  | .bytes content => 'h' :: '\'' :: Hex.encode content ++ ['\'']
  | .text content => Diagnostic.string content
  | .array items => '[' :: Text.join ", ".toList (diagnostics items) ++ [']']
  | .map entries => '{' :: Text.join ", ".toList (entryDiagnostics entries) ++ ['}']
  | .tagged tag content => Text.ofNat tag.toNat ++ '(' :: diagnostic content ++ [')']
  | .bool true => "true".toList
  | .bool false => "false".toList
  | .null => "null".toList
  | .undefined => "undefined".toList
  | .single bits => Diagnostic.float .single bits.toNat
  | .double bits => Diagnostic.float .double bits.toNat

def diagnostics : List Item → List Text
  | [] => []
  | item :: items => diagnostic item :: diagnostics items

def entryDiagnostics : List (Bytes × Item) → List Text
  | [] => []
  | (key, value) :: entries =>
      (Diagnostic.string key ++ ": ".toList ++ diagnostic value) :: entryDiagnostics entries

end

theorem diagnostics_eq_map (items : List Item) : diagnostics items = items.map diagnostic := by
  induction items with
  | nil => rfl
  | cons item items ih => simp [diagnostics, ih]

theorem entryDiagnostics_eq_map (entries : List (Bytes × Item)) :
    entryDiagnostics entries =
      entries.map fun entry => Diagnostic.string entry.1 ++ ": ".toList ++ diagnostic entry.2 := by
  induction entries with
  | nil => rfl
  | cons entry entries ih => simp [entryDiagnostics, ih]

section

variable (items : List Item) (entries : List (Bytes × Item)) (content : Bytes) (item : Item)
  (number : UInt64)

@[simp] theorem diagnostic_unsigned :
    (unsigned number).diagnostic = Text.ofNat number.toNat := rfl

@[simp] theorem diagnostic_negative :
    (negative number).diagnostic = '-' :: Text.ofNat number.toNat := rfl

@[simp] theorem diagnostic_bytes :
    (bytes content).diagnostic = 'h' :: '\'' :: Hex.encode content ++ ['\''] := rfl

@[simp] theorem diagnostic_text : (text content).diagnostic = Diagnostic.string content := rfl

@[simp] theorem diagnostic_array :
    (array items).diagnostic = '[' :: Text.join ", ".toList (items.map diagnostic) ++ [']'] := by
  rw [← diagnostics_eq_map]
  rfl

@[simp] theorem diagnostic_map :
    (map entries).diagnostic =
      '{' :: Text.join ", ".toList (entries.map fun entry =>
        Diagnostic.string entry.1 ++ ": ".toList ++ diagnostic entry.2) ++ ['}'] := by
  rw [← entryDiagnostics_eq_map]
  rfl

@[simp] theorem diagnostic_tagged :
    (tagged number item).diagnostic =
      Text.ofNat number.toNat ++ '(' :: item.diagnostic ++ [')'] := rfl

@[simp] theorem diagnostic_true : (bool true).diagnostic = "true".toList := rfl

@[simp] theorem diagnostic_false : (bool false).diagnostic = "false".toList := rfl

@[simp] theorem diagnostic_null : null.diagnostic = "null".toList := rfl

@[simp] theorem diagnostic_undefined : undefined.diagnostic = "undefined".toList := rfl

end

end Item

end Cbor
