import Cbor.Json
import Cbor.Text.Hex

/-!
# JSON lexemes

Blanks, words, numbers and strings at the start of a text.  A reader gives the value and the rest
of the text, or the first fault.
-/

namespace Cbor.Json

abbrev Reader (α : Type) := Text → Except JsonFault (α × Text)

def afterBlanks (text : Text) : Text :=
  text.dropWhile fun c => c == ' ' || c == '\t' || c == '\n' || c == '\r'

def readWord {α : Type} (value : α) : (letters : Text) → Reader α
  | [], text => .ok (value, text)
  | _ :: _, [] => .error .early
  | letter :: letters, c :: text =>
      if c = letter then readWord value letters text else .error .malformed

/-! ## Numbers -/

structure Numeral where
  negative : Bool
  whole : Text
  fraction : Text
  exponent : Option Int
  deriving DecidableEq, Repr

namespace Numeral

def readDigits (atEnd : JsonFault) : Reader Text := fun text =>
  match text with
  | [] => .error atEnd
  | c :: _ => if c.isDigit then .ok (text.span Char.isDigit) else .error .malformed

def readWhole (atEnd : JsonFault) : Reader Text := fun text => do
  let (digits, rest) ← readDigits atEnd text
  match digits with
  | '0' :: _ :: _ => .error .malformed
  | _ => .ok (digits, rest)

def readFraction (atEnd : JsonFault) : Reader Text := fun text =>
  match text with
  | '.' :: text => readDigits atEnd text
  | _ => .ok ([], text)

def naturalOf (digits : Text) : Nat :=
  digits.foldl (fun number digit => 10 * number + (digit.toNat - '0'.toNat)) 0

def readExponent (atEnd : JsonFault) : Reader (Option Int) := fun text =>
  match text with
  | 'e' :: text | 'E' :: text => do
      let (negative, text) := match text with
        | '+' :: text => (false, text)
        | '-' :: text => (true, text)
        | _ => (false, text)
      let (digits, text) ← readDigits atEnd text
      let size : Int := naturalOf digits
      .ok (some (if negative then -size else size), text)
  | _ => .ok (none, text)

def read (atEnd : JsonFault) : Reader Numeral := fun text => do
  let (negative, text) := match text with
    | '-' :: text => (true, text)
    | _ => (false, text)
  let (whole, text) ← readWhole atEnd text
  let (fraction, text) ← readFraction atEnd text
  let (exponent, text) ← readExponent atEnd text
  .ok (⟨negative, whole, fraction, exponent⟩, text)

/-- Appends digits to a number as long as it stays below 2^64; also the number of digits left. -/
def absorb (number : Nat) : Text → Nat × Nat
  | [] => (number, 0)
  | digit :: digits =>
      let longer := 10 * number + (digit.toNat - '0'.toNat)
      if longer < UInt64.size then absorb longer digits else (number, digits.length + 1)

def shrink : (rounds : Nat) → Float → (power : Nat) → Float
  | 0, _, _ => 0
  | rounds + 1, x, power =>
      if power ≤ 308 then x / Float.ofScientific 1 false power
      else shrink rounds (x / Float.ofScientific 1 false 308) (power - 308)

/-- The double of the leading digits that fit in 64 bits, moved to their place by one product or
quotient; `none` beyond the largest double. -/
def toDouble? (numeral : Numeral) : Option UInt64 :=
  let (number, dropped) := absorb 0 numeral.whole
  let (number, unread) := absorb number numeral.fraction
  let power : Int := numeral.exponent.getD 0 + dropped - (numeral.fraction.length - unread : Nat)
  let signed (x : Float) : UInt64 := (if numeral.negative then -x else x).toBits
  if number = 0 then some (signed 0)
  else if power < 0 then some (signed (shrink 3 number.toFloat (-power).toNat))
  else if 308 < power then none
  else
    let x := number.toFloat * Float.ofScientific 1 false power.toNat
    if x.isInf then none else some (signed x)

def toInteger? (numeral : Numeral) : Option Int :=
  let number := naturalOf numeral.whole
  if numeral.fraction.isEmpty && numeral.exponent.isNone then
    if numeral.negative then
      if 0 < number ∧ number ≤ UInt64.size / 2 then some (-number) else none
    else if number < UInt64.size then some number else none
  else none

def toJson (numeral : Numeral) : Except JsonFault Json :=
  match numeral.toInteger? with
  | some value => .ok (.integer value)
  | none =>
      match numeral.toDouble? with
      | some bits => .ok (.double bits)
      | none => .error .malformed

end Numeral

def readNumber : Reader Json := fun text => do
  let (numeral, rest) ← Numeral.read .early text
  .ok (← numeral.toJson, rest)

/-! ## Strings -/

/-- Reads the four digits of a code unit; a text with fewer than four bytes left ends early. -/
def readUnit : Reader Nat := fun text =>
  match text with
  | a :: b :: c :: d :: rest =>
      match Hex.digit? a.toNat, Hex.digit? b.toNat, Hex.digit? c.toNat, Hex.digit? d.toNat with
      | some a, some b, some c, some d => .ok (((a * 16 + b) * 16 + c) * 16 + d, rest)
      | _, _, _, _ => .error .malformed
  | _ => if (Utf8.encode text).length < 4 then .error .early else .error .malformed

def escaped? : Char → Option Char
  | '"' => some '"'
  | '\\' => some '\\'
  | '/' => some '/'
  | 'b' => some '\x08'
  | 'f' => some '\x0C'
  | 'n' => some '\n'
  | 'r' => some '\r'
  | 't' => some '\t'
  | _ => none

def readEscape (unit : Reader Char) : Reader Char := fun text =>
  match text with
  | [] => .error .early
  | 'u' :: text => unit text
  | c :: text =>
      match escaped? c with
      | some c => .ok (c, text)
      | none => .error .malformed

def readLowSurrogate (high : Nat) : Reader Char := fun text => do
  let text ← readWord () ['\\', 'u'] text
  let (low, text) ← readUnit text.2
  if 0xDC00 ≤ low ∧ low ≤ 0xDFFF then
    .ok (Char.ofNat ((high - 0xD800) * 0x400 + (low - 0xDC00) + 0x10000), text)
  else .error .malformed

def readCodePoint : Reader Char := fun text => do
  let (unit, text) ← readUnit text
  if 0xD800 ≤ unit ∧ unit ≤ 0xDBFF then readLowSurrogate unit text
  else if 0xDC00 ≤ unit ∧ unit ≤ 0xDFFF then .error .malformed
  else .ok (Char.ofNat unit, text)

/-- Reads the characters of a string up to the closing quotation mark.  Every character takes
part of the text, so a round for each is enough. -/
def readCharacters (escape : Reader Char) (rounds : Text) (found : Text) : Reader Text := fun text =>
  match rounds, text with
  | [], _ | _, [] => .error .early
  | _ :: rounds, c :: text =>
      if c = '"' then .ok (found.reverse, text)
      else if c = '\\' then do
        let (c, text) ← escape text
        readCharacters escape rounds (c :: found) text
      else if c.toNat < 0x20 then .error .malformed
      else readCharacters escape rounds (c :: found) text

def readString : Reader Text := fun text =>
  readCharacters (readEscape readCodePoint) text [] text

def skipString : Reader Unit := fun text => do
  let anyUnit : Reader Char := fun text => do
    let (_, text) ← readUnit text
    .ok ('\uFFFD', text)
  let (_, text) ← readCharacters (readEscape anyUnit) text [] text
  .ok ((), text)

end Cbor.Json
