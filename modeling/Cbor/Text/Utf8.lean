import Cbor.Bytes
import Cbor.Text

/-!
# UTF-8

Reading bytes as UTF-8 finds the well-formed characters and, between them, the ill-formed parts:
each as long as it could still have become a character.  A lossy reading puts U+FFFD for each
such part; a strict reading allows none.
-/

namespace Cbor.Utf8

structure Lead where
  bits : Nat
  more : Nat
  low : UInt8 := 0x80
  high : UInt8 := 0xBF

/-- The first bytes of characters of several bytes; their second bytes exclude overlong forms,
surrogates and code points beyond U+10FFFF. -/
def lead? (byte : UInt8) : Option Lead :=
  if byte < 0xC2 then none
  else if byte < 0xE0 then some { bits := byte.toNat % 32, more := 1 }
  else if byte = 0xE0 then some { bits := 0, more := 2, low := 0xA0 }
  else if byte = 0xED then some { bits := 13, more := 2, high := 0x9F }
  else if byte < 0xF0 then some { bits := byte.toNat % 16, more := 2 }
  else if byte = 0xF0 then some { bits := 0, more := 3, low := 0x90 }
  else if byte < 0xF4 then some { bits := byte.toNat % 8, more := 3 }
  else if byte = 0xF4 then some { bits := 4, more := 3, high := 0x8F }
  else none

/-- Reads the bytes after the first: the character, or `none` where they break off, and the rest. -/
def continuation : (more : Nat) → (low high : UInt8) → (bits : Nat) → Bytes → Option Char × Bytes
  | 0, _, _, bits, rest => (some (Char.ofNat bits), rest)
  | _ + 1, _, _, _, [] => (none, [])
  | more + 1, low, high, bits, byte :: rest =>
      if low ≤ byte ∧ byte ≤ high then
        continuation more 0x80 0xBF (bits * 64 + byte.toNat % 64) rest
      else (none, byte :: rest)

def split (byte : UInt8) (rest : Bytes) : Option Char × Bytes :=
  if byte < 0x80 then (some (Char.ofNat byte.toNat), rest)
  else match lead? byte with
    | none => (none, rest)
    | some lead => continuation lead.more lead.low lead.high lead.bits rest

def read (bytes : Bytes) : List (Option Char) := loop bytes [] bytes
where
  loop : Bytes → List (Option Char) → Bytes → List (Option Char)
    | [], found, _ | _ :: _, found, [] => found.reverse
    | _ :: rounds, found, byte :: rest =>
        let (char, rest) := split byte rest
        loop rounds (char :: found) rest

def lossy (bytes : Bytes) : Text := (read bytes).map (·.getD '\uFFFD')

def decode? (bytes : Bytes) : Option Text :=
  let chars := read bytes
  if chars.all Option.isSome then some (chars.filterMap id) else none

def encode (text : Text) : Bytes := text.flatMap String.utf8EncodeChar

end Cbor.Utf8
