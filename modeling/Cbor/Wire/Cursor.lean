import Cbor.Bytes
import Cbor.DecodeError

/-!
# Positions in the input

A cursor is an offset together with the bytes from there on.  Readers take a cursor and give
back what they read with the cursor behind it.  The two loops at the end read many elements
with the reader of one; a fault in an element is a fault of the whole.
-/

namespace Cbor

structure Cursor where
  offset : Nat
  rest : Bytes
  deriving DecidableEq, Repr

abbrev Reader (α : Type) := Cursor → Except DecodeError (α × Cursor)

def breakByte : UInt8 := 0xFF

namespace Cursor

def start (data : Bytes) : Cursor := ⟨0, data⟩

def next? (cursor : Cursor) : Option (UInt8 × Cursor) :=
  match cursor.rest with
  | [] => none
  | byte :: rest => some (byte, ⟨cursor.offset + 1, rest⟩)

def take? (count : Nat) (cursor : Cursor) : Option (Bytes × Cursor) :=
  let (taken, rest) := cursor.rest.splitAt count
  if taken.length = count then some (taken, ⟨cursor.offset + count, rest⟩) else none

end Cursor

namespace Reader

variable {α : Type}

def exactly (element : Reader α) (count : Nat) : Reader (List α) := fun cursor =>
  loop count [] cursor
where
  loop : Nat → List α → Reader (List α)
    | 0, found, cursor => .ok (found.reverse, cursor)
    | count + 1, found, cursor => do
        let (x, cursor) ← element cursor
        loop count (x :: found) cursor

/--
Reads elements up to the break byte.  Every element takes at least one byte, so one round for
each remaining byte is enough, and when the rounds are used up so is the input.
-/
def untilBreak (element : Reader α) : Reader (List α) := fun cursor =>
  loop cursor.rest [] cursor
where
  loop : Bytes → List α → Reader (List α)
    | [], _, _ => .error .expectedBreak
    | _ :: rounds, found, cursor =>
        match cursor.next? with
        | none => .error .expectedBreak
        | some (byte, behind) =>
            if byte = breakByte then .ok (found.reverse, behind)
            else do
              let (x, cursor) ← element cursor
              loop rounds (x :: found) cursor

end Reader

end Cbor
