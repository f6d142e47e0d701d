import Cbor.Wire.Item

/-!
# Sequences of items

Data that holds item after item, read in one pass over the whole, or by decoding the first item
of what remains again and again.
-/

namespace Cbor

/-- Reads items until the input is used up; every item takes a byte, so a round for each is enough. -/
def readAll (limit : Nat) (rounds : Bytes) (found : List Item) (cursor : Cursor) :
    Except DecodeError (List Item) :=
  match rounds with
  | [] => .ok found.reverse
  | _ :: rounds =>
      match cursor.rest with
      | [] => .ok found.reverse
      | _ => do
          let (item, cursor) ← Item.read limit limit cursor
          readAll limit rounds (item :: found) cursor

def decodeAllWith (options : Options) (data : Bytes) : Except DecodeError (List Item) :=
  readAll options.maxDepth.toNat data [] (.start data)

def decodeAll (data : Bytes) : Except DecodeError (List Item) := decodeAllWith {} data

structure Step where
  offset : Nat
  bytes : Bytes
  item : Item
  deriving DecidableEq, Repr

def Step.stop (step : Step) : Nat := step.offset + step.bytes.length

structure Walk where
  steps : List Step
  fault : Option (Nat × DecodeError)
  deriving DecidableEq, Repr

namespace Walk

def resume (options : Options) (rounds : Bytes) (found : List Step) (offset : Nat) (rest : Bytes) :
    Walk :=
  match rounds with
  | [] => ⟨found.reverse, none⟩
  | _ :: rounds =>
      match rest with
      | [] => ⟨found.reverse, none⟩
      | _ =>
          match decodeWith options rest with
          | .error error => ⟨found.reverse, some (offset, error)⟩
          | .ok (item, length) =>
              let (bytes, rest) := rest.splitAt length
              resume options rounds (⟨offset, bytes, item⟩ :: found) (offset + length) rest

end Walk

def walk (options : Options) (data : Bytes) : Walk := Walk.resume options data [] 0 data

def walkEvents (found : Walk) : List Event :=
  match found.fault with
  | none => []
  | some (_, error) => decodeEvents (.error error : Except DecodeError Unit)

end Cbor
